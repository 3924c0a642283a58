import Flowness.Ledger.Producible

/-! When `recover` removes only invisible tail. -/

namespace Flowness.Ledger

open List Library Schemas EventRecord Disk

def activeContent (disk : Disk) : Bytes := (disk.read disk.activeSegmentPath).getD []

def activePieces (disk : Disk) : List Bytes := splitNewlines (activeContent disk)

/-- The committed stream is kept, the segment is empty or ends in a newline, and the number of
bytes removed is returned. -/
def RemovesOnlyInvisibleTail (log : EventLog) (disk : Disk) : Prop :=
  (∀ records, iterCommittedRecords disk = .ok records →
    iterCommittedRecords (recover log disk).1 = .ok records) ∧
  (activeContent (recover log disk).1 = [] ∨
    (activeContent (recover log disk).1).getLast? = some newline) ∧
  ∃ log' removed, (recover log disk).2 = .ok (log', removed) ∧ 0 ≤ removed ∧
    removed = (activeContent disk).length - (activeContent (recover log disk).1).length

/-- After the first unparsable line no visible path-B record or sentinel follows. -/
def NothingVisibleAfterTear (disk : Disk) : Prop :=
  ∀ piece ∈ piecesAfterTear (activePieces disk), ∀ record, recordOfPiece piece = some record →
    ¬(record.isKnown = true ∧ settles record = true)

/-- The startup scan of the sealed segments and the lines kept does not raise. -/
def StartupScans (disk : Disk) : Prop :=
  ∃ state, lifecycleStateOf
    (disk.sealedSegments.map Prod.snd ++ [terminated (keptPieces (activePieces disk))]) = .ok state

structure TailRecoverable (disk : Disk) : Prop where
  nothingVisible : (∃ records, iterCommittedRecords disk = .ok records) → NothingVisibleAfterTear disk
  newlineKept : ¬EndsUnterminated (activePieces disk)
  startup : activePieces disk = keptPieces (activePieces disk) ++ [[]] ∨ StartupScans disk

section

variable {disk : Disk} {content : Bytes}

private theorem activeContent_of_read (h : disk.read disk.activeSegmentPath = some content) :
    activeContent disk = content := by
  unfold activeContent
  rw [h]
  rfl

private theorem activeContent_write (bytes : Bytes) :
    activeContent (disk.write disk.activeSegmentPath bytes) = bytes := by
  unfold activeContent
  rw [(disk.write_active bytes).1, read_write_self]
  rfl

private theorem recover_unterminated (log : EventLog) (h : disk.read disk.activeSegmentPath = some content)
    (hends : EndsUnterminated (splitNewlines content)) :
    ¬∃ log' removed, (recover log disk).2 = .ok (log', removed) ∧ 0 ≤ removed := by
  have hkept := (endsUnterminated_iff (splitNewlines_ne_nil content)).mp hends
  have hsafe : safeEndOf content = content.length + 1 := by
    rw [safeEndOf_eq, hkept, terminated_splitNewlines]
    simp
  have hcontent : content ≠ [] := by
    rintro rfl
    obtain ⟨-, front, last, hlast, hsettles⟩ := hends
    have hpieces : splitNewlines [] = [[]] := rfl
    rw [hpieces] at hlast
    have hnil : last = [] := by
      cases front with
      | nil => simpa using hlast.symm
      | cons piece front => simp at hlast
    rw [hnil] at hsettles
    have hnone : pieceSettles [] = false := by decide +kernel
    rw [hnone] at hsettles
    contradiction
  rintro ⟨log', removed, hresult, hpos⟩
  unfold recover recoverAt at hresult
  simp only [h, hsafe] at hresult
  rw [if_neg (by simp [hcontent])] at hresult
  obtain ⟨state, -, hresult⟩ := map_ok.mp hresult
  have hremoved := (Prod.mk.inj hresult).2
  push_cast at hremoved
  omega

private theorem keptBytes_isPrefix (hends : ¬EndsUnterminated (splitNewlines content)) :
    terminated (keptPieces (splitNewlines content)) <+: content := by
  obtain ⟨pending, hsplit, -⟩ := keptPieces_spec (splitNewlines content)
  rw [append_assoc] at hsplit
  have hdropped : pending ++ piecesAfterTear (splitNewlines content) ≠ [] := by
    intro hnil
    rw [hnil, append_nil] at hsplit
    exact hends ((endsUnterminated_iff (splitNewlines_ne_nil content)).mpr hsplit.symm)
  exact ⟨_, (eq_terminated_append hsplit hdropped).symm⟩

private theorem recover_spec (log : EventLog) (h : disk.read disk.activeSegmentPath = some content)
    (hends : ¬EndsUnterminated (splitNewlines content)) :
    let kept := terminated (keptPieces (splitNewlines content))
    activeContent (recover log disk).1 = kept ∧
      (recover log disk).1.orderedSegments =
        disk.sealedSegments ++ [(disk.activeSegmentPath, kept)] ∧
      (if content = kept then (recover log disk).2 = .ok (log, 0)
        else (recover log disk).2 = (lifecycleStateOf (disk.sealedSegments.map Prod.snd ++ [kept])).map
          fun (nextSequence, eventIdSet, sequenceSet) =>
            ({ log with nextSequence, eventIdSet, sequenceSet },
              (content.length : Int) - kept.length)) := by
  intro kept
  have hpre : kept <+: content := keptBytes_isPrefix hends
  have hsafe : safeEndOf content = kept.length := safeEndOf_eq content
  have htake : content.take kept.length = kept := (prefix_iff_eq_take.mp hpre).symm
  have hwhole : content = [] ∨ kept.length = content.length ↔ content = kept := by
    constructor
    · rintro (hnil | hlength)
      · rw [hnil] at hpre ⊢
        exact (prefix_nil.mp hpre).symm
      · rw [← htake, hlength, take_length]
    · intro heq
      exact .inr (by rw [← heq])
  unfold recover recoverAt
  simp only [h, hsafe, htake]
  by_cases heq : content = kept
  · rw [if_pos (hwhole.mpr heq), if_pos heq]
    refine ⟨?_, ?_, rfl⟩
    · rw [activeContent_of_read h]
      exact heq
    · rw [orderedSegments_eq h, ← heq]
  · rw [if_neg (fun hor => heq (hwhole.mp hor)), if_neg heq]
    refine ⟨activeContent_write kept, (disk.write_active kept).2.2, ?_⟩
    unfold deriveLifecycleState
    rw [(disk.write_active kept).2.2, map_append]
    rfl

end

variable {content : Bytes} {records : List EventRecord}

private theorem splitNewlines_terminated_kept
    (hclean : ∀ piece ∈ splitNewlines content, CleanPiece piece) :
    splitNewlines (terminated (keptPieces (splitNewlines content))) =
      keptPieces (splitNewlines content) ++ [[]] := by
  obtain ⟨rest, hpieces, -⟩ := keptPieces_spec (splitNewlines content)
  have hbytes := splitNewlines_terminated_append (keptPieces (splitNewlines content)) []
    (fun piece hpiece => newline_not_mem_of_clean (hclean piece (by
      rw [hpieces, append_assoc]
      exact mem_append_left _ hpiece)))
  rw [append_nil] at hbytes
  exact hbytes

private theorem clean_terminated_kept (h : ∀ piece ∈ splitNewlines content, CleanPiece piece) :
    ∀ piece ∈ splitNewlines (terminated (keptPieces (splitNewlines content))), CleanPiece piece := by
  rw [splitNewlines_terminated_kept h]
  obtain ⟨pending, hsplit, -⟩ := keptPieces_spec (splitNewlines content)
  intro piece hpiece
  rcases mem_append.mp hpiece with hpiece | hpiece
  · refine h piece ?_
    rw [hsplit, append_assoc]
    exact mem_append_left _ hpiece
  · exact .inl (mem_singleton.mp hpiece)

private theorem readLines_kept (pieces : List Bytes) :
    ∃ lines, readLines (terminated (keptPieces pieces)) = some lines := by
  have hparse := keptPieces_parse pieces
  have hdecode : ∀ kept : List Bytes, (∀ piece ∈ kept, parses piece = true) →
      ∃ text, decodeText (terminated kept) = some text := by
    intro kept
    induction kept with
    | nil => exact fun _ => ⟨[], decodeText_encodeText []⟩
    | cons piece kept ih =>
      intro hall
      obtain ⟨rest, hrest⟩ := ih (fun p hp => hall p (mem_cons_of_mem _ hp))
      have hpiece : ∃ text, decodeText piece = some text := by
        have hpieceParses := hall piece mem_cons_self
        unfold parses recordOfPiece at hpieceParses
        simp only [Bool.or_eq_true, decide_eq_true_eq] at hpieceParses
        rcases hpieceParses with rfl | hsome
        · exact ⟨[], decodeText_encodeText []⟩
        · cases hdecode : decodeText piece with
          | none => simp [hdecode] at hsome
          | some text => exact ⟨text, rfl⟩
      obtain ⟨text, htext⟩ := hpiece
      refine ⟨text ++ '\n' :: rest, ?_⟩
      have hnewline : encodeText (text ++ ['\n']) = piece ++ [newline] := by
        rw [encodeText_append, encodeText_of_decodeText htext]
        rfl
      rw [terminated_cons, ← singleton_append, ← append_assoc, ← hnewline,
        decodeText_encodeText_append, hrest]
      simp
  obtain ⟨text, htext⟩ := hdecode _ hparse
  exact ⟨nonBlankLines text, by rw [readLines, htext]; rfl⟩

private theorem records_split (pieces : List Bytes) :
    ∃ pending : List EventRecord,
      pieces.filterMap recordOfPiece = (keptPieces pieces).filterMap recordOfPiece ++
        (pending ++ (piecesAfterTear pieces).filterMap recordOfPiece) ∧
      ∀ record ∈ pending, settles record = false := by
  obtain ⟨pending, hsplit, hpending⟩ := keptPieces_spec pieces
  refine ⟨pending.filterMap recordOfPiece, ?_, ?_⟩
  · conv_lhs => rw [hsplit]
    rw [filterMap_append, filterMap_append, append_assoc]
  · intro record hrecord
    obtain ⟨piece, hpiece, hof⟩ := mem_filterMap.mp hrecord
    have hsettles := hpending piece hpiece
    unfold pieceSettles at hsettles
    rw [hof] at hsettles
    simpa using hsettles

private theorem scan_ok
    (h : (readSegments (left ++ [content])).bind iterCommittedRecordsFromLines = .ok records) :
    ∃ front lines buffer, readSegments left = .ok front ∧ readLines content = some lines ∧
      visitAll [] (parsedRecords front ++ parsedRecords lines) = .ok (records, buffer) := by
  obtain ⟨all, hall, hscan⟩ := bind_ok.mp h
  rw [readSegments_append] at hall
  obtain ⟨front, hleft, hall⟩ := bind_ok.mp hall
  obtain ⟨rest, hrest, heq⟩ := bind_ok.mp hall
  obtain rfl : front ++ rest = all := Except.ok.inj heq
  rw [readSegments] at hrest
  split at hrest
  · cases hrest
  next lines hread =>
    obtain ⟨_, hnil, rfl⟩ := map_ok.mp hrest
    cases hnil
    obtain ⟨⟨out, buffer⟩, hvisit, rfl⟩ := map_ok.mp hscan
    rw [append_nil, parsedRecords_append] at hvisit
    exact ⟨front, lines, buffer, hleft, hread, hvisit⟩

private theorem scan_of_ok (hleft : readSegments left = .ok front)
    (hread : readLines content = some lines)
    (hvisit : visitAll [] (parsedRecords front ++ parsedRecords lines) = .ok (records, buffer)) :
    (readSegments (left ++ [content])).bind iterCommittedRecordsFromLines = .ok records := by
  rw [readSegments_append]
  simp only [bind, Except.bind, pure, Except.pure, hleft, readSegments, hread, Except.map,
    append_nil]
  unfold iterCommittedRecordsFromLines
  rw [parsedRecords_append, hvisit]
  rfl

private theorem scan_kept_iff (hclean : ∀ piece ∈ splitNewlines content, CleanPiece piece)
    (h : (readSegments (left ++ [content])).bind iterCommittedRecordsFromLines = .ok records) :
    (readSegments (left ++ [terminated (keptPieces (splitNewlines content))])).bind
        iterCommittedRecordsFromLines = .ok records ↔
      ∀ piece ∈ piecesAfterTear (splitNewlines content), ∀ record,
        recordOfPiece piece = some record → ¬(record.isKnown = true ∧ settles record = true) := by
  obtain ⟨front, lines, buffer, hleft, hread, hvisit⟩ := scan_ok h
  obtain ⟨keptLines, hkeptRead⟩ := readLines_kept (splitNewlines content)
  obtain ⟨pending, hsplit, hpending⟩ := records_split (splitNewlines content)
  have hkeptRecords : parsedRecords keptLines =
      (keptPieces (splitNewlines content)).filterMap recordOfPiece := by
    rw [parsedRecords_of_clean (clean_terminated_kept hclean) hkeptRead]
    rw [splitNewlines_terminated_kept hclean, filterMap_append]
    have hlast : [[]].filterMap recordOfPiece = [] := by decide +kernel
    rw [hlast, append_nil]
  rw [parsedRecords_of_clean hclean hread, hsplit, ← append_assoc] at hvisit
  obtain ⟨out, middle, rest, hout, hrest, hrecords⟩ := visitAll_ok_append hvisit
  have hafter : (readSegments (left ++ [terminated (keptPieces (splitNewlines content))])).bind
      iterCommittedRecordsFromLines = .ok out := by
    rw [← hkeptRecords] at hout
    exact scan_of_ok hleft hkeptRead hout
  rw [hafter, hrecords]
  constructor
  · intro hok
    have hnil : rest = [] := by
      have heq : out = out ++ rest := Except.ok.inj hok
      simpa using heq
    intro piece hpiece record hrecord
    refine (visitAll_out_nil hrest).mp hnil record ?_
    exact mem_append_right _ (mem_filterMap.mpr ⟨piece, hpiece, hrecord⟩)
  · intro hnothing
    have hnil : rest = [] := by
      refine (visitAll_out_nil hrest).mpr (fun record hmem => ?_)
      rcases mem_append.mp hmem with hmem | hmem
      · simp [hpending record hmem]
      · obtain ⟨piece, hpiece, hof⟩ := mem_filterMap.mp hmem
        exact hnothing piece hpiece record hof
    rw [hnil, append_nil]

private theorem iterCommittedRecords_eq {disk : Disk}
    (h : disk.orderedSegments = segments ++ [(path, content)]) : iterCommittedRecords disk =
      (readSegments (segments.map Prod.snd ++ [content])).bind iterCommittedRecordsFromLines := by
  unfold iterCommittedRecords iterRawEventLines
  rw [h, map_append]
  rfl

private theorem content_eq_kept_iff (hclean : ∀ piece ∈ splitNewlines content, CleanPiece piece) :
    content = terminated (keptPieces (splitNewlines content)) ↔
      splitNewlines content = keptPieces (splitNewlines content) ++ [[]] := by
  constructor
  · intro heq
    conv_lhs => rw [heq]
    exact splitNewlines_terminated_kept hclean
  · intro hsplit
    have hcontent := eq_terminated_append hsplit (by simp)
    simpa [List.intercalate] using hcontent

/-- On every segment the write paths produce, `recover` removes only invisible tail exactly when
no visible record follows the first unparsable line, the file does not end in an unterminated
settled line, and the startup scan it runs after a cut does not raise. -/
theorem recover_removesOnlyInvisibleTail_iff (log : EventLog) (disk : Disk) (content : Bytes)
    (hread : disk.read disk.activeSegmentPath = some content) (hproducible : Producible content) :
    RemovesOnlyInvisibleTail log disk ↔ TailRecoverable disk := by
  have hclean := clean_of_producible hproducible
  have hpieces : activePieces disk = splitNewlines content := by
    rw [activePieces, activeContent_of_read hread]
  by_cases hends : EndsUnterminated (splitNewlines content)
  · constructor
    · rintro ⟨-, -, log', removed, hresult, hpos, -⟩
      exact absurd ⟨log', removed, hresult, hpos⟩ (recover_unterminated log hread hends)
    · intro hrecoverable
      exact absurd (hpieces ▸ hends) hrecoverable.newlineKept
  obtain ⟨hafter, hsegments, hresult⟩ := recover_spec log hread hends
  have hbefore := iterCommittedRecords_eq (Disk.orderedSegments_eq hread)
  have hscan := iterCommittedRecords_eq hsegments
  have hstream : (∀ records, iterCommittedRecords disk = .ok records →
      iterCommittedRecords (recover log disk).1 = .ok records) ↔
      ((∃ records, iterCommittedRecords disk = .ok records) → NothingVisibleAfterTear disk) := by
    unfold NothingVisibleAfterTear
    rw [hpieces, hbefore, hscan]
    constructor
    · rintro hkeeps ⟨records, hok⟩
      exact (scan_kept_iff hclean hok).mp (hkeeps records hok)
    · intro hnothing records hok
      exact (scan_kept_iff hclean hok).mpr (hnothing ⟨records, hok⟩)
  have hreturn : (∃ log' removed, (recover log disk).2 = .ok (log', removed) ∧ 0 ≤ removed ∧
      removed = (activeContent disk).length - (activeContent (recover log disk).1).length) ↔
      (activePieces disk = keptPieces (activePieces disk) ++ [[]] ∨ StartupScans disk) := by
    rw [hafter, activeContent_of_read hread, hpieces, ← content_eq_kept_iff hclean]
    unfold StartupScans
    rw [hpieces]
    by_cases heq : content = terminated (keptPieces (splitNewlines content))
    · rw [if_pos heq] at hresult
      refine ⟨fun _ => Or.inl heq, fun _ => ⟨log, 0, hresult, le_rfl, ?_⟩⟩
      rw [← heq]
      omega
    · rw [if_neg heq] at hresult
      have hlength := (keptBytes_isPrefix hends).length_le
      rw [hresult]
      cases hstate : lifecycleStateOf (disk.sealedSegments.map Prod.snd ++
          [terminated (keptPieces (splitNewlines content))]) with
      | error e => simp [Except.map, heq]
      | ok state =>
        refine ⟨fun _ => Or.inr ⟨state, rfl⟩, fun _ => ⟨_, _, rfl, ?_, rfl⟩⟩
        omega
  constructor
  · rintro ⟨hkeeps, -, hreturns⟩
    exact { nothingVisible := hstream.mp hkeeps
            newlineKept := by rw [hpieces]; exact hends
            startup := hreturn.mp hreturns }
  · intro hrecoverable
    refine ⟨hstream.mpr hrecoverable.nothingVisible, ?_, hreturn.mpr hrecoverable.startup⟩
    rw [hafter]
    exact terminated_eq_nil_or_getLast _

def tornContent (record : EventRecord) : Bytes := recordLines [record] ++ [123]

def tornDisk : Disk := { Disk.empty with base := some (tornContent sampleRecord) }

private theorem recordOfPiece_dumpJson (record : EventRecord) :
    recordOfPiece (encodeText record.dumpJson) = some record := by
  rw [recordOfPiece, decodeText_encodeText, Option.bind_some, validateJson_dumpJson]

private theorem pieces_tornContent (hsettles : settles record = true) :
    keptPieces (splitNewlines (tornContent record)) = [encodeText record.dumpJson] ∧
      piecesAfterTear (splitNewlines (tornContent record)) = [[123]] := by
  have hpieces : splitNewlines (tornContent record) = [encodeText record.dumpJson, [123]] := by
    have hwhole := splitNewlines_terminated_append [encodeText record.dumpJson] [123]
      (by simpa using newline_not_mem_writtenLine (.inl ⟨record, rfl⟩))
    have hlast : splitNewlines [123] = [[123]] := by decide
    rw [hlast] at hwhole
    rw [tornContent, recordLines, frameLines_eq_terminated]
    exact hwhole
  have hparses : parses (encodeText record.dumpJson) = true := by
    unfold parses
    rw [recordOfPiece_dumpJson]
    simp
  have htorn : parses [123] = false := by decide +kernel
  have hsettled : pieceSettles (encodeText record.dumpJson) = true := by
    rw [pieceSettles, recordOfPiece_dumpJson]
    exact hsettles
  rw [hpieces]
  refine ⟨?_, ?_⟩
  · simp [keptPieces, hparses, htorn, hsettled]
  · rw [piecesAfterTear, dropWhile_cons_of_pos hparses,
      dropWhile_cons_of_neg (by rw [htorn]; simp)]

private theorem lifecycle_sampleRecord :
    ∃ state, lifecycleStateOf [recordLines [sampleRecord]] = .ok state := by
  have hread : readLines (recordLines [sampleRecord]) = some [sampleRecord.dumpJson] :=
    readLines_frameLines (by simpa using tidy_dumpJson sampleRecord)
  have hline : lifecycleVisit [] sampleRecord.dumpJson = .ok ([(0, "evt-1")], []) := by
    rw [lifecycleVisit, parse_dumpJson]
    decide
  refine ⟨(1, ["evt-1"], [0]), ?_⟩
  unfold lifecycleStateOf
  rw [readSegments, hread]
  simp only [readSegments, Except.map, bind, Except.bind, append_nil,
    iterCommittedLifecycleFields, lifecycleVisitAll, hline]
  decide

private theorem settles_sampleRecord : settles sampleRecord = true := rfl

/-- A torn tail behind a committed record is removed and nothing else. -/
theorem recover_tornDisk : RemovesOnlyInvisibleTail {} tornDisk := by
  obtain ⟨hkept, htear⟩ := pieces_tornContent settles_sampleRecord
  have hactive : activePieces tornDisk = splitNewlines (tornContent sampleRecord) := rfl
  have hproducible : Producible (tornContent sampleRecord) := by
    have htorn : [123] <+: recordLines [sampleRecord] := by
      have hopen := (braced_dumpJson sampleRecord).opening
      obtain ⟨b, bytes, hbytes⟩ := exists_cons_of_ne_nil (l := encodeText sampleRecord.dumpJson)
        (fun hnil => by simp [hnil] at hopen)
      rw [hbytes, List.head?_cons, Option.some.injEq] at hopen
      rw [recordLines, map_cons, frameLines_cons, frameLine, hbytes, hopen]
      exact ⟨_, rfl⟩
    refine ⟨[sampleRecord.dumpJson], [123], [], ?_, ?_, [sampleRecord], htorn⟩
    · rw [frameLines_nil, append_nil]
      rfl
    · intro line hline
      simp only [append_nil, mem_singleton] at hline
      exact Or.inl ⟨sampleRecord, hline⟩
  refine (recover_removesOnlyInvisibleTail_iff {} tornDisk (tornContent sampleRecord) rfl
    hproducible).mpr ⟨?_, ?_, Or.inr ?_⟩
  · intro hscans piece hpiece record hrecord
    have hnone : recordOfPiece [123] = none := by decide +kernel
    rw [hactive, htear, mem_singleton] at hpiece
    rw [hpiece, hnone] at hrecord
    simp at hrecord
  · rintro ⟨hnil, -⟩
    rw [hactive, htear] at hnil
    exact cons_ne_nil _ _ hnil
  · rw [StartupScans, hactive, hkept]
    exact lifecycle_sampleRecord

def pollerLine : Text := "\x7b\"event_type\":\"NodeTouched\"\x7d".toList

def pollerDisk : Disk :=
  { Disk.empty with base := some (frameLines [pollerLine, sampleRecord.dumpJson]) }

private theorem pollerLine_isPollerLine : PollerLine pollerLine where
  braces := ⟨"\"event_type\":\"NodeTouched\"".toList, by decide, Json.printable_of_all rfl⟩
  sequenceless := ⟨[("event_type", .str "NodeTouched")], by decide +kernel, by decide⟩

private theorem recordOfPiece_pollerLine : recordOfPiece (encodeText pollerLine) = none := by
  obtain ⟨entries, hparse, hsequence⟩ := pollerLine_isPollerLine.sequenceless
  rw [recordOfPiece, decodeText_encodeText, Option.bind_some,
    validateJson_of_no_sequence hparse hsequence]

private theorem keptPieces_pollerDisk :
    keptPieces (splitNewlines (frameLines [pollerLine, sampleRecord.dumpJson])) = [] := by
  have hpieces : splitNewlines (frameLines [pollerLine, sampleRecord.dumpJson]) =
      encodeText pollerLine :: splitNewlines (frameLines [sampleRecord.dumpJson]) := by
    have hwhole := splitNewlines_terminated_append [encodeText pollerLine]
      (frameLines [sampleRecord.dumpJson])
      (by simpa using newline_not_mem_writtenLine (.inr pollerLine_isPollerLine))
    simpa [frameLine] using hwhole
  have htear : parses (encodeText pollerLine) = false := by
    unfold parses
    rw [recordOfPiece_pollerLine]
    decide
  rw [hpieces, keptPieces, htear]
  rfl

private theorem iterCommittedRecords_pollerDisk :
    iterCommittedRecords pollerDisk = .ok [sampleRecord] := by
  have hread : readLines (frameLines [pollerLine, sampleRecord.dumpJson]) =
      some [pollerLine, sampleRecord.dumpJson] := by
    refine readLines_frameLines (fun line hline => ?_)
    simp only [mem_cons, not_mem_nil, or_false] at hline
    rcases hline with rfl | rfl
    · exact tidy_writtenLine (.inr pollerLine_isPollerLine)
    · exact tidy_dumpJson sampleRecord
  obtain ⟨entries, hparse, hsequence⟩ := pollerLine_isPollerLine.sequenceless
  have hrecords : parsedRecords [pollerLine, sampleRecord.dumpJson] = [sampleRecord] := by
    unfold parsedRecords
    rw [filterMap_cons, validateJson_of_no_sequence hparse hsequence,
      filterMap_cons, validateJson_dumpJson]
    rfl
  unfold iterCommittedRecords iterRawEventLines
  have hsegments : pollerDisk.orderedSegments.map Prod.snd =
      [frameLines [pollerLine, sampleRecord.dumpJson]] := rfl
  rw [hsegments, readSegments, hread]
  simp only [readSegments, Except.map, bind, Except.bind, append_nil]
  rw [iterCommittedRecordsFromLines, hrecords]
  decide

/-- A crash is not even needed: `recover` takes the poller line for a tear and cuts the committed
record behind it. -/
theorem recover_pollerDisk_drops_committed :
    Producible (frameLines [pollerLine, sampleRecord.dumpJson]) ∧
      iterCommittedRecords pollerDisk = .ok [sampleRecord] ∧
      iterCommittedRecords (recover {} pollerDisk).1 = .ok [] ∧
      ¬RemovesOnlyInvisibleTail {} pollerDisk := by
  have hproducible : Producible (frameLines [pollerLine, sampleRecord.dumpJson]) := by
    refine ⟨[pollerLine, sampleRecord.dumpJson], [], [], by simp, ?_, [], by simp⟩
    intro line hline
    simp only [append_nil, mem_cons, not_mem_nil, or_false] at hline
    rcases hline with rfl | rfl
    · exact Or.inr pollerLine_isPollerLine
    · exact Or.inl ⟨sampleRecord, rfl⟩
  have hafter : iterCommittedRecords (recover {} pollerDisk).1 = .ok [] := by
    have hsafe : safeEndOf (frameLines [pollerLine, sampleRecord.dumpJson]) = 0 := by
      rw [safeEndOf_eq, keptPieces_pollerDisk]
      rfl
    have hread : pollerDisk.read pollerDisk.activeSegmentPath =
        some (frameLines [pollerLine, sampleRecord.dumpJson]) := rfl
    have hne : frameLines [pollerLine, sampleRecord.dumpJson] ≠ [] := by simp [frameLine]
    have hcut : (recover {} pollerDisk).1 =
        pollerDisk.write pollerDisk.activeSegmentPath [] := by
      unfold recover recoverAt
      rw [hread]
      simp only [hsafe, take_zero]
      rw [if_neg]
      rintro (hnil | hlength)
      · exact hne hnil
      · exact hne (length_eq_zero_iff.mp hlength.symm)
    rw [hcut]
    decide
  refine ⟨hproducible, iterCommittedRecords_pollerDisk, hafter, ?_⟩
  rintro ⟨hkeeps, -, -⟩
  have hkept := hkeeps _ iterCommittedRecords_pollerDisk
  rw [hafter] at hkept
  simp at hkept

end Flowness.Ledger
