import Flowness.Ledger.OpenLine
import Flowness.Ledger.Visibility

/-!
Batches and crashes. A crash leaves the first lines of a batch at the end of its segment; a
committed scan then shows the whole batch or none of it exactly when no event before the last one
is read as a sentinel.
-/

namespace Flowness.Ledger

open Option Library Schemas

/-! ### What a scan makes of the records it reads -/

variable {record : EventRecord} {records : List EventRecord} {text : Text}

/-- All a visit can do: skip a version it may skip, yield a path-B record, yield a batch up to its
sentinel, or keep a record of a batch for later. -/
theorem visit_cases {next : Buffer} (h : visit buffer record = .ok (out, next)) :
    record.failsReplay = false ∧
      ((record.isKnown = false ∧ out = [] ∧ next = buffer) ∨
        record.isKnown = true ∧
          ((record.batchId = none ∧ out = [record] ∧ next = buffer) ∨
            ∃ batchId, record.batchId = some batchId ∧
              ((record.isSentinel = true ∧ out = buffer.pending batchId ++ [record] ∧
                  next = Dict.erase buffer batchId) ∨
                (record.isSentinel = false ∧ out = [] ∧ next = buffer.push batchId record)))) := by
  unfold visit at h
  split at h
  · contradiction
  rename_i hfails
  refine ⟨by simpa using hfails, ?_⟩
  split at h
  next hunknown =>
    cases h
    exact .inl ⟨by simpa using hunknown, rfl, rfl⟩
  rename_i hknown
  refine .inr ⟨by simpa using hknown, ?_⟩
  split at h
  next hbatch =>
    cases h
    exact .inl ⟨hbatch, rfl, rfl⟩
  rename_i batchId hbatch
  refine .inr ⟨batchId, hbatch, ?_⟩
  split at h
  next hsentinel =>
    cases h
    exact .inl ⟨hsentinel, rfl, rfl⟩
  next hsentinel =>
    cases h
    exact .inr ⟨by simpa using hsentinel, rfl, rfl⟩

theorem visitAll_replays (h : visitAll buffer records = .ok (out, final)) :
    ∀ record ∈ records, record.failsReplay = false := by
  induction records generalizing buffer out with
  | nil => simp
  | cons first records ih =>
    obtain ⟨early, next, late, hvisit, hrest, -⟩ := visitAll_cons_ok h
    intro record hrecord
    rcases List.mem_cons.mp hrecord with rfl | hrecord
    · exact (visit_cases hvisit).1
    · exact ih hrest record hrecord

theorem visitAll_yields {P : EventRecord → Prop} (h : visitAll buffer records = .ok (out, final))
    (hwaiting : ∀ record ∈ buffer.waiting, P record)
    (hrecords : ∀ record ∈ records, record.isKnown = true → P record) :
    ∀ record ∈ out, P record := by
  induction records generalizing buffer out with
  | nil =>
    cases h
    simp
  | cons first records ih =>
    obtain ⟨early, next, late, hvisit, hrest, rfl⟩ := visitAll_cons_ok h
    have hstep : (∀ record ∈ early, P record) ∧ ∀ record ∈ next.waiting, P record := by
      have hread : ∀ record, 0 < early.count record + next.waiting.count record →
          record ∈ buffer.waiting ∨ record = first := by
        intro record hpos
        have hle := count_visit_le hvisit record
        by_cases hwait : record ∈ buffer.waiting
        · exact .inl hwait
        · rw [List.count_eq_zero_of_not_mem hwait] at hle
          exact .inr (List.mem_singleton.mp (List.count_pos_iff.mp (by omega)))
      rcases (visit_cases hvisit).2 with ⟨-, rfl, rfl⟩ | ⟨hknown, -⟩
      · exact ⟨by simp, hwaiting⟩
      have hall : ∀ record, 0 < early.count record + next.waiting.count record → P record := by
        intro record hpos
        rcases hread record hpos with hmem | rfl
        · exact hwaiting record hmem
        · exact hrecords _ List.mem_cons_self hknown
      constructor
      · intro record hmem
        have hpos := List.count_pos_iff.mpr hmem
        exact hall record (by omega)
      · intro record hmem
        have hpos := List.count_pos_iff.mpr hmem
        exact hall record (by omega)
    intro record hrecord
    rcases List.mem_append.mp hrecord with hmem | hmem
    · exact hstep.1 record hmem
    · exact ih hrest hstep.2 (fun r hr => hrecords r (List.mem_cons_of_mem _ hr)) record hmem

theorem visitAll_unsettled (h : visitAll buffer records = .ok (out, final))
    (hbatch : ∀ record ∈ records, record.batchId ≠ none)
    (hopen : ∀ record ∈ records, record.isKnown = true → record.isSentinel = false) : out = [] := by
  induction records generalizing buffer out with
  | nil => exact (Prod.mk.inj (Except.ok.inj h)).1.symm
  | cons first records ih =>
    obtain ⟨early, next, late, hvisit, hrest, rfl⟩ := visitAll_cons_ok h
    have hlate := ih hrest (fun r hr => hbatch r (List.mem_cons_of_mem _ hr))
      (fun r hr => hopen r (List.mem_cons_of_mem _ hr))
    rw [hlate, List.append_nil]
    rcases (visit_cases hvisit).2 with ⟨-, hearly, -⟩ | ⟨hknown, ⟨hnone, -⟩ |
      ⟨batchId, -, ⟨hsentinel, -⟩ | ⟨-, hearly, -⟩⟩⟩
    · exact hearly
    · exact absurd hnone (hbatch first List.mem_cons_self)
    · rw [hopen first List.mem_cons_self hknown] at hsentinel
      contradiction
    · exact hearly

theorem visitAll_sentinel (h : visitAll buffer records = .ok (out, final))
    (hrecord : record ∈ records) (hknown : record.isKnown = true)
    (hsentinel : record.isSentinel = true) : record ∈ out := by
  induction records generalizing buffer out with
  | nil => simp at hrecord
  | cons first records ih =>
    obtain ⟨early, next, late, hvisit, hrest, rfl⟩ := visitAll_cons_ok h
    rcases List.mem_cons.mp hrecord with rfl | hrecord
    · apply List.mem_append_left
      rcases (visit_cases hvisit).2 with ⟨hunknown, -⟩ | ⟨-, ⟨-, rfl, -⟩ |
        ⟨batchId, -, ⟨-, rfl, -⟩ | ⟨hplain, -⟩⟩⟩
      · rw [hknown] at hunknown
        contradiction
      · simp
      · simp
      · rw [hsentinel] at hplain
        contradiction
    · exact List.mem_append_right _ (ih hrest hrecord)

/-! ### The segment a write goes to -/

section

variable {log : EventLog} {disk : Disk} {write : PendingWrite}

private theorem writeHot_unlisted (h : Disk.isListed number = false) (content : Bytes)
    (files : List (Nat × Bytes)) :
    (Disk.writeHot number content files).filter (fun entry => Disk.isListed entry.1) =
      files.filter (fun entry => Disk.isListed entry.1) := by
  induction files with
  | nil => simp [Disk.writeHot, h]
  | cons entry rest ih =>
    unfold Disk.writeHot
    split
    · rw [List.filter_cons_of_neg (by simp [h])]
    · split
      next heq =>
        subst heq
        rw [List.filter_cons_of_neg (by simp [h]), List.filter_cons_of_neg (by simp [h])]
      · rw [List.filter_cons, List.filter_cons, ih]

theorem orderedSegments_write_unlisted (h : path.listed = false) (content : Bytes) :
    (disk.write path content).orderedSegments = disk.orderedSegments := by
  cases path with
  | base => contradiction
  | hot number =>
    unfold Disk.orderedSegments Disk.orderedHotSegments Disk.write
    rw [writeHot_unlisted h]

theorem Prepared.orderedSegments_write (h : Prepared log disk write)
    (hlisted : write.target.listed = true) :
    ∃ earlier, disk.orderedSegments = earlier ++
        (disk.read write.target).toList.map (fun content => (write.target, content)) ∧
      ∀ content, (disk.write write.target content).orderedSegments =
        earlier ++ [(write.target, content)] := by
  rcases writeTarget_cases h.target with htarget | ⟨htarget, -⟩
  · rw [htarget]
    refine ⟨disk.sealedSegments, ?_, fun content => (disk.write_active content).2.2⟩
    cases hread : disk.read disk.activeSegmentPath with
    | some content => exact Disk.orderedSegments_eq hread
    | none =>
      unfold Disk.activeSegmentPath Disk.sealedSegments Disk.orderedSegments at *
      cases hlast : disk.orderedHotSegments.getLast? with
      | none =>
        rw [hlast] at hread
        have hbase : disk.base = none := hread
        rw [hbase, List.getLast?_eq_none_iff.mp hlast]
        rfl
      | some last =>
        rw [hlast] at hread
        have hmem := (List.mem_filter.mp (List.mem_of_getLast? hlast)).1
        have hsome : disk.read (.hot last.1) = some last.2 :=
          (Disk.lookup_eq_some_iff disk.sorted).mpr hmem
        rw [hsome] at hread
        contradiction
  · rw [htarget] at hlisted ⊢
    obtain ⟨number, hnumber⟩ : ∃ number, disk.nextSegmentPath = .hot number := by
      unfold Disk.nextSegmentPath
      split
      · exact ⟨_, rfl⟩
      · exact ⟨_, rfl⟩
    rw [hnumber] at hlisted ⊢
    refine ⟨disk.orderedSegments, ?_, fun content => (Disk.write_next hnumber hlisted content).2.2.2⟩
    rw [(Disk.write_next hnumber hlisted []).1]
    simp

def cutAt (disk : Disk) (target : SegmentPath) (text : Text) : Disk :=
  disk.write target (encodeText (closedLines text))

theorem readSegments_snoc (earlier : List (SegmentPath × Bytes)) (path : SegmentPath)
    (content : Bytes) (h : readLines content = some lines) :
    readSegments ((earlier ++ [(path, content)]).map Prod.snd) =
      (readSegments (earlier.map Prod.snd)).map (· ++ lines) := by
  rw [List.map_append, readSegments_append, List.map_cons, readSegments, h]
  cases readSegments (earlier.map Prod.snd) with
  | error e => rfl
  | ok front => simp [readSegments, bind, Except.bind, Except.map, pure, Except.pure]

section

variable (h : Prepared log disk write) (hlisted : write.target.listed = true)
include h hlisted

theorem Prepared.scans (htext : decodeText ((disk.read write.target).getD []) = some text) :
    ∃ earlier : Except ScanError (List EventRecord),
      iterCommittedRecords (cutAt disk write.target text) =
        earlier.bind (fun front => (visitAll [] front).map Prod.fst) ∧
      (∀ records, records ≠ [] →
        iterCommittedRecords (disk.append write.target (recordLines records)) =
          earlier.bind (fun front => (visitAll [] (front ++ landed text records)).map Prod.fst)) ∧
      ∀ front, earlier = .ok front → ∃ lines, iterRawEventLines disk = .ok lines ∧
        ∀ record ∈ front, record ∈ parsedRecords lines := by
  obtain ⟨segments, hdisk, hwrite⟩ := h.orderedSegments_write hlisted
  refine ⟨(readSegments (segments.map Prod.snd)).map
    (fun lines => parsedRecords (lines ++ nonBlankLines (closedLines text))), ?_, ?_, ?_⟩
  · have hread : readLines (encodeText (closedLines text)) =
        some (nonBlankLines (closedLines text)) := by
      rw [readLines, decodeText_encodeText, map_some]
    unfold iterCommittedRecords iterRawEventLines cutAt
    rw [hwrite, readSegments_snoc _ _ _ hread]
    cases readSegments (segments.map Prod.snd) with
    | error e => rfl
    | ok lines => rfl
  · intro records hne
    obtain ⟨lines, hread, hparsed⟩ := readLines_append_write htext hne
    unfold iterCommittedRecords iterRawEventLines Disk.append
    rw [hwrite, readSegments_snoc _ _ _ hread]
    cases readSegments (segments.map Prod.snd) with
    | error e => rfl
    | ok front =>
      show iterCommittedRecordsFromLines (front ++ lines) = _
      rw [iterCommittedRecordsFromLines, parsedRecords_append, hparsed, ← List.append_assoc,
        ← parsedRecords_append]
      rfl
  · intro front hfront
    cases hlines : readSegments (segments.map Prod.snd) with
    | error e =>
      rw [hlines] at hfront
      contradiction
    | ok lines =>
      rw [hlines] at hfront
      obtain rfl := (Except.ok.inj hfront).symm
      unfold iterRawEventLines
      rw [hdisk]
      cases hread : disk.read write.target with
      | none =>
        rw [hread] at htext
        obtain rfl : [] = text := some.inj htext
        refine ⟨lines, by simpa using hlines, fun record hrecord => ?_⟩
        have hnil : nonBlankLines (closedLines []) = [] := by decide
        simpa [hnil] using hrecord
      | some content =>
        rw [hread, getD_some] at htext
        have hcontent : readLines content = some (nonBlankLines text) := by
          rw [readLines, htext, map_some]
        refine ⟨lines ++ nonBlankLines text, ?_, ?_⟩
        · rw [toList_some, List.map_singleton, readSegments_snoc _ _ _ hcontent, hlines]
          rfl
        · intro record hrecord
          have hsplit := nonBlankLines_closedLines_append text (openLine text)
          rw [closedLines_append_openLine] at hsplit
          rw [hsplit, ← List.append_assoc, parsedRecords_append]
          exact List.mem_append_left _ hrecord

theorem Prepared.scan_undecodable (hcontent : decodeText ((disk.read write.target).getD []) = none)
    (records : List EventRecord) :
    ∃ error, iterCommittedRecords (disk.append write.target (recordLines records)) =
      .error error := by
  obtain ⟨segments, -, hwrite⟩ := h.orderedSegments_write hlisted
  unfold iterCommittedRecords iterRawEventLines Disk.append
  rw [hwrite, List.map_append, readSegments_append, List.map_cons, List.map_nil, readSegments,
    readLines_append_undecodable hcontent]
  cases readSegments (segments.map Prod.snd) with
  | error e => exact ⟨e, rfl⟩
  | ok front => exact ⟨.unicodeDecode, rfl⟩

theorem Prepared.scan_nothing : iterCommittedRecords (disk.append write.target (recordLines [])) =
      iterCommittedRecords disk := by
  obtain ⟨segments, hdisk, hwrite⟩ := h.orderedSegments_write hlisted
  have hnil : recordLines [] = [] := rfl
  have hlines : iterRawEventLines (disk.append write.target (recordLines [])) =
      iterRawEventLines disk := by
    unfold iterRawEventLines Disk.append
    rw [hwrite, hdisk, hnil, List.append_nil]
    cases disk.read write.target with
    | some content => rfl
    | none =>
      rw [getD_none, readSegments_snoc _ _ _ readLines_nil, toList_none, List.map_nil,
        List.append_nil]
      cases readSegments (segments.map Prod.snd) with
      | error e => rfl
      | ok front => simp [Except.map]
  unfold iterCommittedRecords
  rw [hlines]

end

end

theorem scan_subset {disk : Disk} (h : iterCommittedRecords disk = .ok committed) :
    ∃ lines, iterRawEventLines disk = .ok lines ∧ ∀ record ∈ committed, record ∈ parsedRecords lines := by
  obtain ⟨lines, buffer, hlines, hvisit⟩ := iterCommittedRecords_ok.mp h
  exact ⟨lines, hlines,
    visitAll_yields hvisit (by simp [Buffer.waiting]) fun record hrecord _ => hrecord⟩

/-! ### Which batches are atomic -/

/-- A crash after any number of lines shows all of the batch or nothing of it, and its event ids
are new to the log and to each other. -/
structure AllOrNothing (disk : Disk) (write : PendingWrite) : Prop where
  visible : ∀ count committed,
    iterCommittedRecords (disk.append write.target (recordLines (write.records.take count))) =
      .ok committed →
    (∀ record ∈ write.records, record ∈ committed) ∨ ∀ record ∈ write.records, record ∉ committed
  distinct : (write.records.map (·.eventId.val)).Nodup
  unused : ∀ lines, iterRawEventLines disk = .ok lines → ∀ old ∈ parsedRecords lines,
    ∀ record ∈ write.records, old.eventId.val ≠ record.eventId.val

def reached (events : List EventRecord) : List EventRecord :=
  events.takeWhile (fun event => !event.failsReplay)

/-- No event that a scan gets to and understands is a sentinel. -/
def NeverSettles (events : List EventRecord) : Prop :=
  ∀ event ∈ reached events, event.isKnown = true → event.isSentinel = false

/-- Every event is of a known version, and only the last one is a sentinel. -/
def SettlesLast (events : List EventRecord) : Prop :=
  (∀ event ∈ events, event.isKnown = true) ∧ ∀ event ∈ events.dropLast, event.isSentinel = false

/-- The batches whose writes are atomic: distinct event ids, of which the instance knows those that
are in the log; and, where a scan gets to the batch at all, no sentinel but the last event. -/
structure SettlesOnce (log : EventLog) (disk : Disk) (batch : TransactionBatch) : Prop where
  distinct : (batch.events.map (·.eventId.val)).Nodup
  known : ∀ lines, iterRawEventLines disk = .ok lines → ∀ old ∈ parsedRecords lines,
    ∀ event ∈ batch.events, old.eventId.val = event.eventId.val → old.eventId.val ∈ log.eventIdSet
  settles : ∀ target text committed, writeTarget log disk batch.events.length = .ok target →
    target.listed = true → decodeText ((disk.read target).getD []) = some text →
    iterCommittedRecords (cutAt disk target text) = .ok committed →
    NeverSettles (landed text batch.events) ∨ (isBlank text = true ∧ SettlesLast batch.events)

def signs (event : EventRecord) : Bool × Bool × Bool :=
  (event.isKnown, event.failsReplay, event.isSentinel)

private theorem signs_reseqFrom (env : WriterEnv) (base : Nat) (events : List EventRecord) :
    (reseqFrom env base events).map signs = events.map signs := by
  apply map_reseqFrom
  intro record newSeq
  obtain ⟨recordHash, heq⟩ := reseq_eq env record newSeq
  rw [heq]
  rfl

private theorem neverSettles_of_signs (h : left.map signs = right.map signs)
    (hleft : NeverSettles left) : NeverSettles right := by
  induction left generalizing right with
  | nil =>
    rw [List.map_eq_nil_iff.mp h.symm]
    exact hleft
  | cons first rest ih =>
    cases right with
    | nil => simp at h
    | cons other others =>
      simp only [List.map_cons, List.cons.injEq] at h
      obtain ⟨hsigns, hrest⟩ := h
      obtain ⟨hknown, hfails, hsentinel⟩ : first.isKnown = other.isKnown ∧
          first.failsReplay = other.failsReplay ∧ first.isSentinel = other.isSentinel := by
        simpa [signs] using hsigns
      unfold NeverSettles reached at hleft ih ⊢
      rw [List.takeWhile_cons] at hleft ⊢
      rw [← hfails]
      cases hstop : first.failsReplay with
      | true => simp
      | false =>
        simp only [hstop, Bool.not_false, if_true] at hleft ⊢
        intro event hevent
        rcases List.mem_cons.mp hevent with rfl | hevent
        · rw [← hknown, ← hsentinel]
          exact hleft first List.mem_cons_self
        · exact ih hrest (fun e he => hleft e (List.mem_cons_of_mem _ he)) event hevent

private theorem settlesLast_of_signs (h : left.map signs = right.map signs)
    (hleft : SettlesLast left) : SettlesLast right := by
  have hsame : ∀ {left right : List EventRecord}, left.map signs = right.map signs →
      ∀ event ∈ right, ∃ other ∈ left, signs other = signs event := by
    intro left right h event hevent
    have hmem := List.mem_map_of_mem (f := signs) hevent
    rw [← h] at hmem
    exact List.mem_map.mp hmem
  constructor
  · intro event hevent
    obtain ⟨other, hother, heq⟩ := hsame h event hevent
    rw [← (Prod.mk.inj heq).1]
    exact hleft.1 other hother
  · intro event hevent
    have hinit := congrArg List.dropLast h
    rw [← List.map_dropLast, ← List.map_dropLast] at hinit
    obtain ⟨other, hother, heq⟩ := hsame hinit event hevent
    rw [← (Prod.mk.inj (Prod.mk.inj heq).2).2]
    exact hleft.2 other hother

private theorem landed_signs (text : Text) (h : left.map signs = right.map signs) :
    (landed text left).map signs = (landed text right).map signs := by
  unfold landed
  split
  · exact h
  · rw [List.map_tail, List.map_tail, h]

section

variable {env : WriterEnv} {log : EventLog} {disk : Disk} {batch : TransactionBatch}
  {write : PendingWrite}

private theorem checkBatchEvents_fresh (h : checkBatchEvents env log base events = .ok ()) :
    ∀ event ∈ events, event.eventId.val ∉ log.eventIdSet := by
  induction events generalizing base with
  | nil => simp
  | cons first rest ih =>
    rw [checkBatchEvents] at h
    split at h
    · cases h
    obtain ⟨_, hid, h⟩ := bind_ok.mp h
    obtain ⟨_, -, h⟩ := bind_ok.mp h
    obtain ⟨_, -, h⟩ := bind_ok.mp h
    intro event hevent
    rcases List.mem_cons.mp hevent with rfl | hevent
    · unfold validateUniqueness at hid
      split at hid
      · contradiction
      · assumption
    · exact ih h event hevent

theorem prepareBatch_fresh (h : prepareBatch env log disk batch = .ok write) :
    ∀ event ∈ batch.events, event.eventId.val ∉ log.eventIdSet := by
  obtain ⟨base, -, h⟩ := bind_ok.mp h
  obtain ⟨_, hcheck, -⟩ := bind_ok.mp h
  exact checkBatchEvents_fresh hcheck

theorem prepareBatch_batchId (h : prepareBatch env log disk batch = .ok write) :
    ∀ record ∈ write.records, record.batchId ≠ none := by
  have hbatches := map_reseqFrom env EventRecord.batch (reseq_batch env) write.base batch.events
  rw [← (prepareBatch_spec env h).2] at hbatches
  intro record hrecord
  have hmem := List.mem_map_of_mem (f := EventRecord.batch) hrecord
  rw [hbatches] at hmem
  obtain ⟨event, hevent, heq⟩ := List.mem_map.mp hmem
  obtain ⟨position, hslot⟩ := batch.slots event hevent
  rw [EventRecord.batchId, ← heq, hslot]
  simp

private theorem unsettled_of_reached (h : NeverSettles records) (hfront : front <+: records)
    (hreplays : ∀ record ∈ front, record.failsReplay = false) :
    ∀ record ∈ front, record.isKnown = true → record.isSentinel = false := by
  obtain ⟨back, rfl⟩ := hfront
  intro record hrecord
  apply h
  unfold reached
  rw [List.takeWhile_append_of_pos (by simpa using hreplays)]
  exact List.mem_append_left _ hrecord

private theorem take_prefix_dropLast {α : Type} {xs : List α} (h : count < xs.length) :
    xs.take count <+: xs.dropLast := by
  rw [List.dropLast_eq_take]
  exact List.take_prefix_take_left (by omega)

private theorem visible_of_settles (h : prepareBatch env log disk batch = .ok write)
    (hunused : ∀ lines, iterRawEventLines disk = .ok lines → ∀ old ∈ parsedRecords lines,
      ∀ record ∈ write.records, old.eventId.val ≠ record.eventId.val)
    (hsettles : ∀ text committed, write.target.listed = true →
      decodeText ((disk.read write.target).getD []) = some text →
      iterCommittedRecords (cutAt disk write.target text) = .ok committed →
      NeverSettles (landed text write.records) ∨
        (isBlank text = true ∧ SettlesLast write.records)) (count : Nat)
    (committed : List EventRecord)
    (hscan : iterCommittedRecords
      (disk.append write.target (recordLines (write.records.take count))) = .ok committed) :
    (∀ record ∈ write.records, record ∈ committed) ∨
      ∀ record ∈ write.records, record ∉ committed := by
  have hprepared := (prepareBatch_spec env h).1
  have hbatch := prepareBatch_batchId h
  have hold : (∃ lines, iterRawEventLines disk = .ok lines ∧
      ∀ record ∈ committed, record ∈ parsedRecords lines) →
      ∀ record ∈ write.records, record ∉ committed := by
    rintro ⟨lines, hlines, hsubset⟩ record hrecord hmem
    exact hunused lines hlines record (hsubset record hmem) record hrecord rfl
  cases hlisted : write.target.listed with
  | false =>
    right
    have hsame : iterCommittedRecords
        (disk.append write.target (recordLines (write.records.take count))) =
        iterCommittedRecords disk := by
      unfold iterCommittedRecords iterRawEventLines Disk.append
      rw [orderedSegments_write_unlisted hlisted]
    rw [hsame] at hscan
    exact hold (scan_subset hscan)
  | true =>
    by_cases hnil : write.records.take count = []
    · right
      rw [hnil, hprepared.scan_nothing hlisted] at hscan
      exact hold (scan_subset hscan)
    cases htext : decodeText ((disk.read write.target).getD []) with
    | none =>
      obtain ⟨error, herror⟩ := hprepared.scan_undecodable hlisted htext (write.records.take count)
      rw [herror] at hscan
      contradiction
    | some text =>
      obtain ⟨earlier, hcut, hwrites, hdisk⟩ := hprepared.scans hlisted htext
      rw [hwrites _ hnil] at hscan
      obtain ⟨front, hearlier, hscan⟩ := bind_ok.mp hscan
      obtain ⟨⟨out, final⟩, hvisit, rfl⟩ := map_ok.mp hscan
      obtain ⟨lines, hlines, hsubset⟩ := hdisk front hearlier
      simp only [hearlier, Except.bind] at hcut
      obtain ⟨first, middle, rest, hfirst, hrest, rfl⟩ := visitAll_ok_append hvisit
      rw [hfirst] at hcut
      have hfronted := landed_prefix text (List.take_prefix count write.records)
      have hslots : ∀ record ∈ landed text (write.records.take count), record.batchId ≠ none := by
        intro record hrecord
        apply hbatch record
        exact List.mem_of_mem_take (landed_subset text _ hrecord)
      -- nothing of what landed is visible, so the scan is the one before the write
      have hnone : rest = [] → ∀ record ∈ write.records, record ∉ first ++ rest := by
        intro hrestnil
        apply hold
        refine ⟨lines, hlines, fun record hrecord => hsubset record ?_⟩
        rw [hrestnil, List.append_nil] at hrecord
        exact visitAll_yields hfirst (by simp [Buffer.waiting])
          (fun r hr _ => hr) record hrecord
      rcases hsettles text first hlisted htext hcut with hnever | ⟨hblank, hknown, hlast⟩
      · right
        apply hnone
        apply visitAll_unsettled hrest hslots
        exact unsettled_of_reached hnever hfronted (visitAll_replays hrest)
      · have hwhole : ∀ records, landed text records = records := by
          intro records
          rw [landed, if_pos hblank]
        rw [hwhole] at hrest hslots
        by_cases hcount : count < write.records.length
        · right
          apply hnone
          apply visitAll_unsettled hrest hslots
          intro record hrecord _
          exact hlast record ((take_prefix_dropLast hcount).subset hrecord)
        · left
          rw [List.take_of_length_le (by omega)] at hrest
          intro record hrecord
          apply List.mem_append_right
          exact (writeUnit_batch h).yielded hknown List.infix_rfl hrest record hrecord

private theorem first_sentinel (h : ¬NeverSettles records) :
    ∃ early sentinel late, reached records = early ++ sentinel :: late ∧
      sentinel.isKnown = true ∧ sentinel.isSentinel = true ∧
      ∀ record ∈ early, record.isKnown = true → record.isSentinel = false := by
  unfold NeverSettles at h
  push Not at h
  obtain ⟨record, hrecord, hknown, hsentinel⟩ := h
  have hfound : ((reached records).find? (fun r => r.isKnown && r.isSentinel)).isSome = true := by
    rw [List.find?_isSome]
    exact ⟨record, hrecord, by simpa [hknown] using hsentinel⟩
  obtain ⟨sentinel, hsome⟩ := isSome_iff_exists.mp hfound
  obtain ⟨hsigns, early, late, hsplit, hearly⟩ := List.find?_eq_some_iff_append.mp hsome
  rw [Bool.and_eq_true] at hsigns
  refine ⟨early, sentinel, late, hsplit, hsigns.1, hsigns.2, ?_⟩
  intro other hother hknown
  simpa [hknown] using hearly other hother

private theorem landed_take (h : front <+: landed text records) (hne : front ≠ []) :
    ∃ count, landed text (records.take count) = front ∧ records.take count ≠ [] := by
  unfold landed at h ⊢
  split at h
  next hblank =>
    refine ⟨front.length, ?_, ?_⟩
    · rw [if_pos hblank]
      exact (List.prefix_iff_eq_take.mp h).symm
    · rw [← List.prefix_iff_eq_take.mp h]
      exact hne
  next hblank =>
    cases records with
    | nil => exact absurd (List.prefix_nil.mp h) hne
    | cons first rest =>
      refine ⟨front.length + 1, ?_, by simp⟩
      rw [if_neg hblank, List.take_succ_cons, List.tail_cons]
      exact (List.prefix_iff_eq_take.mp h).symm

private theorem settles_of_visible (h : prepareBatch env log disk batch = .ok write)
    (hatomic : AllOrNothing disk write) (hlisted : write.target.listed = true)
    (htext : decodeText ((disk.read write.target).getD []) = some text)
    (hscan : iterCommittedRecords (cutAt disk write.target text) = .ok committed) :
    NeverSettles (landed text write.records) ∨
      (isBlank text = true ∧ SettlesLast write.records) := by
  have hprepared := (prepareBatch_spec env h).1
  by_cases hnever : NeverSettles (landed text write.records)
  · exact .inl hnever
  right
  -- the first sentinel a scan gets to, and the crash right after it
  obtain ⟨early, sentinel, late, hreached, hknown, hsentinel, hfirst⟩ := first_sentinel hnever
  have hfronted : early ++ [sentinel] <+: landed text write.records := by
    have hall : reached (landed text write.records) <+: landed text write.records :=
      List.takeWhile_prefix _
    rw [hreached] at hall
    exact List.IsPrefix.trans ⟨late, by simp⟩ hall
  obtain ⟨count, hcount, hne⟩ := landed_take hfronted (by simp)
  obtain ⟨earlier, hcut, hwrites, hdisk⟩ := hprepared.scans hlisted htext
  rw [hcut] at hscan
  obtain ⟨front, hearlier, hscan⟩ := bind_ok.mp hscan
  obtain ⟨lines, hlines, hsubset⟩ := hdisk front hearlier
  obtain ⟨_, hfront, -⟩ := map_ok.mp hscan
  have hreplays : ∀ record ∈ front ++ (early ++ [sentinel]), record.failsReplay = false := by
    intro record hrecord
    rcases List.mem_append.mp hrecord with hmem | hmem
    · exact visitAll_replays hfront record hmem
    · have hmem' : record ∈ reached (landed text write.records) := by
        rw [hreached]
        simp only [List.mem_append, List.mem_cons] at hmem ⊢
        tauto
      simpa using List.mem_takeWhile_imp hmem'
  obtain ⟨out, final, hvisit⟩ := visitAll_ok [] hreplays
  have hcrash := hwrites _ hne
  rw [hearlier, hcount] at hcrash
  simp only [Except.bind, hvisit] at hcrash
  have hshown : sentinel ∈ out := visitAll_sentinel hvisit (by simp) hknown hsentinel
  have hwritten : sentinel ∈ write.records :=
    landed_subset text _ (hfronted.subset (by simp))
  have hall : ∀ record ∈ write.records, record ∈ out := by
    rcases hatomic.visible count out hcrash with hall | hnone
    · exact hall
    · exact absurd hshown (hnone sentinel hwritten)
  have hgiven : ∀ record ∈ write.records,
      record.isKnown = true ∧ record ∈ early ++ [sentinel] := by
    intro record hrecord
    have hread := visitAll_yields (P := fun r => r.isKnown = true ∧ r ∈ front ++ (early ++ [sentinel]))
      hvisit (by simp [Buffer.waiting]) (fun r hr hk => ⟨hk, hr⟩) record (hall record hrecord)
    refine ⟨hread.1, ?_⟩
    rcases List.mem_append.mp hread.2 with hmem | hmem
    · exact absurd rfl (hatomic.unused lines hlines record (hsubset record hmem) record hrecord)
    · exact hmem
  have hnodup : write.records.Nodup := List.Nodup.of_map _ hatomic.distinct
  have hblank : isBlank text = true := by
    by_contra hblank
    rw [landed, if_neg hblank] at hfronted
    cases hrecords : write.records with
    | nil =>
      rw [hrecords] at hwritten
      simp at hwritten
    | cons lost rest =>
      rw [hrecords] at hfronted hnodup hgiven
      have hagain := hfronted.subset (hgiven lost List.mem_cons_self).2
      exact (List.nodup_cons.mp hnodup).1 hagain
  rw [landed, if_pos hblank] at hfronted
  obtain ⟨rest, hrest⟩ := hfronted
  have hwhole : rest = [] := by
    rw [← hrest] at hnodup hgiven
    by_contra hne
    obtain ⟨extra, more, rfl⟩ := List.exists_cons_of_ne_nil hne
    have hagain := (hgiven extra (by simp)).2
    exact (List.nodup_append.mp hnodup).2.2 extra hagain extra List.mem_cons_self rfl
  rw [hwhole, List.append_nil] at hrest
  refine ⟨hblank, fun record hrecord => (hgiven record hrecord).1, ?_⟩
  rw [← hrest, List.dropLast_concat]
  intro record hrecord
  apply hfirst record hrecord
  exact (hgiven record (by rw [← hrest]; exact List.mem_append_left _ hrecord)).1

/-- A batch that `append_transaction_batch` accepts is atomic exactly when it settles once. -/
theorem batch_atomic_iff (h : prepareBatch env log disk batch = .ok write) :
    AllOrNothing disk write ↔ SettlesOnce log disk batch := by
  obtain ⟨hprepared, hrecords⟩ := prepareBatch_spec env h
  have hsigns : write.records.map signs = batch.events.map signs := by
    rw [hrecords]
    exact signs_reseqFrom env write.base batch.events
  have hids : write.records.map (·.eventId.val) = batch.events.map (·.eventId.val) := by
    rw [hrecords]
    apply map_reseqFrom
    intro record newSeq
    rw [reseq_eventId]
  have hlength : write.records.length = batch.events.length := by
    rw [hrecords, length_reseqFrom]
  have htarget := hprepared.target
  rw [hlength] at htarget
  constructor
  · intro hatomic
    refine ⟨?_, ?_, ?_⟩
    · rw [← hids]
      exact hatomic.distinct
    · intro lines hlines old hold event hevent heq
      have hmem := List.mem_map_of_mem (f := fun e : EventRecord => e.eventId.val) hevent
      rw [← hids] at hmem
      obtain ⟨record, hrecord, hid⟩ := List.mem_map.mp hmem
      exact absurd (heq.trans hid.symm) (hatomic.unused lines hlines old hold record hrecord)
    · intro target text committed hto hlisted htext hscan
      rw [htarget] at hto
      cases hto
      rcases settles_of_visible h hatomic hlisted htext hscan with hnever | ⟨hblank, hlast⟩
      · exact Or.inl (neverSettles_of_signs (landed_signs text hsigns) hnever)
      · exact Or.inr ⟨hblank, settlesLast_of_signs hsigns hlast⟩
  · intro hsettles
    have hunused : ∀ lines, iterRawEventLines disk = .ok lines → ∀ old ∈ parsedRecords lines,
        ∀ record ∈ write.records, old.eventId.val ≠ record.eventId.val := by
      intro lines hlines old hold record hrecord heq
      have hmem := List.mem_map_of_mem (f := fun e : EventRecord => e.eventId.val) hrecord
      rw [hids] at hmem
      obtain ⟨event, hevent, hid⟩ := List.mem_map.mp hmem
      have hknown := hsettles.known lines hlines old hold event hevent (heq.trans hid.symm)
      rw [heq, ← hid] at hknown
      exact prepareBatch_fresh h event hevent hknown
    refine ⟨?_, ?_, hunused⟩
    · apply visible_of_settles h hunused
      intro text committed hlisted htext hscan
      rcases hsettles.settles _ text committed htarget hlisted htext hscan with
        hnever | ⟨hblank, hlast⟩
      · exact Or.inl (neverSettles_of_signs (landed_signs text hsigns.symm) hnever)
      · exact Or.inr ⟨hblank, settlesLast_of_signs hsigns.symm hlast⟩
    · rw [hids]
      exact hsettles.distinct

end

/-! ### Two batches on an empty log -/

def sampleEvent (eventType : EventType) (eventId : EventId) (sequenceNumber : Nat) : EventRecord :=
  { sampleRecord with
    eventType, eventId, sequenceNumber
    batch := some { transactionId := "tx-1", batchId := "batch-1", batchPosition := sequenceNumber } }

def touchedThenAccepted : List EventRecord :=
  [sampleEvent .nodeTouched sampleId 0, sampleEvent .commitAccepted secondId 1]

def sampleBatch : TransactionBatch where
  batchId := sampleBatchId
  transactionId := ⟨"tx-1", by decide⟩
  status := .committed
  events := touchedThenAccepted
  noEnvelope := by simp [touchedThenAccepted, sampleEvent]
  increasing := by simp [touchedThenAccepted, sampleEvent]
  slots := by simp [touchedThenAccepted, sampleEvent, sampleBatchId]
  sentinelLast := rfl

def acceptedTwice : List EventRecord :=
  [sampleEvent .commitAccepted sampleId 0, sampleEvent .commitAccepted secondId 1]

def twiceSentinelled : TransactionBatch :=
  { sampleBatch with
    events := acceptedTwice
    noEnvelope := by simp [acceptedTwice, sampleEvent]
    increasing := by simp [acceptedTwice, sampleEvent]
    slots := by simp [acceptedTwice, sampleEvent, sampleBatch, sampleBatchId]
    sentinelLast := rfl }

def sampleBatchWrite : PendingWrite :=
  { base := 0, target := .base, records := touchedThenAccepted }

/-- A batch with its sentinel at the end is atomic. -/
theorem sampleBatch_atomic : AllOrNothing Disk.empty sampleBatchWrite := by
  have hcheck : checkBatchEvents sampleEnv {} 0 touchedThenAccepted = .ok () := rfl
  have hprepare : prepareBatch sampleEnv {} Disk.empty sampleBatch = .ok sampleBatchWrite := rfl
  have hempty : iterRawEventLines Disk.empty = .ok [] := rfl
  apply (batch_atomic_iff hprepare).mpr
  refine ⟨by decide, ?_, ?_⟩
  · intro lines hlines old hold
    rw [hempty] at hlines
    rw [← Except.ok.inj hlines] at hold
    simp [parsedRecords] at hold
  · intro target text committed htarget _ htext _
    have hbase : target = .base := by
      have hprepared := (prepareBatch_spec sampleEnv hprepare).1.target
      exact Except.ok.inj (htarget.symm.trans hprepared)
    subst hbase
    obtain rfl : [] = text := Option.some.inj htext
    refine Or.inr ⟨by decide, ?_, ?_⟩
    · decide
    · decide

private theorem scan_written (records : List EventRecord) :
    iterCommittedRecords (Disk.empty.append .base (recordLines records)) =
      (visitAll [] records).map Prod.fst := by
  have hlines : iterRawEventLines (Disk.empty.append .base (recordLines records)) =
      .ok (records.map EventRecord.dumpJson) := by
    show readSegments [recordLines records] = _
    rw [readSegments, readLines_recordLines]
    simp [readSegments, Except.map]
  unfold iterCommittedRecords
  rw [hlines]
  show iterCommittedRecordsFromLines _ = _
  rw [iterCommittedRecordsFromLines, parsedRecords_dump]

private theorem visitAll_accepted (eventId : EventId) (sequenceNumber : Nat) :
    visitAll [] [sampleEvent .commitAccepted eventId sequenceNumber] =
      .ok ([sampleEvent .commitAccepted eventId sequenceNumber], []) := by
  rfl

/-- The crash after the first of two sentinels shows half of the batch. -/
theorem interior_sentinel_splits_batch : ∃ write,
    prepareBatch sampleEnv {} Disk.empty twiceSentinelled = .ok write ∧
      ¬AllOrNothing Disk.empty write := by
  have hcheck : checkBatchEvents sampleEnv {} 0 acceptedTwice = .ok () := rfl
  have hprepare : prepareBatch sampleEnv {} Disk.empty twiceSentinelled =
      .ok { base := 0, target := .base, records := acceptedTwice } := rfl
  refine ⟨_, hprepare, fun hatomic => ?_⟩
  have hscan : iterCommittedRecords (Disk.empty.append .base
      (recordLines [sampleEvent .commitAccepted sampleId 0])) =
      .ok [sampleEvent .commitAccepted sampleId 0] := by
    rw [scan_written, visitAll_accepted]
    rfl
  rcases hatomic.visible 1 _ hscan with hall | hnone
  · have hsecond := hall (sampleEvent .commitAccepted secondId 1) (by simp [acceptedTwice])
    have hid := congrArg (fun e : EventRecord => e.sequenceNumber) (List.mem_singleton.mp hsecond)
    exact absurd hid (by decide)
  · exact hnone (sampleEvent .commitAccepted sampleId 0) (by simp [acceptedTwice])
      (by simp)

end Flowness.Ledger
