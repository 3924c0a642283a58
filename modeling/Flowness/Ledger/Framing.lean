import Flowness.Ledger.Producible

/-!
A segment as the record writers leave it: whole record lines and possibly the start of one more.
Every reader finds the same records in it, and `recover` keeps them up to the last settling one.
-/

namespace Flowness.Ledger

open Option Library Schemas EventRecord

def segmentRecords (content : Bytes) : List EventRecord :=
  (splitNewlines content).filterMap recordOfPiece

/-- Nothing, or the start of a record line that is still text. -/
def TornTail (tail : Bytes) : Prop :=
  tail = [] ∨
    (∃ record, tail <+: encodeText (EventRecord.dumpJson record)) ∧ ∃ text, decodeText tail = some text

structure Framed (content : Bytes) : Prop where
  split : ∃ records tail, content = recordLines records ++ tail ∧ TornTail tail

def EndsLine (content : Bytes) : Prop := content = [] ∨ content.getLast? = some newline

theorem recordLines_append (left right : List EventRecord) :
    recordLines (left ++ right) = recordLines left ++ recordLines right := by
  unfold recordLines
  rw [List.map_append, frameLines_append]

theorem newline_not_mem_recordPiece (record : EventRecord) : newline ∉ recordPiece record :=
  newline_not_mem_writtenLine (.inl ⟨record, rfl⟩)

theorem recordOfPiece_recordPiece (record : EventRecord) :
    recordOfPiece (recordPiece record) = some record := by
  rw [recordOfPiece, recordPiece, decodeText_encodeText, bind_some,
    validateJson_dumpJson]

theorem sequenceOfLine_dumpJson (record : EventRecord) :
    sequenceOfLine record.dumpJson = some (record.sequenceNumber : Int) := by
  rw [sequenceOfLine, parse_dumpJson]
  rfl

theorem filterMap_recordPiece (records : List EventRecord) :
    (records.map recordPiece).filterMap recordOfPiece = records := by
  induction records with
  | nil => rfl
  | cons record records ih =>
    rw [List.map_cons, List.filterMap_cons, recordOfPiece_recordPiece, ih]

theorem tornTail_cases (h : TornTail tail) : tail = [] ∨ (∃ record, tail = recordPiece record) ∨
      (parses tail = false ∧ newline ∉ tail ∧
        ∃ lines, readLines tail = some lines ∧ ∀ line ∈ lines, Json.parse line = none) := by
  rcases h with hnil | ⟨⟨record, hpre⟩, text, htext⟩
  · exact .inl hnil
  by_cases hnil : tail = []
  · exact .inl hnil
  by_cases hwhole : tail = recordPiece record
  · exact .inr (.inl ⟨record, hwhole⟩)
  right
  right
  have hshort : text <+: record.dumpJson := prefix_of_decodeText_prefix hpre htext
  have hne : text ≠ record.dumpJson := by
    rintro rfl
    exact hwhole (encodeText_of_decodeText htext).symm
  have hrecord : recordOfPiece tail = none := by
    rw [recordOfPiece, htext]
    exact validateJson_of_parse_none (parse_prefix_dumpJson hshort hne)
  refine ⟨by simp [parses, hnil, hrecord], ?_, nonBlankLines text, ?_, parse_lines_of_torn hshort hne⟩
  · exact fun hmem => newline_not_mem_recordPiece record (hpre.subset hmem)
  · rw [readLines, htext]
    rfl

/-- What the text readers and the walk of `recover` see of a segment. -/
structure Legible (content : Bytes) (lines : List Text) (rest : List Bytes) : Prop where
  read : readLines content = some lines
  parsed : parsedRecords lines = segmentRecords content
  sequences : lines.filterMap sequenceOfLine =
    (segmentRecords content).map (fun record => (record.sequenceNumber : Int))
  pieces : splitNewlines content = (segmentRecords content).map recordPiece ++ rest
  restKept : keptPieces rest = []

theorem splitNewlines_recordLines_append (records : List EventRecord) (rest : Bytes) :
    splitNewlines (recordLines records ++ rest) = records.map recordPiece ++ splitNewlines rest := by
  rw [recordLines_eq_terminated]
  apply splitNewlines_terminated_append
  intro piece hpiece
  obtain ⟨record, -, rfl⟩ := List.mem_map.mp hpiece
  exact newline_not_mem_recordPiece record

theorem segmentRecords_recordLines_append (records : List EventRecord) (rest : Bytes) :
    segmentRecords (recordLines records ++ rest) = records ++ segmentRecords rest := by
  unfold segmentRecords
  rw [splitNewlines_recordLines_append, List.filterMap_append, filterMap_recordPiece]

theorem segmentRecords_recordPiece (record : EventRecord) :
    segmentRecords (recordPiece record) = [record] := by
  unfold segmentRecords
  rw [splitNewlines_unbroken (newline_not_mem_recordPiece record), List.filterMap_cons,
    recordOfPiece_recordPiece]
  rfl

private theorem segmentRecords_of_not_parses (hparses : parses piece = false)
    (hnewline : newline ∉ piece) : segmentRecords piece = [] := by
  have hpiece : recordOfPiece piece = none := by
    simpa using (Bool.or_eq_false_iff.mp hparses).2
  unfold segmentRecords
  rw [splitNewlines_unbroken hnewline, List.filterMap_cons, hpiece]
  rfl

@[simp] theorem segmentRecords_nil : segmentRecords [] = [] := by decide +kernel

private theorem sequences_dumpJson (records : List EventRecord) :
    (records.map EventRecord.dumpJson).filterMap sequenceOfLine =
      records.map (fun record => (record.sequenceNumber : Int)) := by
  induction records with
  | nil => rfl
  | cons record records ih =>
    rw [List.map_cons, List.filterMap_cons, sequenceOfLine_dumpJson, ih, List.map_cons]

private theorem legible_tornTail (h : TornTail tail) : ∃ lines rest, Legible tail lines rest := by
  rcases tornTail_cases h with rfl | ⟨record, rfl⟩ | ⟨hparses, hnewline, lines, hread, hparse⟩
  · refine ⟨[], [[]], readLines_nil, ?_, ?_, ?_, ?_⟩
    · rw [segmentRecords_nil]
      rfl
    · rw [segmentRecords_nil]
      rfl
    · rw [segmentRecords_nil]
      rfl
    · decide +kernel
  · refine ⟨[record.dumpJson], [], ?_, ?_, ?_, ?_, rfl⟩
    · rw [recordPiece, readLines, decodeText_encodeText, map_some,
        nonBlankLines_tidy (tidy_dumpJson record)]
    · rw [segmentRecords_recordPiece, parsedRecords_singleton, validateJson_dumpJson]
      rfl
    · rw [segmentRecords_recordPiece]
      exact sequences_dumpJson [record]
    · rw [segmentRecords_recordPiece,
        splitNewlines_unbroken (newline_not_mem_recordPiece record)]
      rfl
  · have hpieces := splitNewlines_unbroken hnewline
    have hrecords := segmentRecords_of_not_parses hparses hnewline
    refine ⟨lines, [tail], hread, ?_, ?_, ?_, ?_⟩
    · rw [hrecords]
      apply List.filterMap_eq_nil_iff.mpr
      exact fun line hline => validateJson_of_parse_none (hparse line hline)
    · rw [hrecords]
      apply List.filterMap_eq_nil_iff.mpr
      intro line hline
      rw [sequenceOfLine, hparse line hline, bind_none]
    · rw [hrecords, hpieces]
      rfl
    · rw [keptPieces, hparses]
      rfl

theorem Framed.legible (h : Framed content) : ∃ lines rest, Legible content lines rest := by
  obtain ⟨records, tail, rfl, htail⟩ := h.split
  obtain ⟨lines, rest, hlegible⟩ := legible_tornTail htail
  have hrecords := segmentRecords_recordLines_append records tail
  refine ⟨records.map EventRecord.dumpJson ++ lines, rest, ?_, ?_, ?_, ?_, hlegible.restKept⟩
  · have htidy : ∀ line ∈ records.map EventRecord.dumpJson, Tidy line := by
      intro line hline
      obtain ⟨record, -, rfl⟩ := List.mem_map.mp hline
      exact tidy_dumpJson record
    have hread := readLines_frameLines_append htidy tail
    rw [hlegible.read] at hread
    exact hread
  · rw [parsedRecords_append, parsedRecords_dump, hlegible.parsed, hrecords]
  · rw [List.filterMap_append, sequences_dumpJson, hlegible.sequences, hrecords, List.map_append]
  · rw [splitNewlines_recordLines_append, hlegible.pieces, hrecords, List.map_append,
      List.append_assoc]

private theorem newline_not_mem_tornTail (h : TornTail tail) : newline ∉ tail := by
  rcases h with rfl | ⟨⟨record, hpre⟩, -⟩
  · simp
  · exact fun hmem => newline_not_mem_recordPiece record (hpre.subset hmem)

theorem Framed.whole (h : Framed content) (hends : EndsLine content) :
    content = recordLines (segmentRecords content) := by
  obtain ⟨records, tail, rfl, htail⟩ := h.split
  have hnil : tail = [] := by
    rcases List.eq_nil_or_concat tail with hnil | ⟨front, b, hb⟩
    · exact hnil
    · exfalso
      rw [List.concat_eq_append] at hb
      have hnewline := newline_not_mem_tornTail htail
      rw [hb] at hends hnewline
      rcases hends with hempty | hlast
      · simp at hempty
      · rw [← List.append_assoc, List.getLast?_concat] at hlast
        apply hnewline
        rw [some.inj hlast]
        simp
  rw [hnil, segmentRecords_recordLines_append, segmentRecords_nil, List.append_nil, List.append_nil]

section

variable (records : List EventRecord)

theorem framed_recordLines : Framed (recordLines records) :=
  ⟨records, [], by simp, .inl rfl⟩

@[simp] theorem segmentRecords_recordLines : segmentRecords (recordLines records) = records := by
  have hrecords := segmentRecords_recordLines_append records []
  rw [List.append_nil, segmentRecords_nil, List.append_nil] at hrecords
  exact hrecords

theorem endsLine_recordLines : EndsLine (recordLines records) := by
  rw [recordLines_eq_terminated]
  exact terminated_eq_nil_or_getLast _

theorem recordLines_eq_encodeText : ∃ text, recordLines records = encodeText text := by
  induction records with
  | nil => exact ⟨[], rfl⟩
  | cons record records ih =>
    obtain ⟨text, htext⟩ := ih
    refine ⟨record.dumpJson ++ '\n' :: text, ?_⟩
    rw [recordLines_cons, htext, encodeText_append]
    rfl

end

private theorem recordPiece_prefix_eq (h : recordPiece left <+: recordPiece right) :
    left = right := by
  have htext := prefix_of_decodeText_prefix h (decodeText_encodeText left.dumpJson)
  by_contra hne
  have hparse := parse_prefix_dumpJson htext
    (fun heq => hne (dumpJson_injective heq))
  simp at hparse

theorem framed_prefix {records : List EventRecord} (hpre : bytes <+: recordLines records)
    (htext : ∃ text, decodeText bytes = some text) :
    Framed bytes ∧ segmentRecords bytes <+: records := by
  obtain ⟨landed, rest, tail, rfl, rfl, hcut⟩ := prefix_recordLines hpre
  have hdecode : ∃ text, decodeText tail = some text := by
    obtain ⟨text, htext⟩ := htext
    obtain ⟨front, hfront⟩ := recordLines_eq_encodeText landed
    rw [hfront, decodeText_encodeText_append] at htext
    obtain ⟨later, hlater, -⟩ := map_eq_some_iff.mp htext
    exact ⟨later, hlater⟩
  rw [segmentRecords_recordLines_append]
  rcases hcut with rfl | ⟨record, more, rfl, hshort⟩
  · rw [segmentRecords_nil, List.append_nil, List.append_nil]
    exact ⟨framed_recordLines landed, List.prefix_append _ _⟩
  · have htail : TornTail tail := .inr ⟨⟨record, hshort⟩, hdecode⟩
    refine ⟨⟨landed, tail, rfl, htail⟩, (List.prefix_append_right_inj landed).mpr ?_⟩
    rcases tornTail_cases htail with rfl | ⟨other, rfl⟩ | ⟨hparses, hnewline, -⟩
    · rw [segmentRecords_nil]
      exact List.nil_prefix
    · rw [segmentRecords_recordPiece, recordPiece_prefix_eq hshort]
      exact List.prefix_append [record] more
    · rw [segmentRecords_of_not_parses hparses hnewline]
      exact List.nil_prefix

theorem Framed.append (h : Framed content) (hends : EndsLine content) (hbytes : Framed bytes) :
    Framed (content ++ bytes) ∧
      segmentRecords (content ++ bytes) = segmentRecords content ++ segmentRecords bytes := by
  rw [h.whole hends]
  obtain ⟨records, tail, rfl, htail⟩ := hbytes.split
  refine ⟨⟨segmentRecords content ++ records, tail, ?_, htail⟩, ?_⟩
  · rw [recordLines_append, List.append_assoc]
  · rw [segmentRecords_recordLines_append, segmentRecords_recordLines]

def settledPrefix : List EventRecord → List EventRecord
  | [] => []
  | record :: records =>
    match settledPrefix records with
    | [] => if settles record then [record] else []
    | kept :: more => record :: kept :: more

theorem settledPrefix_spec (records : List EventRecord) :
    ∃ pending, records = settledPrefix records ++ pending ∧
      ∀ record ∈ pending, settles record = false := by
  induction records with
  | nil => exact ⟨[], rfl, by simp⟩
  | cons record records ih =>
    obtain ⟨pending, hsplit, hpending⟩ := ih
    unfold settledPrefix
    cases hkept : settledPrefix records with
    | cons kept more =>
      rw [hkept] at hsplit
      exact ⟨pending, congrArg (record :: ·) hsplit, hpending⟩
    | nil =>
      rw [hkept, List.nil_append] at hsplit
      cases hsettles : settles record with
      | true => exact ⟨pending, congrArg (record :: ·) hsplit, hpending⟩
      | false =>
        refine ⟨record :: records, by simp, ?_⟩
        intro r hr
        rcases List.mem_cons.mp hr with rfl | hr
        · exact hsettles
        · exact hpending r (hsplit ▸ hr)

theorem settledPrefix_eq_self {records : List EventRecord} (hlast : records.getLast? = some last)
    (hsettles : settles last = true) : settledPrefix records = records := by
  obtain ⟨pending, hsplit, hpending⟩ := settledPrefix_spec records
  cases pending with
  | nil =>
    rw [List.append_nil] at hsplit
    exact hsplit.symm
  | cons record more =>
    rw [hsplit, List.getLast?_append_of_ne_nil _ (List.cons_ne_nil _ _)] at hlast
    rw [hpending last (List.mem_of_getLast? hlast)] at hsettles
    contradiction

theorem infix_settledPrefix {records unit : List EventRecord} (h : unit <:+: records)
    (hlast : unit.getLast? = some last) (hsettles : settles last = true) :
    unit <:+: settledPrefix records := by
  obtain ⟨pending, hsplit, hpending⟩ := settledPrefix_spec records
  obtain ⟨front, back, hrecords⟩ := h
  rw [hsplit] at hrecords
  rcases List.append_eq_append_iff.mp hrecords with ⟨more, hkept, -⟩ | ⟨more, hunit, hpend⟩
  · exact ⟨front, more, hkept.symm⟩
  · cases more with
    | nil => exact ⟨front, [], by simpa using hunit⟩
    | cons record more =>
      exfalso
      have hmem : last ∈ record :: more := by
        have hends : (front ++ unit).getLast? = some last := by
          rw [List.getLast?_append, hlast]
          rfl
        rw [hunit, List.getLast?_append_of_ne_nil _ (List.cons_ne_nil _ _)] at hends
        exact List.mem_of_getLast? hends
      have hfalse := hpending last (by rw [hpend]; exact List.mem_append_left _ hmem)
      rw [hsettles] at hfalse
      contradiction

private theorem parses_recordPiece (record : EventRecord) :
    parses (recordPiece record) = true := by
  unfold parses
  rw [recordOfPiece_recordPiece]
  simp

private theorem pieceSettles_recordPiece (record : EventRecord) :
    pieceSettles (recordPiece record) = settles record := by
  unfold pieceSettles
  rw [recordOfPiece_recordPiece, any_some]

private theorem keptPieces_records (records : List EventRecord) (h : keptPieces rest = []) :
    keptPieces (records.map recordPiece ++ rest) = (settledPrefix records).map recordPiece := by
  induction records with
  | nil => exact h
  | cons record records ih =>
    rw [List.map_cons, List.cons_append, keptPieces, parses_recordPiece, ih,
      pieceSettles_recordPiece, settledPrefix]
    cases settledPrefix records with
    | nil => cases settles record <;> rfl
    | cons kept more => rfl

theorem Framed.safeEndOf_eq (h : Framed content) :
    safeEndOf content = (recordLines (settledPrefix (segmentRecords content))).length := by
  obtain ⟨lines, rest, hlegible⟩ := h.legible
  rw [Ledger.safeEndOf_eq, hlegible.pieces, keptPieces_records _ hlegible.restKept,
    recordLines_eq_terminated]

theorem framed_recover (h : Framed content) : Framed (content.take (safeEndOf content)) ∧
      segmentRecords (content.take (safeEndOf content)) =
        settledPrefix (segmentRecords content) := by
  obtain ⟨lines, rest, hlegible⟩ := h.legible
  obtain ⟨pending, hsplit, -⟩ := settledPrefix_spec (segmentRecords content)
  have hend := h.safeEndOf_eq
  by_cases hdropped : pending.map recordPiece ++ rest = []
  · -- nothing is dropped: the file ends without its last newline, or is empty
    have hnil : pending = [] := by simpa using (List.append_eq_nil_iff.mp hdropped).1
    rw [hnil, List.append_nil] at hsplit
    have hall : splitNewlines content = (segmentRecords content).map recordPiece := by
      rw [hlegible.pieces, (List.append_eq_nil_iff.mp hdropped).2, List.append_nil]
    have hlength : content.length ≤ safeEndOf content := by
      rw [hend, ← hsplit, recordLines_eq_terminated, ← hall, terminated_splitNewlines]
      simp
    rw [List.take_of_length_le hlength, ← hsplit]
    exact ⟨h, rfl⟩
  · have hpieces : splitNewlines content =
        (settledPrefix (segmentRecords content)).map recordPiece ++
          (pending.map recordPiece ++ rest) := by
      rw [← List.append_assoc, ← List.map_append, ← hsplit]
      exact hlegible.pieces
    have hcontent := eq_terminated_append hpieces hdropped
    rw [← recordLines_eq_terminated] at hcontent
    have hfront : recordLines (settledPrefix (segmentRecords content)) <+: content :=
      ⟨_, hcontent.symm⟩
    have htake : content.take (safeEndOf content) =
        recordLines (settledPrefix (segmentRecords content)) := by
      rw [hend]
      exact (List.prefix_iff_eq_take.mp hfront).symm
    rw [htake]
    exact ⟨framed_recordLines _, segmentRecords_recordLines _⟩

end Flowness.Ledger
