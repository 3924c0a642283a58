import Flowness.Ledger.Recovery

/-!
What the write paths leave in a segment: whole lines of records and of the poller, and one torn
write. Every newline-separated piece of such a file is read the same way by the text reader and
by the byte walk of `recover`.
-/

namespace Flowness.Ledger

open List Library Schemas Json EventRecord

/-- A line `append_raw_event_line` adds: a JSON object without a sequence number. -/
structure PollerLine (line : Text) : Prop where
  braces : ∃ body, line = '{' :: (body ++ ['}']) ∧ ∀ c ∈ body, 32 ≤ c.toNat
  sequenceless : ∃ entries, Json.parse line = some (.obj entries) ∧
    Dict.get entries "sequence_number" = none

def WrittenLine (line : Text) : Prop := (∃ record, line = EventRecord.dumpJson record) ∨ PollerLine line

/-- Whole lines of the write paths, with at most one torn write among them. -/
def Producible (content : Bytes) : Prop :=
  ∃ front torn back, content = frameLines front ++ torn ++ frameLines back ∧
    (∀ line ∈ front ++ back, WrittenLine line) ∧ ∃ records, torn <+: recordLines records

def recordPiece (record : EventRecord) : Bytes := encodeText record.dumpJson

theorem recordLines_eq_terminated (records : List EventRecord) :
    recordLines records = terminated (records.map recordPiece) := by
  rw [recordLines, frameLines_eq_terminated, map_map]
  rfl

theorem readLines_recordLines (records : List EventRecord) :
    readLines (recordLines records) = some (records.map EventRecord.dumpJson) := by
  apply readLines_frameLines
  intro line hline
  obtain ⟨record, -, rfl⟩ := List.mem_map.mp hline
  exact tidy_dumpJson record

theorem recordLines_cons (record : EventRecord) (records : List EventRecord) :
    recordLines (record :: records) = recordPiece record ++ newline :: recordLines records := by
  simp [recordLines, frameLine, recordPiece]

structure Braced (piece : Bytes) : Prop where
  opening : piece.head? = some 123
  closing : piece.getLast? = some 125
  control : ∀ b ∈ piece, 32 ≤ b.toNat

/-- The start of a record line, cut anywhere before its end. -/
def Torn (piece : Bytes) : Prop :=
  ∃ record, piece <+: encodeText (EventRecord.dumpJson record) ∧
    piece ≠ encodeText (EventRecord.dumpJson record)

def CleanPiece (piece : Bytes) : Prop := piece = [] ∨ Braced piece ∨ Torn piece

variable {piece : Bytes} {record : EventRecord} {line text : Text}

private theorem control_encodeText (h : ∀ c ∈ text, 32 ≤ c.toNat) :
    ∀ b ∈ encodeText text, 32 ≤ b.toNat := by
  intro b hb
  by_contra hlt
  obtain ⟨c, hc, hbyte⟩ := List.mem_flatMap.mp hb
  have hnat := (utf8EncodeChar_of_mem_ascii hbyte (by omega)).2
  have hchar := h c hc
  omega

private theorem braced_of_braces {body : Text} (hline : line = '{' :: (body ++ ['}']))
    (h : ∀ c ∈ body, 32 ≤ c.toNat) : Braced (encodeText line) := by
  subst hline
  have hopen : encodeText ['{'] = [123] := by decide
  have hclose : encodeText ['}'] = [125] := by decide
  have hbytes : encodeText ('{' :: (body ++ ['}'])) = 123 :: (encodeText body ++ [125]) := by
    rw [← singleton_append, encodeText_append, encodeText_append, hopen]
    rfl
  refine ⟨by rw [hbytes]; rfl, by rw [hbytes, ← cons_append, List.getLast?_concat], ?_⟩
  refine control_encodeText (fun c hc => ?_)
  simp only [mem_cons, mem_append, not_mem_nil, or_false] at hc
  rcases hc with rfl | hc | rfl
  · decide
  · exact h c hc
  · decide

theorem braced_dumpJson (record : EventRecord) : Braced (encodeText record.dumpJson) := by
  obtain ⟨body, hbody⟩ := render_obj_braces record.toEntries
  refine braced_of_braces hbody (fun c hc => ?_)
  refine render_printable _ (proper_toJson record) c ?_
  rw [EventRecord.toJson, hbody]
  exact mem_cons_of_mem _ (mem_append_left _ hc)

private theorem braced_writtenLine (h : WrittenLine line) : Braced (encodeText line) := by
  rcases h with ⟨record, rfl⟩ | hpoller
  · exact braced_dumpJson record
  · obtain ⟨body, hline, hbody⟩ := hpoller.braces
    exact braced_of_braces hline hbody

private theorem newline_not_mem_of_control (h : ∀ b ∈ piece, 32 ≤ b.toNat) :
    newline ∉ piece :=
  fun hmem => absurd (h _ hmem) (by decide)

private theorem control_of_clean (h : CleanPiece piece) : ∀ b ∈ piece, 32 ≤ b.toNat := by
  rcases h with rfl | hbraced | ⟨record, hpre, -⟩
  · simp
  · exact hbraced.control
  · exact fun b hb => (braced_dumpJson record).control b (hpre.subset hb)

theorem newline_not_mem_of_clean (h : CleanPiece piece) : newline ∉ piece :=
  newline_not_mem_of_control (control_of_clean h)

theorem newline_not_mem_writtenLine (h : WrittenLine line) :
    newline ∉ encodeText line :=
  newline_not_mem_of_control (braced_writtenLine h).control

theorem tidy_writtenLine (h : WrittenLine line) : Tidy line := by
  rcases h with ⟨record, rfl⟩ | hpoller
  · exact tidy_dumpJson record
  · obtain ⟨body, rfl, hbody⟩ := hpoller.braces
    exact tidy_braces hbody

theorem prefix_recordLines {records : List EventRecord} {torn : Bytes}
    (h : torn <+: recordLines records) :
    ∃ landed rest tail, records = landed ++ rest ∧ torn = recordLines landed ++ tail ∧
      (tail = [] ∨ ∃ record more, rest = record :: more ∧ tail <+: recordPiece record) := by
  induction records generalizing torn with
  | nil => exact ⟨[], [], torn, rfl, rfl, .inl (prefix_nil.mp h)⟩
  | cons record records ih =>
    rw [recordLines_cons] at h
    rcases prefix_append_cases h with hshort | ⟨rest, rfl, hrest⟩
    · exact ⟨[], record :: records, torn, rfl, rfl, .inr ⟨record, records, rfl, hshort⟩⟩
    · cases rest with
      | nil =>
        rw [append_nil]
        exact ⟨[], record :: records, recordPiece record, rfl, rfl,
          .inr ⟨record, records, rfl, prefix_rfl⟩⟩
      | cons b rest =>
        rw [cons_prefix_cons] at hrest
        obtain ⟨rfl, hrest⟩ := hrest
        obtain ⟨landed, later, tail, rfl, rfl, htail⟩ := ih hrest
        refine ⟨record :: landed, later, tail, rfl, ?_, htail⟩
        rw [recordLines_cons, append_assoc, cons_append]

theorem splitNewlines_unbroken (h : newline ∉ piece) : splitNewlines piece = [piece] :=
  splitOn_eq_singleton h

private theorem torn_or_braced {tail : Bytes} (h : tail <+: encodeText record.dumpJson) :
    Torn tail ∨ Braced tail := by
  by_cases hwhole : tail = encodeText record.dumpJson
  · exact .inr (hwhole ▸ braced_dumpJson record)
  · exact .inl ⟨record, h, hwhole⟩

private theorem braced_fused {tail line : Bytes}
    (htail : tail = [] ∨ ∃ record, tail <+: encodeText (EventRecord.dumpJson record))
    (hline : Braced line) : Braced (tail ++ line) := by
  rcases htail with rfl | ⟨record, hpre⟩
  · exact hline
  · have hrecord := braced_dumpJson record
    refine ⟨?_, ?_, ?_⟩
    · cases tail with
      | nil => exact hline.opening
      | cons b tail =>
        obtain ⟨rest, hrest⟩ := hpre
        have hopen := hrecord.opening
        rw [← hrest] at hopen
        simpa using hopen
    · rw [List.getLast?_append, hline.closing]
      rfl
    · intro b hb
      rcases List.mem_append.mp hb with hb | hb
      · exact hrecord.control b (hpre.subset hb)
      · exact hline.control b hb

private theorem terminated_append (left right : List Bytes) :
    terminated (left ++ right) = terminated left ++ terminated right := by
  simp [terminated]

theorem clean_of_producible {content : Bytes} (h : Producible content) :
    ∀ piece ∈ splitNewlines content, CleanPiece piece := by
  obtain ⟨front, torn, back, rfl, hwritten, records, htorn⟩ := h
  obtain ⟨landed, rest, tail, -, rfl, hcut⟩ := prefix_recordLines htorn
  have htail : tail = [] ∨ ∃ record, tail <+: encodeText (EventRecord.dumpJson record) := by
    rcases hcut with hnil | ⟨record, -, -, hpre⟩
    · exact .inl hnil
    · exact .inr ⟨record, hpre⟩
  have hfront : ∀ piece ∈ front.map encodeText ++ landed.map recordPiece, Braced piece := by
    intro piece hpiece
    rcases List.mem_append.mp hpiece with hpiece | hpiece
    · obtain ⟨line, hline, rfl⟩ := List.mem_map.mp hpiece
      exact braced_writtenLine (hwritten line (mem_append_left _ hline))
    · obtain ⟨record, -, rfl⟩ := List.mem_map.mp hpiece
      exact braced_dumpJson record
  have hback : ∀ piece ∈ back.map encodeText, Braced piece := by
    intro piece hpiece
    obtain ⟨line, hline, rfl⟩ := List.mem_map.mp hpiece
    exact braced_writtenLine (hwritten line (mem_append_right _ hline))
  have hbytes : frameLines front ++ (recordLines landed ++ tail) ++ frameLines back =
      terminated (front.map encodeText ++ landed.map recordPiece) ++
        (tail ++ terminated (back.map encodeText)) := by
    rw [frameLines_eq_terminated, frameLines_eq_terminated, terminated_append,
      recordLines_eq_terminated]
    simp
  rw [hbytes, splitNewlines_terminated_append _ _
    (fun piece hpiece => newline_not_mem_of_control (hfront piece hpiece).control)]
  intro piece hpiece
  rcases List.mem_append.mp hpiece with hpiece | hpiece
  · exact .inr (.inl (hfront piece hpiece))
  · cases hcases : back.map encodeText with
    | nil =>
      rw [hcases, terminated_nil, append_nil] at hpiece
      have hclean : CleanPiece tail := by
        rcases htail with rfl | ⟨record, hpre⟩
        · exact .inl rfl
        · rcases torn_or_braced hpre with htorn | hbraced
          · exact .inr (.inr htorn)
          · exact .inr (.inl hbraced)
      rw [splitNewlines_unbroken (newline_not_mem_of_control (control_of_clean hclean))] at hpiece
      rw [List.mem_singleton.mp hpiece]
      exact hclean
    | cons line rest =>
      rw [hcases] at hpiece hback
      have hfused : ∀ p ∈ (tail ++ line) :: rest, Braced p := by
        intro p hp
        rcases List.mem_cons.mp hp with rfl | hp
        · exact braced_fused htail (hback line mem_cons_self)
        · exact hback p (mem_cons_of_mem _ hp)
      have hregroup : tail ++ terminated (line :: rest) = terminated ((tail ++ line) :: rest) ++ [] := by
        simp
      rw [hregroup, splitNewlines_terminated_append _ _
        (fun p hp => newline_not_mem_of_control (hfused p hp).control)] at hpiece
      rcases List.mem_append.mp hpiece with hpiece | hpiece
      · exact .inr (.inl (hfused piece hpiece))
      · exact .inl (by simpa [splitNewlines] using hpiece)

private theorem strip_isPrefix {c : Char} {rest : Text} (h : text = c :: rest)
    (hc : isSpace c = false) : strip text <+: text := by
  unfold strip
  rw [h, dropWhile_cons_of_neg (by simp [hc])]
  exact rdropWhile_prefix isSpace _

private theorem unbroken_of_control (h : ∀ b ∈ encodeText text, 32 ≤ b.toNat) :
    ∀ c ∈ text, isLineBreak c = false := by
  intro c hc
  have hsmall : ∀ d : Char, d ∈ text → d.toNat < 128 → 32 ≤ d.toNat := by
    intro d hd hlt
    have hencode : String.utf8EncodeChar d = [UInt8.ofNat d.val.toNat] := by
      unfold String.utf8EncodeChar
      rw [if_pos (by
        have hval : d.val.toNat = d.toNat := rfl
        omega)]
    have hbyte := h (UInt8.ofNat d.val.toNat)
      (List.mem_flatMap.mpr ⟨d, hd, by rw [hencode]; exact mem_singleton_self _⟩)
    rw [UInt8.toNat_ofNat'] at hbyte
    have hval : d.val.toNat = d.toNat := rfl
    omega
  have hline : c ≠ '\n' := by
    rintro rfl
    exact absurd (hsmall _ hc (by decide)) (by decide)
  have hreturn : c ≠ '\r' := by
    rintro rfl
    exact absurd (hsmall _ hc (by decide)) (by decide)
  simp [isLineBreak, hline, hreturn]

private theorem head_of_encodeText (h : (encodeText text).head? = some 123) :
    ∃ rest, text = '{' :: rest := by
  cases text with
  | nil => simp at h
  | cons c rest =>
    have hmem : (123 : UInt8) ∈ String.utf8EncodeChar c := by
      obtain ⟨b, bs, hbs⟩ := exists_cons_of_ne_nil (utf8EncodeChar_ne_nil c)
      rw [encodeText_cons, hbs, cons_append] at h
      rw [hbs, Option.some.inj h]
      exact mem_cons_self
    have hc : c = '{' := Char.toNat_inj.mp (utf8EncodeChar_of_mem_ascii hmem (by decide)).2
    exact ⟨rest, by rw [hc]⟩

private theorem last_of_encodeText (h : (encodeText text).getLast? = some 125) :
    ∃ front, text = front ++ ['}'] := by
  rcases eq_nil_or_concat text with rfl | ⟨front, c, rfl⟩
  · simp at h
  · have hmem : (125 : UInt8) ∈ String.utf8EncodeChar c := by
      rw [concat_eq_append, encodeText_append, encodeText_cons, encodeText_nil,
        append_nil, List.getLast?_append_of_ne_nil _ (utf8EncodeChar_ne_nil c)] at h
      exact mem_of_getLast? h
    have hc : c = '}' := Char.toNat_inj.mp (utf8EncodeChar_of_mem_ascii hmem (by decide)).2
    exact ⟨front, by rw [hc, concat_eq_append]⟩

private theorem strip_isPrefix_of_dumpJson (h : text <+: record.dumpJson) :
    strip text <+: text := by
  cases text with
  | nil => exact prefix_rfl
  | cons c rest =>
    have hc : c = '{' := by
      obtain ⟨body, hbody⟩ := render_obj_braces record.toEntries
      have hdump : record.dumpJson = '{' :: (body ++ ['}']) := hbody
      rw [hdump, cons_prefix_cons] at h
      exact h.1
    subst hc
    exact strip_isPrefix rfl (by decide)

theorem parse_lines_of_torn (h : text <+: record.dumpJson) (hne : text ≠ record.dumpJson) :
    ∀ line ∈ nonBlankLines text, Json.parse line = none := by
  intro line hline
  have hunbroken : ∀ c ∈ text, isLineBreak c = false :=
    fun c hc => (tidy_dumpJson record).unbroken c (h.subset hc)
  rw [nonBlankLines_unbroken hunbroken] at hline
  have hstrip := strip_isPrefix_of_dumpJson h
  rw [List.mem_singleton.mp (mem_of_mem_filter hline)]
  apply parse_prefix_dumpJson (hstrip.trans h)
  intro heq
  rw [heq] at hstrip
  exact hne (List.IsPrefix.eq_of_length_le h hstrip.length_le)

private theorem parsedRecords_clean (h : CleanPiece (encodeText text)) :
    parsedRecords (nonBlankLines text) = (recordOfPiece (encodeText text)).toList := by
  have hunbroken := unbroken_of_control (control_of_clean h)
  unfold recordOfPiece
  rw [decodeText_encodeText, Option.bind_some, nonBlankLines_unbroken hunbroken]
  rcases h with hnil | hbraced | ⟨record, hpre, hne⟩
  · rw [encodeText_eq_nil.mp hnil]
    decide +kernel
  · obtain ⟨rest, hrest⟩ := head_of_encodeText hbraced.opening
    obtain ⟨front, hfront⟩ := last_of_encodeText hbraced.closing
    have hstrip : strip text = text := by
      unfold strip
      rw [hrest, dropWhile_cons_of_neg (by decide), ← hrest, hfront,
        rdropWhile_concat_neg _ _ _ (by decide)]
    have hne : text ≠ [] := by simp [hrest]
    rw [hstrip, filter_cons_of_pos (by simpa using hne), filter_nil,
      parsedRecords_singleton]
  · have htext : text <+: record.dumpJson :=
      prefix_of_decodeText_prefix hpre (decodeText_encodeText text)
    have hshort : text ≠ record.dumpJson := fun heq => hne (by rw [heq])
    have hnone : EventRecord.validateJson text = none :=
      validateJson_of_parse_none (parse_prefix_dumpJson htext hshort)
    rw [hnone, ← nonBlankLines_unbroken hunbroken]
    apply filterMap_eq_nil_iff.mpr
    intro line hline
    exact validateJson_of_parse_none (parse_lines_of_torn htext hshort line hline)

theorem parsedRecords_of_clean {content : Bytes} {lines : List Text}
    (hclean : ∀ piece ∈ splitNewlines content, CleanPiece piece)
    (hread : readLines content = some lines) :
    parsedRecords lines = (splitNewlines content).filterMap recordOfPiece := by
  obtain ⟨text, hdecode, rfl⟩ := Option.map_eq_some_iff.mp hread
  have hsplit := splitNewlines_of_decodeText hdecode
  rw [nonBlankLines_eq_flatMap, hsplit]
  rw [hsplit] at hclean
  generalize text.splitOn '\n' = pieces at hclean
  induction pieces with
  | nil => rfl
  | cons piece pieces ih =>
    have hpiece := parsedRecords_clean (hclean (encodeText piece) (by simp))
    rw [flatMap_cons, parsedRecords_append, hpiece,
      ih (fun p hp => hclean p (by
        exact mem_cons_of_mem _ hp)), map_cons, filterMap_cons]
    cases recordOfPiece (encodeText piece) <;> rfl

end Flowness.Ledger
