import Flowness.Library.JsonFused
import Flowness.Ledger.Prepared

/-!
A write to a file whose last line has no end: its first record shares that line. The readers
find the record only when the line was blank, and every other record as it was written.
-/

namespace Flowness.Ledger

open List Library Schemas Option EventRecord

def openLine (text : Text) : Text := text.rtakeWhile (fun c => !isLineBreak c)

def closedLines (text : Text) : Text := text.rdropWhile (fun c => !isLineBreak c)

def isBlank (text : Text) : Bool := (openLine text).all isSpace

theorem closedLines_append_openLine (text : Text) : closedLines text ++ openLine text = text :=
  rdropWhile_append_rtakeWhile

private theorem openLine_unbroken (text : Text) : ∀ c ∈ openLine text, isLineBreak c = false := by
  intro c hc
  have hkept := mem_rtakeWhile_imp hc
  simpa using hkept

theorem nonBlankLines_closedLines_append (text more : Text) :
    nonBlankLines (closedLines text ++ more) = nonBlankLines (closedLines text) ++ nonBlankLines more := by
  rcases eq_nil_or_concat (closedLines text) with hnil | ⟨front, last, hsplit⟩
  · rw [hnil]
    rfl
  · have hlast : isLineBreak last = true := by
      have hne : closedLines text ≠ [] := by simp [hsplit]
      have hgetLast : (closedLines text).getLast hne = last := by
        simp only [hsplit, concat_eq_append, getLast_concat]
      have hstop : ¬(!isLineBreak ((closedLines text).getLast hne)) = true :=
        rdropWhile_last_not (fun c => !isLineBreak c) text hne
      rw [hgetLast] at hstop
      simpa using hstop
    rw [hsplit, concat_eq_append, append_assoc, singleton_append,
      nonBlankLines_append_break _ _ hlast, nonBlankLines_append_break _ _ hlast,
      append_assoc]
    rfl

private theorem isSpace_of_isJsonSpace (h : Json.isJsonSpace c = true) : isSpace c = true := by
  unfold Json.isJsonSpace at h
  simp only [Bool.or_eq_true, beq_iff_eq] at h
  rcases h with ((rfl | rfl) | rfl) | rfl
  · decide
  · decide
  · decide
  · decide

private theorem strip_append_dumpJson (front : Text) (record : EventRecord) :
    strip (front ++ record.dumpJson) = front.dropWhile isSpace ++ record.dumpJson := by
  obtain ⟨body, hbody⟩ := Json.render_obj_braces record.toEntries
  have hdump : record.dumpJson = '{' :: (body ++ ['}']) := hbody
  unfold strip
  rw [hdump, dropWhile_append]
  have hkeep : ('{' :: (body ++ ['}'])).dropWhile isSpace = '{' :: (body ++ ['}']) :=
    dropWhile_cons_of_neg (by decide)
  have hlast : ∀ kept : Text, (kept ++ '{' :: (body ++ ['}'])).rdropWhile isSpace =
      kept ++ '{' :: (body ++ ['}']) := by
    intro kept
    rw [← cons_append, ← append_assoc, rdropWhile_concat_neg _ _ _ (by decide)]
  split
  next hnil =>
    rw [isEmpty_iff.mp hnil]
    exact hlast []
  · exact hlast _

private theorem parse_fused_dumpJson {record : EventRecord}
    (h : Json.parse (front ++ record.dumpJson) = some value) : Json.skipSpace front = [] := by
  have hproper := proper_toJson record
  apply Json.parse_fused_render_obj hproper _ _ _ h
  · exact 'e'
  · rfl
  · rfl
  · decide

theorem parsedRecords_openLine (text : Text) (record : EventRecord) :
    parsedRecords (nonBlankLines (openLine text ++ record.dumpJson)) =
      if isBlank text then [record] else [] := by
  have htidy := tidy_dumpJson record
  have hunbroken : ∀ c ∈ openLine text ++ record.dumpJson, isLineBreak c = false := by
    intro c hc
    rcases mem_append.mp hc with hc | hc
    · exact openLine_unbroken text c hc
    · exact htidy.unbroken c hc
  rw [nonBlankLines_unbroken hunbroken, strip_append_dumpJson]
  have hne : decide ((openLine text).dropWhile isSpace ++ record.dumpJson ≠ []) = true :=
    decide_eq_true (append_ne_nil_of_right_ne_nil _ htidy.nonempty)
  rw [filter_cons_of_pos (by exact hne), filter_nil, parsedRecords_singleton]
  split
  next hblank =>
    have hnil : (openLine text).dropWhile isSpace = [] :=
      dropWhile_eq_nil_iff.mpr (all_eq_true.mp hblank)
    rw [hnil, nil_append, validateJson_dumpJson]
    rfl
  next hblank =>
    cases hparse : Json.parse ((openLine text).dropWhile isSpace ++ record.dumpJson) with
    | none =>
      rw [validateJson_of_parse_none hparse]
      rfl
    | some value =>
      exfalso
      have hspace := parse_fused_dumpJson hparse
      apply hblank
      cases hfront : (openLine text).dropWhile isSpace with
      | nil => exact all_eq_true.mpr (dropWhile_eq_nil_iff.mp hfront)
      | cons c rest =>
        rw [hfront] at hspace
        have hc : isSpace c = true :=
          isSpace_of_isJsonSpace (dropWhile_eq_nil_iff.mp hspace c mem_cons_self)
        have hhead := head_dropWhile_not isSpace (l := openLine text) (by simp [hfront])
        simp [hfront, hc] at hhead

/-- The records of a write that the readers find in a file that ended as `text` does. -/
def landed (text : Text) (records : List EventRecord) : List EventRecord :=
  if isBlank text then records else records.tail

theorem landed_prefix (text : Text) (h : front <+: records) :
    landed text front <+: landed text records := by
  unfold landed
  split
  · exact h
  · obtain ⟨more, rfl⟩ := h
    cases front with
    | nil => exact nil_prefix
    | cons first rest => exact prefix_append rest more

theorem landed_subset (text : Text) (records : List EventRecord) : landed text records ⊆ records := by
  unfold landed
  split
  · exact List.Subset.refl _
  · exact fun record hrecord => mem_of_mem_tail hrecord

private theorem recordLines_text (records : List EventRecord) :
    ∃ text, recordLines records = encodeText text ∧
      nonBlankLines text = records.map EventRecord.dumpJson := by
  obtain ⟨text, htext⟩ := recordLines_eq_encodeText records
  refine ⟨text, htext, ?_⟩
  have hread := readLines_recordLines records
  rw [htext, readLines, decodeText_encodeText] at hread
  exact some.inj hread

theorem readLines_append_write (h : decodeText content = some text) (hne : records ≠ []) :
    ∃ lines, readLines (content ++ recordLines records) = some lines ∧
      parsedRecords lines = parsedRecords (nonBlankLines (closedLines text)) ++ landed text records := by
  obtain ⟨first, rest, rfl⟩ := exists_cons_of_ne_nil hne
  obtain ⟨more, hmore, hlines⟩ := recordLines_text rest
  have hbytes : content ++ recordLines (first :: rest) =
      encodeText (closedLines text ++ (openLine text ++ first.dumpJson ++ '\n' :: more)) := by
    have hwrite : recordLines (first :: rest) = encodeText (first.dumpJson ++ '\n' :: more) := by
      have hcons : recordLines (first :: rest) = frameLine first.dumpJson ++ recordLines rest := rfl
      rw [hcons, hmore, frameLine_eq_encodeText, ← encodeText_append, append_assoc]
      rfl
    rw [hwrite, ← encodeText_of_decodeText h, ← encodeText_append, append_assoc,
      ← append_assoc (closedLines text), closedLines_append_openLine]
  refine ⟨_, by rw [hbytes, readLines, decodeText_encodeText, map_some], ?_⟩
  rw [nonBlankLines_closedLines_append, nonBlankLines_append_break _ _ (by decide), hlines,
    parsedRecords_append, parsedRecords_append, parsedRecords_openLine, parsedRecords_dump]
  congr 1
  unfold landed
  split
  · rfl
  · rfl

theorem readLines_append_undecodable (h : decodeText content = none) (records : List EventRecord) :
    readLines (content ++ recordLines records) = none := by
  cases records with
  | nil =>
    have hnil : recordLines [] = [] := rfl
    rw [hnil, append_nil, readLines, h, map_none]
  | cons first rest =>
    obtain ⟨body, hbody⟩ := Json.render_obj_braces first.toEntries
    have hdump : first.dumpJson = '{' :: (body ++ ['}']) := hbody
    have hbrace : ∃ tail, recordLines (first :: rest) = 123 :: tail := by
      have hcons : recordLines (first :: rest) = frameLine first.dumpJson ++ recordLines rest := rfl
      exact ⟨_, rfl⟩
    obtain ⟨tail, htail⟩ := hbrace
    rw [readLines, htail]
    cases hdecode : decodeText (content ++ 123 :: tail) with
    | none => rfl
    | some whole =>
      obtain ⟨front, hfront⟩ := cut_before_ascii (by decide) (encodeText_of_decodeText hdecode).symm
      rw [hfront, decodeText_encodeText] at h
      contradiction

end Flowness.Ledger
