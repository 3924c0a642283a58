import Mathlib.Data.List.DropRight
import Mathlib.Data.Set.Function
import Flowness.Library.Utf8

/-!
Line framing of text files. `splitNewlines` is the byte view (`content.split(b"\n")`) and
`readLines` the text view (decode, break at newlines, strip, drop blanks); on text without a
carriage return the two see the same pieces.
-/

namespace Flowness.Library

open List

def newline : UInt8 := 10

/-- One line as a writer appends it: its UTF-8 bytes and the newline. -/
def frameLine (line : Text) : Bytes := encodeText line ++ [newline]

def frameLines (lines : List Text) : Bytes := lines.flatMap frameLine

@[simp] theorem frameLines_nil : frameLines [] = [] := rfl

@[simp] theorem frameLines_cons (line : Text) (lines : List Text) :
    frameLines (line :: lines) = frameLine line ++ frameLines lines := rfl

@[simp] theorem frameLines_append (left right : List Text) :
    frameLines (left ++ right) = frameLines left ++ frameLines right := by
  simp [frameLines]

theorem frameLine_eq_encodeText (line : Text) : frameLine line = encodeText (line ++ ['\n']) := by
  rw [encodeText_append]
  rfl

def splitNewlines (bytes : Bytes) : List Bytes := bytes.splitOn newline

theorem splitNewlines_ne_nil (bytes : Bytes) : splitNewlines bytes ≠ [] :=
  splitOn_ne_nil newline bytes

/-- The universal-newline breaks of text mode. -/
def isLineBreak (c : Char) : Bool := c == '\n' || c == '\r'

/-- The characters `str.strip()` removes. -/
def isSpace (c : Char) : Bool :=
  (9 ≤ c.toNat && c.toNat ≤ 13) || (28 ≤ c.toNat && c.toNat ≤ 32) || c.toNat == 0x85 ||
    c.toNat == 0xA0 || c.toNat == 0x1680 || (0x2000 ≤ c.toNat && c.toNat ≤ 0x200A) ||
    c.toNat == 0x2028 || c.toNat == 0x2029 || c.toNat == 0x202F || c.toNat == 0x205F ||
    c.toNat == 0x3000

def strip (text : Text) : Text := (text.dropWhile isSpace).rdropWhile isSpace

def nonBlankLines (text : Text) : List Text :=
  ((text.splitOnP isLineBreak).map strip).filter (· ≠ [])

/-- The stripped non-empty lines of a text file; `none` when its bytes are not UTF-8. -/
def readLines (bytes : Bytes) : Option (List Text) := (decodeText bytes).map nonBlankLines

@[simp] theorem readLines_nil : readLines [] = some [] := by decide

/-- A line that reading gives back unchanged. -/
structure Tidy (line : Text) : Prop where
  nonempty : line ≠ []
  unbroken : ∀ c ∈ line, isLineBreak c = false
  stripped : strip line = line

theorem nonBlankLines_append_break (left right : Text) (h : isLineBreak c = true) :
    nonBlankLines (left ++ c :: right) = nonBlankLines left ++ nonBlankLines right := by
  unfold nonBlankLines
  rw [splitOnP_append_cons left right h, map_append, filter_append]

theorem nonBlankLines_unbroken (h : ∀ c ∈ line, isLineBreak c = false) :
    nonBlankLines line = [strip line].filter (· ≠ []) := by
  unfold nonBlankLines
  rw [splitOnP_eq_singleton h]
  rfl

theorem nonBlankLines_tidy (h : Tidy line) : nonBlankLines line = [line] := by
  rw [nonBlankLines_unbroken h.unbroken, h.stripped]
  simp [h.nonempty]

theorem readLines_frameLine_append (h : Tidy line) (rest : Bytes) :
    readLines (frameLine line ++ rest) = (readLines rest).map (line :: ·) := by
  unfold readLines
  rw [frameLine_eq_encodeText, decodeText_encodeText_append, Option.map_map, Option.map_map]
  congr 1
  funext text
  rw [Function.comp_apply, Function.comp_apply, append_assoc, singleton_append,
    nonBlankLines_append_break _ _ (by decide), nonBlankLines_tidy h]
  rfl

/-- Whole tidy lines in front of any bytes are read back as they were written. -/
theorem readLines_frameLines_append (h : ∀ line ∈ lines, Tidy line) (rest : Bytes) :
    readLines (frameLines lines ++ rest) = (readLines rest).map (lines ++ ·) := by
  induction lines with
  | nil => simp
  | cons line lines ih =>
    rw [frameLines_cons, append_assoc,
      readLines_frameLine_append (h line mem_cons_self),
      ih (fun l hl => h l (mem_cons_of_mem _ hl)), Option.map_map]
    rfl

theorem readLines_frameLines (h : ∀ line ∈ lines, Tidy line) :
    readLines (frameLines lines) = some lines := by
  have hread := readLines_frameLines_append h []
  simpa using hread

private theorem newline_mem_utf8EncodeChar (h : newline ∈ String.utf8EncodeChar c) : c = '\n' := by
  obtain ⟨-, hc⟩ := utf8EncodeChar_of_mem_ascii h (by decide)
  exact Char.toNat_inj.mp hc

theorem newline_not_mem_encodeText (h : '\n' ∉ text) : newline ∉ encodeText text := by
  intro hmem
  obtain ⟨c, hc, hbyte⟩ := mem_flatMap.mp hmem
  exact h (newline_mem_utf8EncodeChar hbyte ▸ hc)

theorem splitNewlines_encodeText (text : Text) :
    splitNewlines (encodeText text) = (text.splitOn '\n').map encodeText := by
  have hsplit : ∀ (n : Nat) (text : Text), text.length ≤ n →
      splitNewlines (encodeText text) = (text.splitOn '\n').map encodeText := by
    intro n
    induction n with
    | zero =>
      intro text hlength
      obtain rfl : text = [] := length_eq_zero_iff.mp (by omega)
      rfl
    | succ n ih =>
      intro text hlength
      unfold splitNewlines
      by_cases hmem : '\n' ∈ text
      · obtain ⟨front, rest, rfl, hfront⟩ := eq_append_cons_of_mem hmem
        have hbytes : encodeText (front ++ '\n' :: rest) =
            encodeText front ++ newline :: encodeText rest := by
          rw [encodeText_append]
          rfl
        have hshort : rest.length ≤ n := by
          simp only [length_append, length_cons] at hlength
          omega
        rw [hbytes, splitOn_append_cons_self_of_not_mem (newline_not_mem_encodeText hfront),
          splitOn_append_cons_self_of_not_mem hfront, map_cons]
        exact congrArg (encodeText front :: ·) (ih rest hshort)
      · rw [splitOn_eq_singleton (newline_not_mem_encodeText hmem),
          splitOn_eq_singleton hmem]
        rfl
  exact hsplit text.length text le_rfl

/-- Pieces that were each terminated by a newline. -/
def terminated (pieces : List Bytes) : Bytes := pieces.flatMap (· ++ [newline])

@[simp] theorem terminated_nil : terminated [] = [] := rfl

@[simp] theorem terminated_cons (piece : Bytes) (pieces : List Bytes) :
    terminated (piece :: pieces) = piece ++ newline :: terminated pieces := by
  simp [terminated]

theorem frameLines_eq_terminated (lines : List Text) :
    frameLines lines = terminated (lines.map encodeText) := by
  induction lines with
  | nil => rfl
  | cons line lines ih => simp [ih, frameLine]

private theorem intercalate_cons_of_ne_nil {α : Type} (sep piece : List α) {pieces : List (List α)}
    (h : pieces ≠ []) :
    sep.intercalate (piece :: pieces) = piece ++ sep ++ sep.intercalate pieces := by
  simp [List.intercalate, List.intersperse]

theorem terminated_eq_nil_or_getLast (pieces : List Bytes) :
    terminated pieces = [] ∨ (terminated pieces).getLast? = some newline := by
  rcases eq_nil_or_concat pieces with rfl | ⟨front, piece, rfl⟩
  · exact .inl rfl
  · right
    simp [terminated]

/-- What follows some pieces of a split file, when there is a piece left. -/
theorem eq_terminated_append {kept dropped : List Bytes}
    (h : splitNewlines content = kept ++ dropped) (hne : dropped ≠ []) :
    content = terminated kept ++ [newline].intercalate dropped := by
  have hjoin : [newline].intercalate (kept ++ dropped) = content := by
    rw [← h]
    exact intercalate_splitOn newline
  rw [← hjoin]
  clear h hjoin
  induction kept with
  | nil => rfl
  | cons piece kept ih =>
    rw [cons_append, intercalate_cons_of_ne_nil _ _ (by simp [hne]), ih]
    simp

private theorem terminated_append_singleton (front : List Bytes) (last : Bytes) :
    terminated (front ++ [last]) = terminated front ++ last ++ [newline] := by
  simp [terminated]

theorem terminated_splitNewlines (content : Bytes) :
    terminated (splitNewlines content) = content ++ [newline] := by
  have hne := splitNewlines_ne_nil content
  rcases eq_nil_or_concat (splitNewlines content) with hnil | ⟨front, last, hsplit⟩
  · exact absurd hnil hne
  · rw [concat_eq_append] at hsplit
    have hcontent := eq_terminated_append hsplit (by simp)
    rw [hsplit, terminated_append_singleton]
    conv_rhs => rw [hcontent]
    simp [List.intercalate]

/-- The pieces of a text file that decodes are the encoded pieces of its text. -/
theorem splitNewlines_of_decodeText (h : decodeText content = some text) :
    splitNewlines content = (text.splitOn '\n').map encodeText := by
  rw [← encodeText_of_decodeText h, splitNewlines_encodeText]

theorem nonBlankLines_eq_flatMap (text : Text) :
    nonBlankLines text = (text.splitOn '\n').flatMap nonBlankLines := by
  have hpieces : ∀ pieces : List Text, pieces ≠ [] →
      nonBlankLines (['\n'].intercalate pieces) = pieces.flatMap nonBlankLines := by
    intro pieces hne
    induction pieces with
    | nil => contradiction
    | cons piece pieces ih =>
      cases pieces with
      | nil => simp [List.intercalate]
      | cons next rest =>
        rw [intercalate_cons_of_ne_nil _ _ (by simp), append_assoc, singleton_append,
          nonBlankLines_append_break _ _ (by decide), ih (by simp)]
        rfl
  have hjoin : ['\n'].intercalate (text.splitOn '\n') = text := intercalate_splitOn '\n'
  have htext := hpieces (text.splitOn '\n') (splitOn_ne_nil '\n' text)
  rw [hjoin] at htext
  exact htext

theorem splitNewlines_terminated_append (pieces : List Bytes) (rest : Bytes)
    (h : ∀ piece ∈ pieces, newline ∉ piece) :
    splitNewlines (terminated pieces ++ rest) = pieces ++ splitNewlines rest := by
  induction pieces with
  | nil => rfl
  | cons piece pieces ih =>
    unfold splitNewlines at ih ⊢
    rw [terminated_cons, append_assoc, cons_append,
      splitOn_append_cons_self_of_not_mem (h piece mem_cons_self),
      ih (fun p hp => h p (mem_cons_of_mem _ hp)), cons_append]

theorem splitNewlines_frameLines (h : ∀ line ∈ lines, '\n' ∉ line) :
    splitNewlines (frameLines lines) = lines.map encodeText ++ [[]] := by
  have hsplit := splitNewlines_terminated_append (lines.map encodeText) [] (fun piece hpiece => by
    obtain ⟨line, hline, rfl⟩ := mem_map.mp hpiece
    exact newline_not_mem_encodeText (h line hline))
  rw [append_nil, ← frameLines_eq_terminated] at hsplit
  exact hsplit

theorem frameLines_injOn : Set.InjOn frameLines {lines | ∀ line ∈ lines, '\n' ∉ line} := by
  intro left hleft right hright h
  have hpieces := congrArg splitNewlines h
  rw [splitNewlines_frameLines hleft, splitNewlines_frameLines hright, append_left_inj] at hpieces
  exact map_injective_iff.mpr (fun _ _ => encodeText_injective) hpieces

/-- A prefix of a concatenation ends in the first part or reaches into the second. -/
theorem prefix_append_cases (h : front <+: left ++ right) :
    front <+: left ∨ ∃ rest, front = left ++ rest ∧ rest <+: right := by
  rcases prefix_or_prefix_of_prefix h (prefix_append left right) with hshort | hlong
  · exact .inl hshort
  · obtain ⟨rest, rfl⟩ := hlong
    exact .inr ⟨rest, rfl, (prefix_append_right_inj left).mp h⟩

end Flowness.Library
