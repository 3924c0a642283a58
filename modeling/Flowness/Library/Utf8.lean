import Mathlib.Data.List.Basic

/-!
UTF-8 text over byte lists. The laws are the ones a line-framed file needs: decoding inverts
encoding, a cut between characters keeps a prefix of the text, and ASCII control bytes occur
only as themselves.
-/

namespace Flowness.Library

open List

abbrev Bytes := List UInt8
abbrev Text := List Char

def encodeText (text : Text) : Bytes := text.flatMap String.utf8EncodeChar

/-- `bytes.decode("utf-8")`; `none` is the decoding error. -/
def decodeText (bytes : Bytes) : Option Text :=
  bytes.toByteArray.utf8Decode?.map Array.toList

@[simp] theorem encodeText_nil : encodeText [] = [] := rfl

@[simp] theorem encodeText_cons (c : Char) (text : Text) :
    encodeText (c :: text) = String.utf8EncodeChar c ++ encodeText text := rfl

@[simp] theorem encodeText_append (left right : Text) :
    encodeText (left ++ right) = encodeText left ++ encodeText right := by
  simp [encodeText]

private theorem toByteArray_encodeText (text : Text) :
    (encodeText text).toByteArray = text.utf8Encode := rfl

@[simp] theorem decodeText_encodeText (text : Text) :
    decodeText (encodeText text) = some text := by
  unfold decodeText
  rw [toByteArray_encodeText, List.utf8Decode?_utf8Encode]
  rfl

theorem encodeText_of_decodeText (h : decodeText bytes = some text) : encodeText text = bytes := by
  obtain ⟨chars, hchars, rfl⟩ := Option.map_eq_some_iff.mp h
  have hsome : bytes.toByteArray.utf8Decode?.isSome := by rw [hchars]; rfl
  have hencode := ByteArray.utf8Encode_get_utf8Decode? (h := hsome)
  have hget : bytes.toByteArray.utf8Decode?.get hsome = chars := by
    simp only [hchars, Option.get_some]
  rw [hget, ← toByteArray_encodeText] at hencode
  have hlist := congrArg (fun b : ByteArray => b.data.toList) hencode
  simpa using hlist

theorem encodeText_injective (h : encodeText left = encodeText right) : left = right := by
  have hdecode := congrArg decodeText h
  simpa using hdecode

theorem utf8EncodeChar_ne_nil (c : Char) : String.utf8EncodeChar c ≠ [] := by
  unfold String.utf8EncodeChar
  dsimp only
  split
  · simp
  · split
    · simp
    · split <;> simp

@[simp] theorem encodeText_eq_nil : encodeText text = [] ↔ text = [] := by
  constructor
  · intro h
    exact encodeText_injective h
  · rintro rfl
    rfl

private theorem decodeText_utf8EncodeChar_append (c : Char) (bytes : Bytes) :
    decodeText (String.utf8EncodeChar c ++ bytes) = (decodeText bytes).map (c :: ·) := by
  have hchar : String.utf8EncodeChar c = encodeText [c] := by simp
  have harray : (String.utf8EncodeChar c ++ bytes).toByteArray =
      [c].utf8Encode ++ bytes.toByteArray := by
    rw [hchar, ← toByteArray_encodeText, toByteArray_append]
  unfold decodeText
  rw [harray, ByteArray.utf8Decode?_utf8Encode_singleton_append]
  cases bytes.toByteArray.utf8Decode? with
  | none => rfl
  | some chars => simp

theorem decodeText_encodeText_append (text : Text) (bytes : Bytes) :
    decodeText (encodeText text ++ bytes) = (decodeText bytes).map (text ++ ·) := by
  induction text with
  | nil => simp
  | cons c text ih =>
    rw [encodeText_cons, append_assoc, decodeText_utf8EncodeChar_append, ih,
      Option.map_map]
    rfl

theorem prefix_of_decodeText_prefix (hpre : bytes <+: encodeText whole)
    (hdecode : decodeText bytes = some front) : front <+: whole := by
  obtain ⟨rest, hrest⟩ := hpre
  have hwhole := decodeText_encodeText whole
  rw [← hrest, ← encodeText_of_decodeText hdecode, decodeText_encodeText_append] at hwhole
  obtain ⟨tail, -, htail⟩ := Option.map_eq_some_iff.mp hwhole
  exact ⟨tail, htail⟩

/-- Bytes below `0x80` stand for themselves and for nothing else. -/
theorem utf8EncodeChar_of_mem_ascii (hmem : b ∈ String.utf8EncodeChar c) (hascii : b.toNat < 128) :
    String.utf8EncodeChar c = [b] ∧ c.toNat = b.toNat := by
  unfold String.utf8EncodeChar at hmem ⊢
  dsimp only at hmem ⊢
  split at hmem
  next hsmall =>
    rw [if_pos hsmall]
    have hb : b = UInt8.ofNat c.val.toNat := by simpa using hmem
    subst hb
    refine ⟨rfl, ?_⟩
    have hlt : c.val.toNat < 256 := by omega
    exact (Nat.mod_eq_of_lt hlt).symm
  · exfalso
    have hhigh : ∀ n, 128 ≤ n % 256 → b = UInt8.ofNat n → False := by
      intro n hn hb
      have hnat := congrArg UInt8.toNat hb
      rw [UInt8.toNat_ofNat'] at hnat
      omega
    split at hmem
    · simp only [mem_cons, not_mem_nil, or_false] at hmem
      rcases hmem with hb | hb
      · exact hhigh _ (by omega) hb
      · exact hhigh _ (by omega) hb
    · split at hmem
      · simp only [mem_cons, not_mem_nil, or_false] at hmem
        rcases hmem with hb | hb | hb
        · exact hhigh _ (by omega) hb
        · exact hhigh _ (by omega) hb
        · exact hhigh _ (by omega) hb
      · simp only [mem_cons, not_mem_nil, or_false] at hmem
        rcases hmem with hb | hb | hb | hb
        · exact hhigh _ (by omega) hb
        · exact hhigh _ (by omega) hb
        · exact hhigh _ (by omega) hb
        · exact hhigh _ (by omega) hb

/-- A byte below `0x80` is not the inside of a character. -/
theorem cut_before_ascii (hb : b.toNat < 128) (h : front ++ b :: rest = encodeText text) :
    ∃ before, front = encodeText before := by
  induction text generalizing front with
  | nil => simp at h
  | cons c text ih =>
    rcases append_eq_append_iff.mp h with ⟨more, hchar, hrest⟩ | ⟨more, hfront, hrest⟩
    · cases more with
      | nil =>
        rw [append_nil] at hchar
        exact ⟨[c], by rw [encodeText_cons, encodeText_nil, append_nil, hchar]⟩
      | cons d more =>
        obtain ⟨rfl, -⟩ := List.cons.inj hrest
        have hsingle := (utf8EncodeChar_of_mem_ascii (c := c) (b := b) (by simp [hchar]) hb).1
        rw [hchar] at hsingle
        cases front with
        | nil => exact ⟨[], rfl⟩
        | cons d front =>
          have hlength := congrArg List.length hsingle
          simp at hlength
    · obtain ⟨before, rfl⟩ := ih hrest.symm
      refine ⟨c :: before, ?_⟩
      rw [hfront, encodeText_cons]

end Flowness.Library
