import Flowness.Library.JsonParser
import Flowness.Library.Lines

/-! Rendered objects as lines of a text file: no control characters, no outer white space. -/

namespace Flowness.Library

open List

namespace Json

theorem printable_of_all {text : Text} (h : text.all (fun c => decide (32 ≤ c.toNat)) = true) :
    ∀ c ∈ text, 32 ≤ c.toNat := by
  simpa using h

private theorem escapeChar_printable (c : Char) : ∀ d ∈ escapeChar c, 32 ≤ d.toNat := by
  intro d hd
  unfold escapeChar at hd
  split at hd
  · revert d
    exact printable_of_all rfl
  split at hd
  · revert d
    exact printable_of_all rfl
  split at hd
  · revert d
    exact printable_of_all rfl
  split at hd
  · revert d
    exact printable_of_all rfl
  split at hd
  · revert d
    exact printable_of_all rfl
  split at hd
  · revert d
    exact printable_of_all rfl
  split at hd
  · revert d
    exact printable_of_all rfl
  split at hd
  next h =>
    have hdigits : ∀ n < 32, ∀ e ∈ ['\\', 'u', '0', '0', hexDigit (n / 16), hexDigit (n % 16)],
        32 ≤ e.toNat := fun n hn => printable_of_all (by revert n; decide)
    exact hdigits _ h d hd
  next h =>
    obtain rfl := mem_singleton.mp hd
    omega

private theorem renderString_printable (s : String) : ∀ c ∈ renderString s, 32 ≤ c.toNat := by
  intro c hc
  unfold renderString at hc
  simp only [mem_cons, mem_append, mem_flatMap, not_mem_nil, or_false] at hc
  rcases hc with rfl | ⟨d, -, hc⟩ | rfl
  · decide
  · exact escapeChar_printable d c hc
  · decide

private theorem numberChar_printable {c : Char} (h : isNumberChar c = true) : 32 ≤ c.toNat := by
  unfold isNumberChar at h
  simp only [Bool.or_eq_true, beq_iff_eq] at h
  rcases h with ((((h | rfl) | rfl) | rfl) | rfl) | rfl
  · unfold Char.isDigit at h
    simp only [Bool.and_eq_true, decide_eq_true_eq] at h
    have hle : '0'.toNat ≤ c.toNat := h.1
    exact le_trans (by decide) hle
  all_goals decide

mutual

theorem render_printable : ∀ value : Json, value.proper = true →
    ∀ c ∈ value.render, 32 ≤ c.toNat
  | .null, _ => printable_of_all rfl
  | .bool true, _ => printable_of_all rfl
  | .bool false, _ => printable_of_all rfl
  | .int n, _ => fun c hc =>
    numberChar_printable (all_eq_true.mp (renderInt_number n) c hc)
  | .float literal, h => fun c hc =>
    numberChar_printable (all_eq_true.mp (isFloatLiteral_number h) c hc)
  | .str s, _ => renderString_printable s
  | .arr [], _ => printable_of_all rfl
  | .arr (item :: items), h => by
    simp only [proper, properItems, Bool.and_eq_true] at h
    intro c hc
    simp only [render, mem_cons, mem_append] at hc
    rcases hc with rfl | hc | hc
    · decide
    · exact render_printable item h.1 c hc
    · exact renderItems_printable items h.2 c hc
  | .obj [], _ => printable_of_all rfl
  | .obj ((key, value) :: entries), h => by
    simp only [proper, properEntries, Bool.and_eq_true] at h
    intro c hc
    simp only [render, mem_cons, mem_append] at hc
    rcases hc with rfl | hc | rfl | hc | hc
    · decide
    · exact renderString_printable key c hc
    · decide
    · exact render_printable value h.2.1 c hc
    · exact renderEntries_printable entries h.2.2 c hc

private theorem renderItems_printable : ∀ items : List Json, properItems items = true →
    ∀ c ∈ renderItems items, 32 ≤ c.toNat
  | [], _ => printable_of_all rfl
  | item :: items, h => by
    simp only [properItems, Bool.and_eq_true] at h
    intro c hc
    simp only [renderItems, mem_cons, mem_append] at hc
    rcases hc with rfl | hc | hc
    · decide
    · exact render_printable item h.1 c hc
    · exact renderItems_printable items h.2 c hc

private theorem renderEntries_printable : ∀ entries : List (String × Json),
    properEntries entries = true → ∀ c ∈ renderEntries entries, 32 ≤ c.toNat
  | [], _ => printable_of_all rfl
  | (key, value) :: entries, h => by
    simp only [properEntries, Bool.and_eq_true] at h
    intro c hc
    simp only [renderEntries, mem_cons, mem_append] at hc
    rcases hc with rfl | hc | rfl | hc | hc
    · decide
    · exact renderString_printable key c hc
    · decide
    · exact render_printable value h.1 c hc
    · exact renderEntries_printable entries h.2 c hc

end

private theorem renderEntries_last (entries : List (String × Json)) :
    ∃ body, renderEntries entries = body ++ ['}'] := by
  induction entries with
  | nil => exact ⟨[], rfl⟩
  | cons entry entries ih =>
    obtain ⟨key, value⟩ := entry
    obtain ⟨body, hbody⟩ := ih
    refine ⟨',' :: (renderString key ++ ':' :: (value.render ++ body)), ?_⟩
    simp [renderEntries, hbody]

/-- A rendered object is `\x7b … \x7d`. -/
theorem render_obj_braces (entries : List (String × Json)) :
    ∃ body, (Json.obj entries).render = '{' :: (body ++ ['}']) := by
  cases entries with
  | nil => exact ⟨[], rfl⟩
  | cons entry entries =>
    obtain ⟨key, value⟩ := entry
    obtain ⟨body, hbody⟩ := renderEntries_last entries
    refine ⟨renderString key ++ ':' :: (value.render ++ body), ?_⟩
    simp [render, hbody]

/-- Text in braces without control characters is a line that reading gives back. -/
theorem tidy_braces {body : Text} (h : ∀ c ∈ body, 32 ≤ c.toNat) :
    Tidy ('{' :: (body ++ ['}'])) := by
  refine ⟨by simp, ?_, ?_⟩
  · intro c hc
    have hprintable : 32 ≤ c.toNat := by
      simp only [mem_cons, mem_append, not_mem_nil, or_false] at hc
      rcases hc with rfl | hc | rfl
      · decide
      · exact h c hc
      · decide
    have hline : c ≠ '\n' := by
      rintro rfl
      exact absurd hprintable (by decide)
    have hreturn : c ≠ '\r' := by
      rintro rfl
      exact absurd hprintable (by decide)
    simp [isLineBreak, hline, hreturn]
  · unfold strip
    rw [dropWhile_cons_of_neg (by decide), ← cons_append,
      rdropWhile_concat_neg _ _ _ (by decide)]

theorem tidy_render_obj {entries : List (String × Json)}
    (h : (Json.obj entries).proper = true) : Tidy (Json.obj entries).render := by
  obtain ⟨body, hbody⟩ := render_obj_braces entries
  rw [hbody]
  refine tidy_braces (fun c hc => ?_)
  refine render_printable _ h c ?_
  rw [hbody]
  exact mem_cons_of_mem _ (mem_append_left _ hc)

end Json

end Flowness.Library
