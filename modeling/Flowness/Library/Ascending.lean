import Mathlib.Data.List.Basic

/-!
Lists in strictly ascending order of a key, cut at a bound of the key.
-/

namespace Flowness.Library

open List

section

variable {α : Type} {key : α → Nat} {items : List α}

def Ascending (key : α → Nat) (items : List α) : Prop := (items.map key).Pairwise (· < ·)

section

variable (h : Ascending key items)
include h

theorem Ascending.filter_split (bound : Nat) :
    items.filter (key · < bound) ++ items.filter (bound ≤ key ·) = items := by
  induction items with
  | nil => rfl
  | cons item items ih =>
    obtain ⟨hbelow, htail⟩ := pairwise_cons.mp h
    by_cases hitem : key item < bound
    · rw [filter_cons_of_pos (by simpa using hitem),
        filter_cons_of_neg (by simpa using hitem), cons_append, ih htail]
    · -- behind the first item that is not below the bound there is none that is
      have hnone : items.filter (key · < bound) = [] := by
        refine filter_eq_nil_iff.mpr fun other hother hlt => ?_
        have hafter := hbelow _ (mem_map_of_mem hother)
        have := of_decide_eq_true hlt
        omega
      have hall := ih htail
      rw [hnone, nil_append] at hall
      rw [filter_cons_of_neg (by simpa using hitem), hnone,
        filter_cons_of_pos (by simpa using hitem), hall, nil_append]

theorem Ascending.filter (keep : α → Bool) : Ascending key (items.filter keep) :=
  h.sublist (filter_sublist.map key)

/-- What is below a bound is what is below a lower one and what is between the two. -/
theorem Ascending.filter_lt {low high : Nat} (hle : low ≤ high) :
    items.filter (key · < high) = items.filter (key · < low) ++
      items.filter fun item => low ≤ key item ∧ key item < high := by
  rw [← (h.filter (key · < high)).filter_split low, filter_filter, filter_filter]
  congr 1 <;> refine filter_congr fun item _ => ?_
  · rw [← Bool.decide_and]
    exact decide_eq_decide.mpr ⟨fun hboth => hboth.1, fun hlow => ⟨hlow, Nat.lt_of_lt_of_le hlow hle⟩⟩
  · rw [← Bool.decide_and]

theorem Ascending.key_le_getLast {last : α} (hlast : items.getLast? = some last) {item : α}
    (hitem : item ∈ items) : key item ≤ key last := by
  obtain ⟨front, rfl⟩ := List.getLast?_eq_some_iff.mp hlast
  rcases mem_append.mp hitem with hfront | hend
  · unfold Ascending at h
    rw [map_append, pairwise_append] at h
    have hlt := h.2.2 _ (mem_map_of_mem hfront) (key last) (by simp)
    omega
  · exact Nat.le_of_eq (congrArg key (mem_singleton.mp hend))

end

theorem Ascending.filter_lt_of_mem {front back : List α} (h : Ascending key (front ++ back))
    {bound : α} (hbound : bound ∈ front) :
    (front ++ back).filter (key · < key bound) = front.filter (key · < key bound) := by
  have hnone : back.filter (key · < key bound) = [] := by
    refine filter_eq_nil_iff.mpr fun item hitem hlt => ?_
    unfold Ascending at h
    rw [map_append, pairwise_append] at h
    have hafter := h.2.2 _ (mem_map_of_mem hbound) _ (mem_map_of_mem hitem)
    have := of_decide_eq_true hlt
    omega
  rw [filter_append, hnone, append_nil]

theorem Ascending.mem_of_key_le {front back : List α} (h : Ascending key (front ++ back))
    {bound item : α} (hbound : bound ∈ front) (hitem : item ∈ front ++ back)
    (hle : key item ≤ key bound) : item ∈ front := by
  rcases mem_append.mp hitem with hfront | hback
  · exact hfront
  · unfold Ascending at h
    rw [map_append, pairwise_append] at h
    have hlt := h.2.2 _ (mem_map_of_mem hbound) _ (mem_map_of_mem hback)
    omega

end

end Flowness.Library
