import Mathlib.Data.List.Induction

/-!
Histories in which something is taken and freed: who holds it at the end, and that two takings have
a freeing between them.
-/

namespace Flowness.Library

open List

section

variable {α : Type} (takes frees : α → Bool)

/-- Whether the last event of its kind took the thing or freed it, if there was one. -/
def standing (history : List α) : Option Bool :=
  history.foldl (fun held event =>
    if takes event then some true else if frees event then some false else held) none

/-- Between two takings there is a freeing. -/
def Alternates (history : List α) : Prop :=
  ∀ before first between second after, history = before ++ first :: (between ++ second :: after) →
    takes first = true → takes second = true → ∃ event ∈ between, frees event = true

variable {takes frees} {history between : List α} {event : α}

theorem standing_snoc : standing takes frees (history ++ [event]) =
    if takes event then some true else if frees event then some false
    else standing takes frees history := by
  simp [standing]

theorem standing_of_taken (htakes : takes event = true)
    (hbetween : ∀ other ∈ between, frees other = false) :
    standing takes frees (history ++ event :: between) = some true := by
  induction between using List.reverseRecOn with
  | nil => simp [standing_snoc, htakes]
  | append_singleton between last ih =>
    have ih := ih fun other hmem => hbetween other (mem_append_left _ hmem)
    have hlast : frees last = false := hbetween last (by simp)
    rw [← cons_append, ← append_assoc, standing_snoc, hlast, ih]
    simp

theorem standing_of_freed (htakes : takes event = false) (hfrees : frees event = true)
    (hbetween : ∀ other ∈ between, takes other = false) :
    standing takes frees (history ++ event :: between) = some false := by
  induction between using List.reverseRecOn with
  | nil => simp [standing_snoc, htakes, hfrees]
  | append_singleton between last ih =>
    have ih := ih fun other hmem => hbetween other (mem_append_left _ hmem)
    have hlast : takes last = false := hbetween last (by simp)
    rw [← cons_append, ← append_assoc, standing_snoc, hlast, ih]
    simp

theorem alternates_nil : Alternates takes frees ([] : List α) := by
  intro before first between second after h
  simp at h

theorem Alternates.snoc (h : Alternates takes frees history)
    (hfree : takes event = true → standing takes frees history ≠ some true) :
    Alternates takes frees (history ++ [event]) := by
  intro before first between second after heq hfirst hsecond
  induction after using List.reverseRecOn with
  | nil =>
    have hsplit : history ++ [event] = (before ++ first :: between) ++ [second] := by simpa using heq
    obtain ⟨hhistory, hevent⟩ := append_inj' hsplit rfl
    obtain rfl : event = second := by simpa using hevent
    by_contra hnone
    push Not at hnone
    apply hfree hsecond
    rw [hhistory]
    exact standing_of_taken hfirst fun other hmem => by simpa using hnone other hmem
  | append_singleton after last _ =>
    have hsplit : history ++ [event] = (before ++ first :: (between ++ second :: after)) ++ [last] := by
      simpa using heq
    exact h before first between second after (append_inj' hsplit rfl).1 hfirst hsecond

end

end Flowness.Library
