import Mathlib.Data.List.Induction

/-!
Chains of records that carry the hash of the record before them: when a hash pins what it is taken
of, the last hash pins the whole chain.
-/

namespace Flowness.Library

open List Option

section

variable {ρ η β : Type} (hash : ρ → η) (link : ρ → Option η) (good : ρ → Prop)

/-- The hash of the last record. -/
def headHash (records : List ρ) : Option η := records.getLast?.map hash

/-- Every record is good and links to the one before it. -/
inductive Linked : List ρ → Prop
  | nil : Linked []
  | snoc {records : List ρ} {record : ρ} : Linked records → good record →
      link record = headHash hash records → Linked (records ++ [record])

variable {hash link good}

theorem headHash_snoc (records : List ρ) (record : ρ) :
    headHash hash (records ++ [record]) = some (hash record) := by
  rw [headHash, List.getLast?_concat, map_some]

theorem headHash_eq_none {records : List ρ} : headHash hash records = none ↔ records = [] := by
  rw [headHash, map_eq_none_iff, List.getLast?_eq_none_iff]

theorem Linked.take {records : List ρ} (h : Linked hash link good records) (count : Nat) :
    Linked hash link good (records.take count) := by
  induction h with
  | nil =>
    rw [take_nil]
    exact .nil
  | @snoc records record hlinked hgood hlink ih =>
    by_cases hcount : count ≤ records.length
    · rw [take_append_of_le_length hcount]
      exact ih
    · rw [take_of_length_le (by rw [length_append, length_singleton]; omega)]
      exact .snoc hlinked hgood hlink

/-- Two chains with the same last hash are the same: their last records are, and so are the hashes
these link to. -/
theorem Linked.pinned {body : ρ → β}
    (hpins : ∀ a b, good a → good b → hash a = hash b → body a = body b ∧ link a = link b)
    {records others : List ρ} (h : Linked hash link good records)
    (h' : Linked hash link good others) (hhead : headHash hash records = headHash hash others) :
    records.map body = others.map body := by
  induction h generalizing others with
  | nil =>
    have hnone : others = [] := headHash_eq_none.mp hhead.symm
    rw [hnone]
  | @snoc records record _ hgood hlink ih =>
    cases h' with
    | nil =>
      rw [headHash_snoc] at hhead
      cases hhead
    | @snoc others other hothers hgood' hlink' =>
      rw [headHash_snoc, headHash_snoc] at hhead
      obtain ⟨hbody, hlinks⟩ := hpins record other hgood hgood' (some.inj hhead)
      have hbefore := ih hothers (hlink.symm.trans (hlinks.trans hlink'))
      rw [map_append, map_append, hbefore, map_singleton, map_singleton, hbody]

end

end Flowness.Library
