import Mathlib.Data.List.Perm.Subperm
import Mathlib.Data.List.Forall2

/-!
Matching against a pool that is used up: each item takes the first entry of its name that is left,
and a verdict is kept as the items go by.
-/

namespace Flowness.Library

open List

variable {ι ρ σ κ : Type}

/-- The first entry that passes, and what is left without it. -/
def takeFirst (pool : List ρ) (p : ρ → Bool) : Option ρ × List ρ := (pool.find? p, pool.eraseP p)

theorem perm_takeFirst {pool : List ρ} (h : pool.find? p = some entry) :
    pool.Perm (entry :: pool.eraseP p) := by
  obtain ⟨hentry, left, right, rfl, hleft⟩ := List.find?_eq_some_iff_append.mp h
  have herase : (left ++ entry :: right).eraseP p = left ++ right := by
    rw [eraseP_append_right _ (by simpa using hleft), eraseP_cons_of_pos hentry]
  rw [herase]
  exact perm_middle

variable (name : ι → κ) (key : ρ → κ)

/-- Each item by an entry of its own. -/
def Covers (items : List ι) (pool : List ρ) : Prop :=
  ∃ matched : List ρ, matched.Subperm pool ∧ List.Forall₂ (fun item entry => key entry = name item)
    items matched

variable {name key}

theorem Covers.names (h : Covers name key items pool) :
    (items.map name).Subperm (pool.map key) := by
  obtain ⟨matched, hsub, hmatch⟩ := h
  have hnames : items.map name = matched.map key := by
    induction hmatch generalizing pool with
    | nil => rfl
    | cons hhead _ ih =>
      rw [map_cons, map_cons, hhead, ih ((sublist_cons_self _ _).subperm.trans hsub)]
  obtain ⟨chosen, hperm, hsublist⟩ := hsub
  rw [hnames]
  exact ⟨chosen.map key, hperm.map key, hsublist.map key⟩

section

variable [DecidableEq κ] (name key) (judge : ι → Option ρ → σ → σ)

/-- A loop over the items that takes from the pool and updates the verdict. -/
def consume : List ι → List ρ → σ → σ
  | [], _, verdict => verdict
  | item :: items, pool, verdict =>
    let (found, rest) := takeFirst pool fun entry => key entry == name item
    consume items rest (judge item found verdict)

variable {name key judge}

theorem consume_induct {P : σ → Prop}
    (hjudge : ∀ item found verdict, P verdict → P (judge item found verdict)) (items : List ι)
    (pool : List ρ) (h : P verdict) : P (consume name key judge items pool verdict) := by
  induction items generalizing pool verdict with
  | nil => exact h
  | cons item items ih => exact ih _ (hjudge item _ verdict h)

variable {clean : σ → Prop} {good : ι → ρ → Prop}
  (hjudge : ∀ item found verdict, clean (judge item found verdict) ↔
    clean verdict ∧ ∃ entry, found = some entry ∧ good item entry)
include hjudge

theorem of_clean_consume (h : clean (consume name key judge items pool verdict)) :
    clean verdict ∧ Covers name key items pool ∧ ∀ item ∈ items, ∃ entry, good item entry := by
  induction items generalizing pool verdict with
  | nil => exact ⟨h, ⟨[], nil_subperm, .nil⟩, by simp⟩
  | cons item items ih =>
    obtain ⟨hclean, ⟨matched, hsub, hmatch⟩, hgood⟩ := ih h
    obtain ⟨hverdict, entry, hentry, hitem⟩ := (hjudge item _ verdict).mp hclean
    have hkey : key entry = name item := by simpa using List.find?_some hentry
    refine ⟨hverdict, ⟨entry :: matched, ?_, .cons hkey hmatch⟩, ?_⟩
    · exact ((subperm_cons entry).mpr hsub).trans (perm_takeFirst hentry).symm.subperm
    · exact forall_mem_cons.mpr ⟨⟨entry, hitem⟩, hgood⟩

theorem clean_consume (hclean : clean verdict) (hcover : (items.map name).Subperm (pool.map key))
    (hgood : ∀ item ∈ items, ∀ entry ∈ pool, good item entry) :
    clean (consume name key judge items pool verdict) := by
  induction items generalizing pool verdict with
  | nil => exact hclean
  | cons item items ih =>
    have hname : name item ∈ pool.map key := hcover.subset mem_cons_self
    obtain ⟨other, hother, hkey⟩ := mem_map.mp hname
    obtain ⟨entry, hentry⟩ : ∃ entry, pool.find? (fun entry => key entry == name item) = some entry :=
      Option.isSome_iff_exists.mp (List.find?_isSome.mpr ⟨other, hother, by simpa using hkey⟩)
    have hperm := perm_takeFirst hentry
    have hsame : key entry = name item := by simpa using List.find?_some hentry
    apply ih
    · exact (hjudge item _ verdict).mpr
        ⟨hclean, entry, hentry, hgood _ mem_cons_self _ (mem_of_find?_eq_some hentry)⟩
    · rw [map_cons] at hcover
      have hcover := hcover.trans (hperm.map key).subperm
      rw [map_cons, hsame] at hcover
      exact (subperm_cons _).mp hcover
    · intro later hlater left hleft
      exact hgood later (mem_cons_of_mem _ hlater) left
        (hperm.symm.subset (mem_cons_of_mem _ hleft))

end

end Flowness.Library
