import Mathlib.Data.List.Nodup
import Mathlib.Order.Nat

/-!
Breadth-first search by levels, up to a bound: level `n` finds the nodes at distance `n`.
-/

namespace Flowness.Library.LevelSearch

open List

variable {α : Type}

section

variable (step : α → α → Prop)

/-- Some way of `n` edges leads from `start` to a node. -/
def Way (start : α) : Nat → α → Prop
  | 0, x => x = start
  | n + 1, x => ∃ y, Way start n y ∧ step y x

/-- The shortest way has `n` edges. -/
def AtDistance (start : α) (n : Nat) (x : α) : Prop :=
  Way step start n x ∧ ∀ m < n, ¬Way step start m x

end

variable [DecidableEq α]

/-- The nodes seen, those found beside the start, and those of the last level. -/
structure State (α : Type) where
  seen : List α
  affected : List α
  frontier : List α

/-- One node that an edge leads to. -/
def note (state : State α) (x : α) : State α :=
  if x ∈ state.seen then state
  else
    { seen := x :: state.seen
      affected := state.affected ++ [x]
      frontier := state.frontier ++ [x] }

def level (next : α → List α) (state : State α) : State α :=
  (state.frontier.flatMap next).foldl note { state with frontier := [] }

/-- The levels up to the bound; an empty level ends the search. -/
def levels (next : α → List α) : Nat → State α → State α
  | 0, state => state
  | depth + 1, state =>
    let after := level next state
    if after.frontier = [] then after else levels next depth after

/-- The nodes found within `depth` levels. -/
def within (next : α → List α) (start : α) (depth : Nat) : List α :=
  (levels next depth { seen := [start], affected := [], frontier := [start] }).affected

section

variable {step : α → α → Prop} {start : α}

omit [DecidableEq α]

theorem atDistance_zero : AtDistance step start 0 x ↔ x = start :=
  ⟨fun h => h.1, fun h => ⟨h, fun _ hm => absurd hm (Nat.not_lt_zero _)⟩⟩

theorem AtDistance.unique (hm : AtDistance step start m x) (hn : AtDistance step start n x) :
    m = n := by
  rcases Nat.lt_trichotomy m n with hlt | heq | hlt
  · exact absurd hm.1 (hn.2 m hlt)
  · exact heq
  · exact absurd hn.1 (hm.2 n hlt)

theorem Way.atDistance (h : Way step start n x) : ∃ m ≤ n, AtDistance step start m x := by
  induction n using Nat.strongRecOn with
  | _ n ih =>
    by_cases hshorter : ∃ m < n, Way step start m x
    · obtain ⟨m, hlt, hway⟩ := hshorter
      obtain ⟨k, hle, hdistance⟩ := ih m hlt hway
      exact ⟨k, hle.trans (Nat.le_of_lt hlt), hdistance⟩
    · push Not at hshorter
      exact ⟨n, le_rfl, h, hshorter⟩

theorem atDistance_succ : AtDistance step start (n + 1) x ↔
      (∃ y, AtDistance step start n y ∧ step y x) ∧ ∀ m ≤ n, ¬AtDistance step start m x := by
  constructor
  · intro h
    have hfar : ∀ m ≤ n, ¬Way step start m x := fun m hm => h.2 m (Nat.lt_succ_of_le hm)
    obtain ⟨y, hway, hedge⟩ := h.1
    obtain ⟨k, hle, hdistance⟩ := hway.atDistance
    have hk : k = n := by
      refine le_antisymm hle (Nat.le_of_not_lt fun hlt => ?_)
      exact hfar (k + 1) hlt ⟨y, hdistance.1, hedge⟩
    exact ⟨⟨y, hk ▸ hdistance, hedge⟩, fun m hm hat => hfar m hm hat.1⟩
  · intro h
    obtain ⟨⟨y, hdistance, hedge⟩, hfar⟩ := h
    refine ⟨⟨y, hdistance.1, hedge⟩, fun m hm hway => ?_⟩
    obtain ⟨k, hle, hat⟩ := hway.atDistance
    exact hfar k (hle.trans (Nat.le_of_lt_succ hm)) hat

theorem atDistance_of_empty (hempty : ∀ x, ¬AtDistance step start n x) (more : Nat) (x : α) :
    ¬AtDistance step start (n + more) x := by
  induction more generalizing x with
  | zero => exact hempty x
  | succ more ih =>
    intro h
    obtain ⟨⟨y, hdistance, -⟩, -⟩ := atDistance_succ.mp h
    exact ih y hdistance

end

theorem foldl_note (found : List α) (state : State α) :
    ∃ added, (found.foldl note state).frontier = state.frontier ++ added ∧
      (found.foldl note state).affected = state.affected ++ added ∧
      (∀ x, x ∈ (found.foldl note state).seen ↔ x ∈ state.seen ∨ x ∈ added) ∧
      added.Nodup ∧ ∀ x, x ∈ added ↔ x ∈ found ∧ x ∉ state.seen := by
  induction found generalizing state with
  | nil => exact ⟨[], by simp⟩
  | cons y found ih =>
    rw [foldl_cons]
    by_cases hseen : y ∈ state.seen
    · obtain ⟨added, hfrontier, haffected, hmem, hnodup, hadded⟩ := ih state
      have hnote : note state y = state := if_pos hseen
      rw [hnote]
      refine ⟨added, hfrontier, haffected, hmem, hnodup, fun x => ?_⟩
      rw [hadded, mem_cons]
      have hnew : x ∉ state.seen → x ≠ y := fun hx heq => hx (heq ▸ hseen)
      tauto
    · obtain ⟨added, hfrontier, haffected, hmem, hnodup, hadded⟩ := ih (note state y)
      have hnote : note state y = ⟨y :: state.seen, state.affected ++ [y], state.frontier ++ [y]⟩ :=
        if_neg hseen
      rw [hnote] at hfrontier haffected hmem hadded ⊢
      have hfresh : y ∉ added := fun hy => ((hadded y).mp hy).2 mem_cons_self
      refine ⟨y :: added, ?_, ?_, fun x => ?_, nodup_cons.mpr ⟨hfresh, hnodup⟩, fun x => ?_⟩
      · rw [hfrontier, append_assoc, singleton_append]
      · rw [haffected, append_assoc, singleton_append]
      · rw [hmem, mem_cons, mem_cons]
        tauto
      · rw [mem_cons, hadded, mem_cons, mem_cons]
        by_cases hx : x = y
        · simp [hx, hseen]
        · simp [hx]

/-- After `n` levels. -/
structure Inv (next : α → List α) (start : α) (n : Nat) (state : State α) : Prop where
  seen : ∀ x, x ∈ state.seen ↔ ∃ m ≤ n, AtDistance (fun y x => x ∈ next y) start m x
  frontier : ∀ x, x ∈ state.frontier ↔ AtDistance (fun y x => x ∈ next y) start n x
  affected : ∀ x, x ∈ state.affected ↔ ∃ m, 1 ≤ m ∧ m ≤ n ∧ AtDistance (fun y x => x ∈ next y) start m x
  nodup : state.affected.Nodup

theorem Inv.level {next : α → List α} {start : α} (h : Inv next start n state) :
    Inv next start (n + 1) (level next state) := by
  obtain ⟨added, hfrontier, haffected, hmem, hnodup, hadded⟩ :=
    foldl_note (state.frontier.flatMap next) { state with frontier := [] }
  rw [nil_append] at hfrontier
  have hlevel : ∀ x, x ∈ added ↔ AtDistance (fun y x => x ∈ next y) start (n + 1) x := by
    intro x
    rw [hadded, atDistance_succ, mem_flatMap]
    simp [h.frontier, h.seen]
  refine ⟨fun x => ?_, fun x => ?_, fun x => ?_, ?_⟩
  · rw [LevelSearch.level, hmem, hlevel, h.seen]
    constructor
    · intro hx
      rcases hx with ⟨m, hm, hat⟩ | hat
      · exact ⟨m, hm.trans n.le_succ, hat⟩
      · exact ⟨n + 1, le_rfl, hat⟩
    · intro hx
      obtain ⟨m, hm, hat⟩ := hx
      rcases Nat.le_succ_iff.mp hm with hm | rfl
      · exact .inl ⟨m, hm, hat⟩
      · exact .inr hat
  · rw [LevelSearch.level, hfrontier, hlevel]
  · rw [LevelSearch.level, haffected, mem_append, hlevel, h.affected]
    constructor
    · intro hx
      rcases hx with ⟨m, hpos, hm, hat⟩ | hat
      · exact ⟨m, hpos, hm.trans n.le_succ, hat⟩
      · exact ⟨n + 1, Nat.succ_pos n, le_rfl, hat⟩
    · intro hx
      obtain ⟨m, hpos, hm, hat⟩ := hx
      rcases Nat.le_succ_iff.mp hm with hm | rfl
      · exact .inl ⟨m, hpos, hm, hat⟩
      · exact .inr hat
  · rw [LevelSearch.level, haffected]
    refine nodup_append.mpr ⟨h.nodup, hnodup, fun x hx y hy heq => ?_⟩
    obtain ⟨m, -, hm, hat⟩ := (h.affected x).mp hx
    have := hat.unique ((hlevel x).mp (heq ▸ hy))
    omega

theorem Inv.levels {next : α → List α} {start : α} (depth : Nat) (h : Inv next start n state) :
    (levels next depth state).affected.Nodup ∧
      ∀ x, x ∈ (levels next depth state).affected ↔
        ∃ m, 1 ≤ m ∧ m ≤ n + depth ∧ AtDistance (fun y x => x ∈ next y) start m x := by
  induction depth generalizing n state with
  | zero => exact ⟨h.nodup, h.affected⟩
  | succ depth ih =>
    have hlevel := h.level
    unfold LevelSearch.levels
    dsimp only
    split
    next hempty =>
      refine ⟨hlevel.nodup, fun x => (hlevel.affected x).trans ?_⟩
      have hnone : ∀ x, ¬AtDistance (fun y x => x ∈ next y) start (n + 1) x := by
        intro x
        rw [← hlevel.frontier, hempty]
        exact not_mem_nil
      constructor
      · intro hx
        obtain ⟨m, hpos, hm, hat⟩ := hx
        exact ⟨m, hpos, by omega, hat⟩
      · intro hx
        obtain ⟨m, hpos, hm, hat⟩ := hx
        refine ⟨m, hpos, Nat.le_of_not_lt fun hlt => ?_, hat⟩
        obtain ⟨more, hmore⟩ := Nat.exists_eq_add_of_le (Nat.le_of_lt hlt)
        rw [hmore] at hat
        exact atDistance_of_empty hnone more x hat
    · have hcount : n + (depth + 1) = n + 1 + depth := by omega
      rw [hcount]
      exact ih hlevel

omit [DecidableEq α] in
theorem inv_start (next : α → List α) (start : α) :
    Inv next start 0 { seen := [start], affected := [], frontier := [start] } := by
  refine ⟨fun x => ?_, fun x => ?_, fun x => ?_, List.nodup_nil⟩
  · simp [atDistance_zero]
  · simp [atDistance_zero]
  · simp only [List.not_mem_nil, false_iff, not_exists, not_and]
    intro m hpos hm
    omega

theorem within_nodup (next : α → List α) (start : α) (depth : Nat) :
    (within next start depth).Nodup :=
  ((inv_start next start).levels depth).1

theorem mem_within {next : α → List α} {start : α} :
    x ∈ within next start depth ↔ ∃ n, 1 ≤ n ∧ n ≤ depth ∧ AtDistance (fun y x => x ∈ next y) start n x := by
  have h := ((inv_start next start).levels depth).2 x
  rwa [Nat.zero_add] at h

theorem start_not_mem_within {next : α → List α} {start : α} : start ∉ within next start depth := by
  intro hmem
  obtain ⟨n, hpos, -, hat⟩ := mem_within.mp hmem
  have := hat.unique (atDistance_zero.mpr rfl)
  omega

end Flowness.Library.LevelSearch
