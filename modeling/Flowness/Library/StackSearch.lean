import Mathlib.Data.List.Perm.Subperm
import Mathlib.Logic.Relation

/-!
Depth-first search for one node with a stack, which stops at the first edge that leads to it. Each
node is stacked once, so as many rounds as there are nodes empty the stack.
-/

namespace Flowness.Library.StackSearch

variable {α : Type} [DecidableEq α]

/-- The nodes seen and those of them whose edges are still to be followed. -/
structure State (α : Type) where
  seen : List α
  stack : List α

/-- The edges of one node; `none` when one of them leads to the goal. -/
def push (goal : α) (state : State α) : List α → Option (State α)
  | [] => some state
  | y :: ys =>
    if y = goal then none
    else if y ∈ state.seen then push goal state ys
    else push goal { seen := y :: state.seen, stack := y :: state.stack } ys

def search (next : α → List α) (goal : α) : Nat → State α → Bool
  | 0, _ => false
  | rounds + 1, state =>
    match state.stack with
    | [] => false
    | x :: stack =>
      match push goal { state with stack } (next x) with
      | none => true
      | some state => search next goal rounds state

/-- Does some way of at least one edge lead from `start` to `goal`? -/
def reaches (next : α → List α) (nodes : List α) (start goal : α) : Bool :=
  search next goal nodes.length { seen := [start], stack := [start] }

theorem push_eq_none_iff (goal : α) (state : State α) (found : List α) :
    push goal state found = none ↔ goal ∈ found := by
  induction found generalizing state with
  | nil => simp [push]
  | cons y ys ih =>
    unfold push
    split
    next heq =>
      simp [heq]
    next hne =>
      split
      · rw [ih, List.mem_cons, or_iff_right (Ne.symm hne)]
      · rw [ih, List.mem_cons, or_iff_right (Ne.symm hne)]

theorem push_some {goal : α} {state next : State α} (h : push goal state found = some next) :
    ∃ added, next.seen = added ++ state.seen ∧ next.stack = added ++ state.stack ∧
      (∀ y ∈ added, y ∈ found) ∧ (∀ y ∈ found, y ∈ next.seen) ∧
      (state.seen.Nodup → next.seen.Nodup) := by
  induction found generalizing state with
  | nil =>
    cases h
    exact ⟨[], rfl, rfl, by simp, by simp, id⟩
  | cons y ys ih =>
    unfold push at h
    split at h
    · contradiction
    · split at h
      next hseen =>
        obtain ⟨added, hadded, hstack, hfound, hall, hnodup⟩ := ih h
        refine ⟨added, hadded, hstack, fun z hz => List.mem_cons_of_mem _ (hfound z hz), ?_, hnodup⟩
        intro z hz
        rcases List.mem_cons.mp hz with rfl | hz
        · rw [hadded]
          exact List.mem_append_right _ hseen
        · exact hall z hz
      next hseen =>
        obtain ⟨added, hadded, hstack, hfound, hall, hnodup⟩ := ih h
        refine ⟨added ++ [y], by simp [hadded], by simp [hstack], ?_, ?_, fun hold => ?_⟩
        · intro z hz
          rcases List.mem_append.mp hz with hz | hz
          · exact List.mem_cons_of_mem _ (hfound z hz)
          · simp [List.mem_singleton.mp hz]
        · intro z hz
          rcases List.mem_cons.mp hz with rfl | hz
          · rw [hadded]
            simp
          · exact hall z hz
        · exact hnodup (List.nodup_cons.mpr ⟨hseen, hold⟩)

section

variable {next : α → List α} {nodes : List α} {start goal : α}

/-- Between two rounds: the seen nodes are those some edges lead to, each once, and the edges of a
seen node that is not stacked have been followed without a sight of the goal. -/
structure Inv (next : α → List α) (nodes : List α) (start goal : α) (rounds : Nat)
    (state : State α) : Prop where
  nodup : state.seen.Nodup
  inside : ∀ x ∈ state.seen, x ∈ nodes
  sound : ∀ x ∈ state.seen, Relation.ReflTransGen (fun a b => b ∈ next a) start x
  started : start ∈ state.seen
  stacked : ∀ x ∈ state.stack, x ∈ state.seen
  followed : ∀ x ∈ state.seen, x ∈ state.stack ∨ (goal ∉ next x ∧ ∀ y ∈ next x, y ∈ state.seen)
  fuel : nodes.length + state.stack.length ≤ rounds + state.seen.length

theorem Inv.push (hnext : ∀ x ∈ nodes, ∀ y ∈ next x, y ∈ nodes)
    (h : Inv next nodes start goal (rounds + 1) state) (hstack : state.stack = x :: stack)
    (hpush : push goal { state with stack } (next x) = some after) :
    Inv next nodes start goal rounds after := by
  obtain ⟨added, hseen, hstacked, hfound, hall, hnodup⟩ := push_some hpush
  have hx : x ∈ state.seen := h.stacked x (by rw [hstack]; exact List.mem_cons_self)
  have hgoal : goal ∉ next x := by
    rw [← push_eq_none_iff goal { state with stack }, hpush]
    simp
  refine ⟨hnodup h.nodup, ?_, ?_, ?_, ?_, ?_, ?_⟩
  · intro y hy
    rw [hseen] at hy
    rcases List.mem_append.mp hy with hy | hy
    · exact hnext x (h.inside x hx) y (hfound y hy)
    · exact h.inside y hy
  · intro y hy
    rw [hseen] at hy
    rcases List.mem_append.mp hy with hy | hy
    · exact (h.sound x hx).tail (hfound y hy)
    · exact h.sound y hy
  · rw [hseen]
    exact List.mem_append_right _ h.started
  · intro y hy
    rw [hstacked] at hy
    rw [hseen]
    rcases List.mem_append.mp hy with hy | hy
    · exact List.mem_append_left _ hy
    · exact List.mem_append_right _ (h.stacked y (by rw [hstack]; exact List.mem_cons_of_mem _ hy))
  · intro y hy
    rw [hseen] at hy
    rw [hstacked]
    rcases List.mem_append.mp hy with hy | hy
    · exact .inl (List.mem_append_left _ hy)
    · rcases h.followed y hy with hwaits | ⟨hno, hsucc⟩
      · rw [hstack] at hwaits
        rcases List.mem_cons.mp hwaits with rfl | hwaits
        · exact .inr ⟨hgoal, hall⟩
        · exact .inl (List.mem_append_right _ hwaits)
      · refine .inr ⟨hno, fun z hz => ?_⟩
        rw [hseen]
        exact List.mem_append_right _ (hsucc z hz)
  · have hfuel := h.fuel
    rw [hstack, List.length_cons] at hfuel
    rw [hseen, hstacked, List.length_append, List.length_append]
    dsimp only
    omega

omit [DecidableEq α] in
theorem Inv.unreached {rounds : Nat} {state : State α} (h : Inv next nodes start goal rounds state)
    (hstack : state.stack = []) : ¬Relation.TransGen (fun a b => b ∈ next a) start goal := by
  have hclosed : ∀ x ∈ state.seen, goal ∉ next x ∧ ∀ y ∈ next x, y ∈ state.seen := by
    intro x hx
    rcases h.followed x hx with hwaits | hdone
    · rw [hstack] at hwaits
      contradiction
    · exact hdone
  intro hpath
  obtain ⟨last, hpath, hedge⟩ := Relation.TransGen.tail'_iff.mp hpath
  have hlast : last ∈ state.seen := by
    clear hedge
    induction hpath with
    | refl => exact h.started
    | tail _ hstep ih => exact (hclosed _ ih).2 _ hstep
  exact (hclosed last hlast).1 hedge

theorem search_iff (hnext : ∀ x ∈ nodes, ∀ y ∈ next x, y ∈ nodes)
    (h : Inv next nodes start goal rounds state) :
    search next goal rounds state = true ↔ Relation.TransGen (fun a b => b ∈ next a) start goal := by
  induction rounds generalizing state with
  | zero =>
    have hshort := (h.nodup.subperm h.inside).length_le
    have hfuel := h.fuel
    have hempty : state.stack = [] := List.length_eq_zero_iff.mp (by omega)
    simp [search, h.unreached hempty]
  | succ rounds ih =>
    unfold search
    split
    next hstack =>
      simp [h.unreached hstack]
    next x stack hstack =>
      split
      next hnone =>
        have hx : x ∈ state.seen := h.stacked x (by rw [hstack]; exact List.mem_cons_self)
        have hedge := (push_eq_none_iff _ _ _).mp hnone
        simp [Relation.TransGen.tail' (h.sound x hx) hedge]
      next after hafter =>
        exact ih (h.push hnext hstack hafter)

/-- The search decides whether a way of at least one edge leads to the goal. -/
theorem reaches_iff (hnext : ∀ x ∈ nodes, ∀ y ∈ next x, y ∈ nodes) (hstart : start ∈ nodes) :
    reaches next nodes start goal = true ↔
      Relation.TransGen (fun a b => b ∈ next a) start goal := by
  refine search_iff hnext ⟨by simp, ?_, ?_, by simp, by simp, by simp, ?_⟩
  · intro x hx
    rwa [List.mem_singleton.mp hx]
  · intro x hx
    rw [List.mem_singleton.mp hx]
  · simp

end

end Flowness.Library.StackSearch
