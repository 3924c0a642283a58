import Flowness.Library.LevelSearch
import Mathlib.Data.List.Perm.Subperm

/-!
Breadth-first search with a queue over labelled edges, up to a bound: each node is reported once,
with its distance and the labels of a way to it. Queue order is level order.
-/

namespace Flowness.Library.QueueSearch

open List LevelSearch

variable {α β : Type}

structure Hit (α β : Type) where
  node : α
  depth : Nat
  path : List β

structure State (α β : Type) where
  visited : List α
  results : List (Hit α β)
  queue : List (Hit α β)

section

variable (next : α → List (α × β))

/-- The labels lead along edges from the start to a node. -/
inductive Leads (start : α) : List β → α → Prop
  | start : Leads start [] start
  | snoc {path : List β} {y x : α} {label : β} (way : Leads start path y)
      (edge : (x, label) ∈ next y) : Leads start (path ++ [label]) x

def nodesAfter (y : α) : List α := (next y).map Prod.fst

variable [DecidableEq α]

def visit (item : Hit α β) (state : State α β) (edge : α × β) : State α β :=
  if edge.1 ∈ state.visited then state
  else
    let hit : Hit α β := ⟨edge.1, item.depth + 1, item.path ++ [edge.2]⟩
    { visited := edge.1 :: state.visited
      results := state.results ++ [hit]
      queue := state.queue ++ [hit] }

variable (bound : Nat)

def pop (state : State α β) (item : Hit α β) : State α β :=
  if bound ≤ item.depth then state else (next item.node).foldl (visit item) state

def run : Nat → State α β → State α β
  | 0, state => state
  | fuel + 1, state =>
    match state.queue with
    | [] => state
    | item :: rest => run fuel (pop next bound { state with queue := rest } item)

def bfs (fuel : Nat) (start : α) : List (Hit α β) :=
  (run next bound fuel { visited := [start], results := [], queue := [⟨start, 0, []⟩] }).results

end

variable [DecidableEq α] {next : α → List (α × β)} {bound : Nat}

def State.ahead (front : List (Hit α β)) (state : State α β) : State α β :=
  { state with queue := front ++ state.queue }

section

variable (front : List (Hit α β))

theorem visit_ahead (state : State α β) (item : Hit α β) (edge : α × β) :
    visit item (state.ahead front) edge = (visit item state edge).ahead front := by
  unfold visit State.ahead
  split_ifs
  · rfl
  · simp only [append_assoc]

theorem foldl_visit_ahead (item : Hit α β) (edges : List (α × β)) (state : State α β) :
    edges.foldl (visit item) (state.ahead front) =
      (edges.foldl (visit item) state).ahead front := by
  induction edges generalizing state with
  | nil => rfl
  | cons edge edges ih => rw [foldl_cons, foldl_cons, visit_ahead, ih]

theorem pop_ahead (state : State α β) (item : Hit α β) :
    pop next bound (state.ahead front) item = (pop next bound state item).ahead front := by
  unfold pop
  split_ifs
  · rfl
  · exact foldl_visit_ahead _ _ _ _

end

variable (next bound) in
theorem run_level (fuel : Nat) (items : List (Hit α β)) (state : State α β) :
    run next bound (fuel + items.length) (state.ahead items) =
      run next bound fuel (items.foldl (pop next bound) state) := by
  induction items generalizing state with
  | nil => rfl
  | cons item items ih =>
    rw [List.length_cons, List.foldl_cons, ← ih, ← pop_ahead]
    rfl

/-- Items at the bound are dropped. -/
theorem run_results (h : ∀ item ∈ state.queue, bound ≤ item.depth) :
    (run next bound fuel state).results = state.results := by
  induction fuel generalizing state with
  | zero => rfl
  | succ fuel ih =>
    unfold run
    split
    next => rfl
    next item rest hqueue =>
      rw [hqueue] at h
      rw [pop, if_pos (h item mem_cons_self),
        ih fun other hother => h other (mem_cons_of_mem _ hother)]

/-- The search by levels that the search with a queue goes through. -/
def State.level (state : State α β) : LevelSearch.State α where
  seen := state.visited
  affected := state.results.map Hit.node
  frontier := state.queue.map Hit.node

theorem level_visit (item : Hit α β) (state : State α β) (edge : α × β) :
    (visit item state edge).level = note state.level edge.1 := by
  unfold visit note State.level
  split_ifs
  · rfl
  · simp

theorem level_foldl_visit (item : Hit α β) (edges : List (α × β)) (state : State α β) :
    (edges.foldl (visit item) state).level = (edges.map Prod.fst).foldl note state.level := by
  induction edges generalizing state with
  | nil => rfl
  | cons edge edges ih => rw [foldl_cons, map_cons, foldl_cons, ih, level_visit]

theorem level_foldl_pop {items : List (Hit α β)} (h : ∀ item ∈ items, item.depth < bound)
    (state : State α β) : (items.foldl (pop next bound) state).level =
      ((items.map Hit.node).flatMap (nodesAfter next)).foldl note state.level := by
  induction items generalizing state with
  | nil => rfl
  | cons item items ih =>
    have hdepth := h item mem_cons_self
    rw [foldl_cons, ih fun other hother => h other (mem_cons_of_mem _ hother), pop,
      if_neg (by omega), level_foldl_visit, map_cons, flatMap_cons, foldl_append]
    rfl

/-- A way of `n` labels to the node of an item. -/
structure Reaches (next : α → List (α × β)) (start : α) (n : Nat) (hit : Hit α β) : Prop where
  depth : hit.depth = n
  length : hit.path.length = n
  way : Leads next start hit.path hit.node

/-- What is found and what is queued grow by the same hits. -/
def Adds (next : α → List (α × β)) (start : α) (n : Nat) (before after : State α β) : Prop :=
  ∃ added : List (Hit α β), after.results = before.results ++ added ∧
    after.queue = before.queue ++ added ∧
    ∀ hit ∈ added, Reaches next start n hit

variable {start : α} {n : Nat}

omit [DecidableEq α] in
theorem Adds.refl (state : State α β) : Adds next start n state state := ⟨[], by simp⟩

omit [DecidableEq α] in
theorem Adds.trans {first second third : State α β} (h : Adds next start n first second)
    (hthen : Adds next start n second third) : Adds next start n first third := by
  obtain ⟨added, hresults, hqueue, hadded⟩ := h
  obtain ⟨more, hresults', hqueue', hmore⟩ := hthen
  refine ⟨added ++ more, ?_, ?_, ?_⟩
  · rw [hresults', hresults, List.append_assoc]
  · rw [hqueue', hqueue, List.append_assoc]
  · intro hit hhit
    exact (List.mem_append.mp hhit).elim (hadded hit) (hmore hit)

theorem adds_visit (hitem : Reaches next start n item) (hedge : edge ∈ next item.node)
    (state : State α β) : Adds next start (n + 1) state (visit item state edge) := by
  unfold visit
  split_ifs
  · exact Adds.refl state
  · refine ⟨_, rfl, rfl, ?_⟩
    intro hit hhit
    cases mem_singleton.mp hhit
    exact ⟨by rw [hitem.depth], by simp [hitem.length], hitem.way.snoc hedge⟩

theorem adds_foldl_visit (hitem : Reaches next start n item) {edges : List (α × β)}
    (hedges : ∀ edge ∈ edges, edge ∈ next item.node) (state : State α β) :
    Adds next start (n + 1) state (edges.foldl (visit item) state) := by
  induction edges generalizing state with
  | nil => exact Adds.refl state
  | cons edge edges ih =>
    exact (adds_visit hitem (hedges edge mem_cons_self) state).trans
      (ih (fun other hother => hedges other (mem_cons_of_mem _ hother)) _)

theorem adds_foldl_pop {items : List (Hit α β)} (hitems : ∀ item ∈ items, Reaches next start n item)
    (state : State α β) : Adds next start (n + 1) state (items.foldl (pop next bound) state) := by
  induction items generalizing state with
  | nil => exact Adds.refl state
  | cons item items ih =>
    apply Adds.trans ?_ (ih (fun other hother => hitems other (mem_cons_of_mem _ hother)) _)
    unfold pop
    split_ifs
    · exact Adds.refl state
    · exact adds_foldl_visit (hitems item mem_cons_self) (fun _ h => h) state

/-- After `n` levels. -/
structure QueueInv (next : α → List (α × β)) (start : α) (n : Nat) (state : State α β) : Prop where
  level : LevelSearch.Inv (nodesAfter next) start n state.level
  results : ∀ hit ∈ state.results, ∃ m, 1 ≤ m ∧ m ≤ n ∧ Reaches next start m hit ∧
    AtDistance (fun y x => x ∈ nodesAfter next y) start m hit.node
  queue : ∀ hit ∈ state.queue, Reaches next start n hit

theorem QueueInv.advance {state : State α β} (h : QueueInv next start n state) (hbound : n < bound) :
    let after := state.queue.foldl (pop next bound) { state with queue := [] }
    QueueInv next start (n + 1) after ∧
      after.results.length = state.results.length + after.queue.length := by
  intro after
  have hadds : Adds next start (n + 1) { state with queue := [] } after := adds_foldl_pop h.queue _
  obtain ⟨added, hresults, hqueue, hadded⟩ := hadds
  rw [nil_append] at hqueue
  have hlevel : after.level = LevelSearch.level (nodesAfter next) state.level := by
    apply level_foldl_pop
    intro item hitem
    rw [(h.queue item hitem).depth]
    exact hbound
  have hnext : LevelSearch.Inv (nodesAfter next) start (n + 1) after.level := hlevel ▸ h.level.level
  refine ⟨⟨hnext, ?_, ?_⟩, by rw [hresults, hqueue, length_append]⟩
  · intro hit hhit
    rw [hresults] at hhit
    rcases mem_append.mp hhit with hhit | hhit
    · obtain ⟨m, hpos, hle, hreaches, hat⟩ := h.results hit hhit
      exact ⟨m, hpos, hle.trans n.le_succ, hreaches, hat⟩
    · refine ⟨n + 1, Nat.succ_pos n, le_rfl, hadded hit hhit, ?_⟩
      apply (hnext.frontier hit.node).mp
      exact mem_map_of_mem (hqueue ▸ hhit)
  · intro hit hhit
    exact hadded hit (hqueue ▸ hhit)

theorem QueueInv.length_results {targets : List α} {state : State α β}
    (htargets : ∀ y, ∀ edge ∈ next y, edge.1 ∈ targets) (h : QueueInv next start n state) :
    state.results.length ≤ targets.length := by
  have hsubset : state.results.map Hit.node ⊆ targets := by
    intro x hx
    obtain ⟨hit, hhit, rfl⟩ := mem_map.mp hx
    obtain ⟨m, hpos, -, hreaches, -⟩ := h.results hit hhit
    obtain ⟨hlength, hway⟩ := And.intro hreaches.length hreaches.way
    generalize hit.path = path at hlength hway
    cases hway with
    | start =>
      rw [length_nil] at hlength
      omega
    | snoc _ edge => exact htargets _ _ edge
  have hle := (h.level.nodup.subperm hsubset).length_le
  rwa [State.level, length_map] at hle

section

variable {targets : List α} (htargets : ∀ y, ∀ edge ∈ next y, edge.1 ∈ targets)
include htargets

/-- With fuel for every target, the bounded search ends in a state after the last level. -/
theorem QueueInv.run (more : Nat) {fuel : Nat} {state : State α β} (h : QueueInv next start n state)
    (hbound : bound = n + more)
    (hfuel : state.queue.length + targets.length ≤ fuel + state.results.length) :
    ∃ final, (QueueSearch.run next bound fuel state).results = final.results ∧
      QueueInv next start bound final := by
  induction more generalizing n fuel state with
  | zero =>
    subst hbound
    exact ⟨state, run_results fun item hitem => (h.queue item hitem).depth.ge, h⟩
  | succ more ih =>
    obtain ⟨hnext, hlength⟩ := h.advance (show n < bound by omega)
    have hle := h.length_results htargets
    obtain ⟨rest, rfl⟩ := Nat.exists_eq_add_of_le' (show state.queue.length ≤ fuel by omega)
    have hlevel := run_level next bound rest state.queue
      { state with queue := [] }
    rw [State.ahead, append_nil] at hlevel
    rw [hlevel]
    exact ih hnext (by omega) (by omega)

/-- Each node within the bound once, at its distance and with a way to it. -/
theorem bfs_exact {fuel : Nat} (hfuel : targets.length < fuel) (bound : Nat) (start : α) :
    ((bfs next bound fuel start).map Hit.node).Nodup ∧
      (∀ hit ∈ bfs next bound fuel start, ∃ m, 1 ≤ m ∧ m ≤ bound ∧ Reaches next start m hit ∧
        AtDistance (fun y x => x ∈ nodesAfter next y) start m hit.node) ∧
      ∀ x m, 1 ≤ m → m ≤ bound → AtDistance (fun y x => x ∈ nodesAfter next y) start m x →
        x ∈ (bfs next bound fuel start).map Hit.node := by
  have hstart : QueueInv next start 0
      { visited := [start], results := [], queue := [⟨start, 0, []⟩] } := by
    refine ⟨inv_start _ start, by simp, ?_⟩
    intro hit hhit
    cases mem_singleton.mp hhit
    exact ⟨rfl, rfl, .start⟩
  obtain ⟨final, hresults, hfinal⟩ :=
    hstart.run htargets bound (Nat.zero_add bound).symm (show 1 + targets.length ≤ fuel + 0 by omega)
  rw [bfs, hresults]
  refine ⟨hfinal.level.nodup, hfinal.results, ?_⟩
  intro x m hpos hle hat
  exact (hfinal.level.affected x).mpr ⟨m, hpos, hle, hat⟩

end

end Flowness.Library.QueueSearch
