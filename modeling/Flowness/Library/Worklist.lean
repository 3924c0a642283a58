import Mathlib.Data.List.Perm.Subperm
import Mathlib.Logic.Relation
import Mathlib.Order.Bounds.Basic

/-!
Search of a finite graph from some seeds with a queue. Each node is queued once, so as many rounds
as there are nodes empty the queue.
-/

namespace Flowness.Library.Worklist

open List

variable {α : Type} [DecidableEq α]

/-- The nodes found and those of them whose edges are still to be followed. -/
structure State (α : Type) where
  reached : List α
  queue : List α

def enqueue (state : State α) : List α → State α
  | [] => state
  | x :: xs =>
    if x ∈ state.reached then enqueue state xs
    else enqueue { reached := state.reached ++ [x], queue := state.queue ++ [x] } xs

def explore (next : α → List α) : Nat → State α → List α
  | 0, state => state.reached
  | fuel + 1, state =>
    match state.queue with
    | [] => state.reached
    | x :: queue => explore next fuel (enqueue { state with queue } (next x))

/-- The nodes that some edges lead to from the seeds; a seed counts once. -/
def closure (next : α → List α) (nodes seeds : List α) : List α :=
  explore next nodes.length (enqueue { reached := [], queue := [] } seeds)

theorem mem_reached_enqueue (state : State α) (found : List α) (y : α) :
    y ∈ (enqueue state found).reached ↔ y ∈ state.reached ∨ y ∈ found := by
  induction found generalizing state with
  | nil => simp [enqueue]
  | cons x xs ih =>
    unfold enqueue
    split
    next hx =>
      rw [ih, mem_cons]
      constructor
      · rintro (h | h)
        · exact .inl h
        · exact .inr (.inr h)
      · rintro (h | rfl | h)
        · exact .inl h
        · exact .inl hx
        · exact .inr h
    · rw [ih]
      simp [or_assoc]

theorem enqueue_added (state : State α) (found : List α) :
    ∃ added, (enqueue state found).reached = state.reached ++ added ∧
      (enqueue state found).queue = state.queue ++ added ∧
      (state.reached.Nodup → (state.reached ++ added).Nodup) := by
  induction found generalizing state with
  | nil => exact ⟨[], by simp [enqueue]⟩
  | cons x xs ih =>
    unfold enqueue
    split
    · exact ih state
    next hx =>
      obtain ⟨added, hreached, hqueue, hnodup⟩ :=
        ih { reached := state.reached ++ [x], queue := state.queue ++ [x] }
      refine ⟨x :: added, by simp [hreached], by simp [hqueue], fun h => ?_⟩
      have hcons : (state.reached ++ [x]).Nodup :=
        nodup_append.mpr ⟨h, by simp, fun a ha b hb => by
          rw [mem_singleton.mp hb]
          rintro rfl
          exact hx ha⟩
      simpa using hnodup hcons

section

variable {next : α → List α} {nodes seeds : List α}

/-- What holds between two rounds: only nodes that edges lead to are reached, each once, and the
edges of a reached node that is not queued have been followed. -/
structure Inv (next : α → List α) (nodes seeds : List α) (fuel : Nat) (state : State α) : Prop where
  nodup : state.reached.Nodup
  inside : ∀ x ∈ state.reached, x ∈ nodes
  sound : ∀ x ∈ state.reached, ∃ seed ∈ seeds, Relation.ReflTransGen (fun a b => b ∈ next a) seed x
  seeded : ∀ seed ∈ seeds, seed ∈ state.reached
  closed : ∀ x ∈ state.reached, x ∈ state.queue ∨ ∀ y ∈ next x, y ∈ state.reached
  queued : ∀ x ∈ state.queue, x ∈ state.reached
  rounds : nodes.length + state.queue.length ≤ fuel + state.reached.length

theorem Inv.start (hseeds : ∀ seed ∈ seeds, seed ∈ nodes) :
    Inv next nodes seeds nodes.length (enqueue { reached := [], queue := [] } seeds) := by
  obtain ⟨added, hreached, hqueue, hnodup⟩ := enqueue_added ({ reached := [], queue := [] } : State α) seeds
  have hmem : ∀ y, y ∈ added ↔ y ∈ seeds := by
    intro y
    have h := mem_reached_enqueue ({ reached := [], queue := [] } : State α) seeds y
    rw [hreached] at h
    simpa using h
  generalize enqueue ({ reached := [], queue := [] } : State α) seeds = state at hreached hqueue ⊢
  obtain ⟨reached, queue⟩ := state
  cases hreached
  cases hqueue
  exact ⟨hnodup nodup_nil, fun x hx => hseeds x ((hmem x).mp hx),
    fun x hx => ⟨x, (hmem x).mp hx, Relation.ReflTransGen.refl⟩,
    fun seed hseed => (hmem seed).mpr hseed, fun x hx => .inl hx, fun x hx => hx, Nat.le_refl _⟩

theorem Inv.step {fuel : Nat} {state : State α} {x : α} {queue : List α}
    (hnext : ∀ x ∈ nodes, ∀ y ∈ next x, y ∈ nodes) (h : Inv next nodes seeds (fuel + 1) state)
    (hqueue : state.queue = x :: queue) :
    Inv next nodes seeds fuel (enqueue { state with queue } (next x)) := by
  have hx : x ∈ state.reached := h.queued x (by rw [hqueue]; exact mem_cons_self)
  obtain ⟨added, hreached, hadded, hnodup⟩ := enqueue_added { state with queue } (next x)
  have hmem := mem_reached_enqueue { state with queue } (next x)
  refine ⟨?_, ?_, ?_, ?_, ?_, ?_, ?_⟩
  · rw [hreached]
    exact hnodup h.nodup
  · intro y hy
    rcases (hmem y).mp hy with hy | hy
    · exact h.inside y hy
    · exact hnext x (h.inside x hx) y hy
  · intro y hy
    rcases (hmem y).mp hy with hy | hy
    · exact h.sound y hy
    · obtain ⟨seed, hseed, hpath⟩ := h.sound x hx
      exact ⟨seed, hseed, hpath.tail hy⟩
  · exact fun seed hseed => (hmem seed).mpr (.inl (h.seeded seed hseed))
  · intro y hy
    rw [hreached] at hy
    rw [hadded]
    rcases mem_append.mp hy with hy | hy
    · by_cases hyx : y = x
      · subst hyx
        exact .inr fun z hz => (hmem z).mpr (.inr hz)
      · rcases h.closed y hy with hin | hall
        · rw [hqueue] at hin
          rcases mem_cons.mp hin with rfl | hin
          · contradiction
          · exact .inl (mem_append_left _ hin)
        · exact .inr fun z hz => (hmem z).mpr (.inl (hall z hz))
    · exact .inl (mem_append_right _ hy)
  · intro y hy
    rw [hreached]
    rw [hadded] at hy
    rcases mem_append.mp hy with hy | hy
    · exact mem_append_left _ (h.queued y (by rw [hqueue]; exact mem_cons_of_mem _ hy))
    · exact mem_append_right _ hy
  · have hrounds := h.rounds
    rw [hqueue] at hrounds
    rw [hreached, hadded]
    simp only [length_append, length_cons] at hrounds ⊢
    omega

omit [DecidableEq α] in
private theorem Inv.reached_of_path {fuel : Nat} {state : State α}
    (h : Inv next nodes seeds fuel state) (hqueue : state.queue = []) {seed y : α}
    (hseed : seed ∈ seeds) (hpath : Relation.ReflTransGen (fun a b => b ∈ next a) seed y) :
    y ∈ state.reached := by
  induction hpath with
  | refl => exact h.seeded seed hseed
  | tail _ hedge ih =>
    rcases h.closed _ ih with hin | hall
    · rw [hqueue] at hin
      contradiction
    · exact hall _ hedge

private theorem Inv.mem_explore (hnext : ∀ x ∈ nodes, ∀ y ∈ next x, y ∈ nodes) {fuel : Nat}
    {state : State α} (h : Inv next nodes seeds fuel state) (y : α) :
    y ∈ explore next fuel state ↔
      ∃ seed ∈ seeds, Relation.ReflTransGen (fun a b => b ∈ next a) seed y := by
  induction fuel generalizing state with
  | zero =>
    have hlength := (h.nodup.subperm h.inside).length_le
    have hrounds := h.rounds
    have hempty : state.queue = [] := length_eq_zero_iff.mp (by omega)
    exact ⟨h.sound y, fun ⟨seed, hseed, hpath⟩ => h.reached_of_path hempty hseed hpath⟩
  | succ fuel ih =>
    unfold explore
    split
    next hempty =>
      exact ⟨h.sound y, fun ⟨seed, hseed, hpath⟩ => h.reached_of_path hempty hseed hpath⟩
    next x queue hqueue =>
      exact ih (h.step hnext hqueue)

/-- One turn of the loop, which takes the first node off the queue. -/
def Round (next : α → List α) (state after : State α) : Prop :=
  ∃ x queue, state.queue = x :: queue ∧ after = enqueue { state with queue } (next x)

private theorem Inv.drained (hnext : ∀ x ∈ nodes, ∀ y ∈ next x, y ∈ nodes) {fuel : Nat}
    {state : State α} (h : Inv next nodes seeds fuel state) :
    ∃ final, Relation.ReflTransGen (Round next) state final ∧ final.queue = [] ∧
      explore next fuel state = final.reached := by
  induction fuel generalizing state with
  | zero =>
    have hlength := (h.nodup.subperm h.inside).length_le
    have hrounds := h.rounds
    exact ⟨state, .refl, length_eq_zero_iff.mp (by omega), rfl⟩
  | succ fuel ih =>
    unfold explore
    split
    next hempty =>
      exact ⟨state, .refl, hempty, rfl⟩
    next x queue hqueue =>
      obtain ⟨final, hrounds, hempty, heq⟩ := ih (h.step hnext hqueue)
      exact ⟨final, .head ⟨x, queue, hqueue, rfl⟩ hrounds, hempty, heq⟩

section

variable (hseeds : ∀ seed ∈ seeds, seed ∈ nodes) (hnext : ∀ x ∈ nodes, ∀ y ∈ next x, y ∈ nodes)
include hseeds hnext

theorem closure_drained :
    ∃ final, Relation.ReflTransGen (Round next) (enqueue { reached := [], queue := [] } seeds) final ∧
      final.queue = [] ∧ closure next nodes seeds = final.reached :=
  (Inv.start hseeds).drained hnext

theorem mem_closure (y : α) : y ∈ closure next nodes seeds ↔
      ∃ seed ∈ seeds, Relation.ReflTransGen (fun a b => b ∈ next a) seed y :=
  (Inv.start hseeds).mem_explore hnext y

/-- What the search finds is the least set with the seeds that no edge leaves. -/
theorem closure_isLeast :
    IsLeast {found : Set α | (∀ seed ∈ seeds, seed ∈ found) ∧ ∀ x ∈ found, ∀ y ∈ next x, y ∈ found}
      {x | x ∈ closure next nodes seeds} := by
  constructor
  · constructor
    · intro seed hseed
      exact (mem_closure hseeds hnext seed).mpr ⟨seed, hseed, .refl⟩
    · intro x hx y hy
      obtain ⟨seed, hseed, hpath⟩ := (mem_closure hseeds hnext x).mp hx
      exact (mem_closure hseeds hnext y).mpr ⟨seed, hseed, hpath.tail hy⟩
  · intro found hfound x hx
    obtain ⟨seed, hseed, hpath⟩ := (mem_closure hseeds hnext x).mp hx
    induction hpath with
    | refl => exact hfound.1 seed hseed
    | tail hpath hedge ih =>
      exact hfound.2 _ (ih ((mem_closure hseeds hnext _).mpr ⟨seed, hseed, hpath⟩)) _ hedge

end

end

end Flowness.Library.Worklist
