import Mathlib.Data.List.Basic

/-!
Runs of a labelled transition system whose steps meet a condition, and the invariant rule.
-/

namespace Flowness.Library

section

variable {σ α : Type} (step : σ → α → Option σ) (guard : σ → α → Prop)

/-- The runs from `start`: every step is enabled and meets `guard` in the state it is taken in. -/
inductive Run (start : σ) : List α → σ → Prop
  | nil : Run start [] start
  | snoc {labels : List α} {state next : σ} {label : α} : Run start labels state →
      guard state label → step state label = some next → Run start (labels ++ [label]) next

variable {step guard} {start state : σ} {labels : List α}

/-- What the start has and every step keeps holds at the end of every run. -/
theorem Run.invariant {I : σ → Prop} (hstart : I start)
    (hstep : ∀ state label next, I state → guard state label → step state label = some next → I next)
    (h : Run step guard start labels state) : I state := by
  induction h with
  | nil => exact hstart
  | snoc _ hguard hnext ih => exact hstep _ _ _ ih hguard hnext

theorem Run.weaken {weaker : σ → α → Prop} (hweaker : ∀ state label, guard state label → weaker state label)
    (h : Run step guard start labels state) : Run step weaker start labels state := by
  induction h with
  | nil => exact Run.nil
  | snoc _ hguard hnext ih => exact Run.snoc ih (hweaker _ _ hguard) hnext

theorem Run.cons {next : σ} (hguard : guard start label) (hnext : step start label = some next)
    (h : Run step guard next labels state) : Run step guard start (label :: labels) state := by
  induction h with
  | nil => exact Run.snoc Run.nil hguard hnext
  | snoc _ hg hn ih => exact Run.snoc ih hg hn

theorem Run.append (h : Run step guard start labels state) (h' :
  Run step guard state labels' last) : Run step guard start (labels ++ labels') last := by
  induction h' with
  | nil =>
    rw [List.append_nil]
    exact h
  | snoc _ hguard hnext ih =>
    rw [← List.append_assoc]
    exact Run.snoc ih hguard hnext

theorem Run.of_foldlM (hguard : ∀ label ∈ labels, ∀ state, guard state label)
    (h : labels.foldlM step start = some state) : Run step guard start labels state := by
  induction labels generalizing start with
  | nil =>
    cases h
    exact Run.nil
  | cons label labels ih =>
    obtain ⟨next, hnext, h⟩ := Option.bind_eq_some_iff.mp h
    exact Run.cons (hguard label List.mem_cons_self start) hnext
      (ih (fun other hmem => hguard other (List.mem_cons_of_mem _ hmem)) h)

theorem Run.of_steps (h : labels.foldlM step start = some state) :
    Run step (fun _ _ => True) start labels state :=
  Run.of_foldlM (fun _ _ _ => trivial) h

/-- A list of enabled steps is a run when a check that implies the condition holds at each. -/
theorem Run.of_checked {check : σ → α → Bool}
    (hcheck : ∀ state label, check state label = true → guard state label)
    (h : labels.foldlM (fun state label => if check state label then step state label else none)
      start = some state) : Run step guard start labels state := by
  induction labels generalizing start with
  | nil =>
    cases h
    exact Run.nil
  | cons label labels ih =>
    obtain ⟨next, hnext, h⟩ := Option.bind_eq_some_iff.mp h
    obtain ⟨hpassed, hnext⟩ := Option.ite_none_right_eq_some.mp hnext
    exact Run.cons (hcheck start label hpassed) hnext (ih h)

theorem Run.foldlM_eq (h : Run step guard start labels state) :
    labels.foldlM step start = some state := by
  induction h with
  | nil => rfl
  | snoc _ _ hnext ih => simp [List.foldlM_append, ih, hnext]

theorem Run.of_check_isSome {check : σ → α → Bool}
    (hcheck : ∀ state label, check state label = true → guard state label)
    (h : (labels.foldlM (fun state label => if check state label then step state label else none)
      start).isSome = true) :
    Run step guard start labels ((labels.foldlM step start).getD start) := by
  obtain ⟨last, hlast⟩ := Option.isSome_iff_exists.mp h
  have hrun : Run step guard start labels last := Run.of_checked hcheck hlast
  rw [hrun.foldlM_eq]
  exact hrun

/-- Under no condition, whatever can be taken is a run to where it leads. -/
theorem Run.of_isSome (h : (labels.foldlM step start).isSome = true) :
    Run step (fun _ _ => True) start labels ((labels.foldlM step start).getD start) := by
  obtain ⟨last, hlast⟩ := Option.isSome_iff_exists.mp h
  rw [hlast]
  exact Run.of_steps hlast

end

end Flowness.Library
