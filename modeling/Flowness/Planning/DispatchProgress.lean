import Flowness.Planning.ReadyTasks

/-!
When the dispatcher finds work on a plan that the freeze gate accepted. The gate looks for cycles
among the edges still active; the dispatcher waits along every edge that was ever added.
-/

namespace Flowness.Planning

open Library Relation

variable (strOther : Json → String) (events : List LogEvent) (planId : String)

/-- A task that nothing but its predecessors keeps from being handed out. -/
def Dispatchable (task : String) : Prop :=
  task ∉ closedTaskIds strOther events ∧ ReviewCleared strOther events planId task

def Waits (source target : String) : Prop :=
  Precedes strOther events planId source target ∧
    Dispatchable strOther events planId source ∧ Dispatchable strOther events planId target

/-- Whichever tasks are completed: while some task of the plan is unfinished, and none of them is
an implementation task without a review plan, some task is ready. -/
def NoDeadlock : Prop :=
  ∀ completed : List String,
    (∃ task ∈ planTaskIds strOther events planId, ¬ Satisfied strOther events completed task) →
    (planHasDesignTimeReviewPlan strOther events planId = true ∨
      ∀ task ∈ planTaskIds strOther events planId, ¬ Satisfied strOther events completed task →
        taskPhase strOther task events ≠ some "implementation") →
    computeReadyTasks strOther events planId completed ≠ []

variable {strOther events planId}

theorem Waits.ends {source target : String} (h : Waits strOther events planId source target) :
    source ∈ planTaskIds strOther events planId ∧ target ∈ planTaskIds strOther events planId :=
  h.1.2

theorem ready_of_acyclic
    (hacyclic : ∀ task, ¬ TransGen (Waits strOther events planId) task task) :
    NoDeadlock strOther events planId := by
  classical
  intro completed hopen hreview
  let unfinished := (planTaskIds strOther events planId).filter fun task =>
    ¬ Satisfied strOther events completed task
  have hmem : ∀ task, task ∈ unfinished ↔ task ∈ planTaskIds strOther events planId ∧
      ¬ Satisfied strOther events completed task := by
    intro task
    simp [unfinished]
  have hcleared : ∀ task ∈ unfinished, ReviewCleared strOther events planId task := by
    intro task htask
    rcases hreview with hplan | hphase
    · exact .inl hplan
    · exact .inr (hphase task ((hmem task).mp htask).1 ((hmem task).mp htask).2)
  have hdispatchable : ∀ task ∈ unfinished, Dispatchable strOther events planId task :=
    fun task htask => ⟨fun hclosed => ((hmem task).mp htask).2 (.inr hclosed), hcleared task htask⟩
  obtain ⟨waiting, hwaiting, hnot⟩ := hopen
  have hne : unfinished ≠ [] := List.ne_nil_of_mem ((hmem waiting).mpr ⟨hwaiting, hnot⟩)
  have hcircle : ∀ task, ¬ TransGen (fun source target =>
      Precedes strOther events planId source target ∧ source ∈ unfinished ∧ target ∈ unfinished)
        task task := by
    intro task hcycle
    refine hacyclic task (TransGen.mono (fun source target h => ?_) task task hcycle)
    exact ⟨h.1, hdispatchable source h.2.1, hdispatchable target h.2.2⟩
  obtain ⟨task, htask, hfirst⟩ := CycleSearch.exists_source hne hcircle
  have hready : task ∈ computeReadyTasks strOther events planId completed := by
    rw [mem_computeReadyTasks]
    refine ⟨((hmem task).mp htask).1, ((hmem task).mp htask).2, ?_, hcleared task htask⟩
    intro source hprecedes
    by_contra hsource
    exact hfirst source ((hmem source).mpr ⟨hprecedes.2.1, hsource⟩) hprecedes
  exact List.ne_nil_of_mem hready

theorem acyclic_of_ready (h : NoDeadlock strOther events planId) (task : String) :
    ¬ TransGen (Waits strOther events planId) task task := by
  classical
  intro hcycle
  let circle : String → Prop := fun other =>
    TransGen (Waits strOther events planId) task other ∧
      TransGen (Waits strOther events planId) other task
  let completed := (planTaskIds strOther events planId).filter fun other => ¬ circle other
  have hends : ∀ other, circle other → other ∈ planTaskIds strOther events planId ∧
      Dispatchable strOther events planId other := by
    intro other hother
    obtain ⟨before, -, hlast⟩ := TransGen.tail'_iff.mp hother.1
    exact ⟨hlast.ends.2, hlast.2.2⟩
  have hunfinished : ∀ other ∈ planTaskIds strOther events planId,
      ¬ Satisfied strOther events completed other ↔ circle other := by
    intro other hother
    constructor
    · intro hnot
      by_contra hcircle
      refine hnot (.inl ?_)
      simp [completed, hother, hcircle]
    · intro hcircle hsatisfied
      rcases hsatisfied with hdone | hclosed
      · simp [completed, hcircle] at hdone
      · exact (hends other hcircle).2.1 hclosed
  have htask : circle task := ⟨hcycle, hcycle⟩
  refine h completed ⟨task, (hends task htask).1, (hunfinished task (hends task htask).1).mpr htask⟩
    ?_ ?_
  · by_cases hplan : planHasDesignTimeReviewPlan strOther events planId = true
    · exact .inl hplan
    · refine .inr fun other hother hnot => ?_
      exact ((hends other ((hunfinished other hother).mp hnot)).2.2).resolve_left hplan
  · rw [List.eq_nil_iff_forall_not_mem]
    intro other hready
    obtain ⟨hother, hnot, hpreds, -⟩ := mem_computeReadyTasks.mp hready
    have hcircle := (hunfinished other hother).mp hnot
    -- The edge of the circle that leads to the ready task comes from a task of the circle.
    obtain ⟨before, hbefore, hlast⟩ := TransGen.tail'_iff.mp hcircle.1
    have hback : circle before := by
      refine ⟨?_, TransGen.head hlast hcircle.2⟩
      rcases reflTransGen_iff_eq_or_transGen.mp hbefore with heq | hpath
      · rw [heq]
        exact hcycle
      · exact hpath
    exact (hunfinished before hlast.ends.1).mpr hback (hpreds before hlast.1)

/-- On a plan the freeze gate accepts the dispatcher is never stuck exactly when no edge that the
gate does not read, being withdrawn or named otherwise, closes a circle of waiting tasks. -/
theorem no_deadlock_iff
    (hgate : (checkNoCircularDependency strOther events planId).1 = true) :
    NoDeadlock strOther events planId ↔
      ∀ source target, Waits strOther events planId source target →
        ¬ ActiveEdge strOther events planId source target →
          ¬ ReflTransGen (Waits strOther events planId) target source := by
  have hactive := checkNoCircularDependency_iff.mp hgate
  constructor
  · intro h source target hwaits _ hback
    exact acyclic_of_ready h source (TransGen.head' hwaits hback)
  · intro h
    refine ready_of_acyclic fun task hcycle => ?_
    have hpath : TransGen (ActiveEdge strOther events planId) task task ∨ _ :=
      CycleSearch.transGen_or_takes hcycle
    rcases hpath with hgood | ⟨source, target, hbefore, hedge, hbad, hafter⟩
    · exact hactive task hgood
    · exact h source target hedge hbad (hafter.trans hbefore)

def turnedEdge : List LogEvent :=
  [taskNodeCreated "t-a" "plan-1", taskNodeCreated "t-b" "plan-1", taskDependencyEdgeAdded "t-a" "t-b",
    taskDependencyEdgeRemoved "t-a" "t-b", taskDependencyEdgeAdded "t-b" "t-a"]

/-- Before it is turned the withdrawn edge keeps nothing waiting for ever. -/
theorem withdrawnEdge_no_deadlock : NoDeadlock sampleStr (turnedEdge.take 4) "plan-1" := by
  have hadded : addedEdges sampleStr (turnedEdge.take 4) = [("t-a", "t-b")] := by decide +kernel
  have honly : ∀ source target, Waits sampleStr (turnedEdge.take 4) "plan-1" source target →
      source = "t-a" ∧ target = "t-b" := by
    intro source target hwaits
    simpa [hadded] using hwaits.1.1
  refine (no_deadlock_iff (by decide +kernel)).mpr fun source target hwaits _ hback => ?_
  obtain ⟨rfl, rfl⟩ := honly source target hwaits
  rcases ReflTransGen.cases_head hback with heq | ⟨other, hother, -⟩
  · exact absurd heq (by decide)
  · exact absurd (honly _ _ hother).1 (by decide)

/-- The gate accepts the plan with the turned edge, and none of its tasks is ever ready. -/
theorem turned_edge_deadlocks :
    ¬ ∀ (strOther : Json → String) (events : List LogEvent) (planId : String),
      (checkNoCircularDependency strOther events planId).1 = true →
        NoDeadlock strOther events planId := by
  intro h
  have hgate : (checkNoCircularDependency sampleStr turnedEdge "plan-1").1 = true := by
    decide +kernel
  have htask : "t-a" ∈ planTaskIds sampleStr turnedEdge "plan-1" := by decide +kernel
  have hclosed : closedTaskIds sampleStr turnedEdge = [] := by decide +kernel
  have hphase : ∀ task ∈ planTaskIds sampleStr turnedEdge "plan-1",
      taskPhase sampleStr task turnedEdge ≠ some "implementation" := by decide +kernel
  have hstuck : computeReadyTasks sampleStr turnedEdge "plan-1" [] = [] := by decide +kernel
  refine h sampleStr turnedEdge "plan-1" hgate [] ⟨"t-a", htask, ?_⟩ ?_ hstuck
  · simp [Satisfied, hclosed]
  · exact Or.inr fun task hmem _ => hphase task hmem

end Flowness.Planning
