import Flowness.Planning.ParallelWrites

/-!
Write conflicts between two plans: when the freeze gate takes them to be serialised, and whether the
dispatcher, which makes the ready set of each plan by itself, serialises them.
-/

namespace Flowness.Planning

open List Library

section Check

variable (strOther : Json → String) (events : List LogEvent)

def taskPlan : Dict String String :=
  (events.filter fun event => eventType strOther event = "TaskNodeCreated").foldl
    (fun plans event =>
      let fields := afterState strOther event
      let task := member strOther fields "task_id"
      let plan := member strOther fields "plan_id"
      if task ≠ "" ∧ plan ≠ "" then plans.set task plan else plans) []

def frozenPlans : List String :=
  (events.filter fun event =>
    eventType strOther event = "PlanFreezed" ∧
      (Json.lookup (afterState strOther event) "plan_id").truthy).map fun event =>
    member strOther (afterState strOther event) "plan_id"

def doneTasks : List String :=
  (events.filter fun event =>
    eventType strOther event = "TaskRunCompleted" ∧
      Json.lookup (afterState strOther event) "outcome" = .str "success").map fun event =>
    member strOther (afterState strOther event) "task_id"

def allWriteSets : Dict String (List String) := writeSets strOther (fun _ => true) events

def serializingEdges : List (String × String) :=
  ((activeDependencyEdges strOther events).filter fun edge =>
    edge.1 ≠ "" ∧ edge.2.1 ≠ "").map fun edge => (edge.1, edge.2.1)

def claimingTasks (planId : String) : List String :=
  (((taskPlan strOther events).filter fun entry =>
    entry.2 = planId ∧ (allWriteSets strOther events).contains entry.1).map Prod.fst).insertionSort
      (· ≤ ·)

def liveTasks (planId : String) : List String :=
  (((taskPlan strOther events).filter fun entry =>
    entry.2 ≠ planId ∧ entry.2 ∈ frozenPlans strOther events ∧
      (allWriteSets strOther events).contains entry.1 ∧ entry.1 ∉ doneTasks strOther events ∧
        entry.1 ∉ closedTaskIds strOther events).map Prod.fst).insertionSort (· ≤ ·)

/-- `check_no_cross_plan_resource_conflict`: the number of tasks of the plan that were compared. -/
def checkNoCrossPlanResourceConflict (planId : String) : Except WriteConflict Nat :=
  let sets := allWriteSets strOther events
  let ordered := serializingEdges strOther events
  let compared := (claimingTasks strOther events planId).flatMap fun task =>
    (liveTasks strOther events planId).map fun other => (task, other)
  match compared.find? fun pair =>
      overlap sets pair.1 pair.2 ≠ [] ∧ ¬ Joined ordered pair.1 pair.2 with
  | some (task, other) =>
    .error { first := task, second := other,
             shared := ((overlap sets task other).insertionSort (· ≤ ·)).take 3 }
  | none => .ok (claimingTasks strOther events planId).length

end Check

variable (strOther : Json → String) (events : List LogEvent)

/-- The check for the plan of the second task compares the first with it and finds a conflict. -/
structure Compared (planA planB : String) (first second : String) : Prop where
  planA : (taskPlan strOther events).get first = some planA
  planB : (taskPlan strOther events).get second = some planB
  live : first ∉ doneTasks strOther events ∧ first ∉ closedTaskIds strOther events
  overlap : overlap (allWriteSets strOther events) second first ≠ []

/-- The latest write claims of a task of one plan and of a task of another name one entity. -/
def SharesClaim (planA planB : String) (first second : String) : Prop :=
  ∃ entity, entity ∈ (planWriteClaims strOther events planA).getList first ∧
    entity ∈ (planWriteClaims strOther events planB).getList second

/-- One of the two tasks waits for the other where it belongs. -/
def SerializedBetween (planA planB : String) (first second : String) : Prop :=
  Precedes strOther events planA second first ∨ Precedes strOther events planB first second

/-- Whichever tasks are completed, no two tasks of the plans with a common claim are ready together,
and where an active edge joins two such tasks its target waits for its source. -/
structure CrossSerialised (planA planB : String) : Prop where
  apart : ∀ (completed : List String) (first second : String),
    first ∈ computeReadyTasks strOther events planA completed →
      second ∈ computeReadyTasks strOther events planB completed →
        ¬ SharesClaim strOther events planA planB first second
  ordersSecond : ∀ (completed : List String) (first second : String),
    SharesClaim strOther events planA planB first second →
      (first, second) ∈ serializingEdges strOther events →
        second ∈ computeReadyTasks strOther events planB completed →
          Satisfied strOther events completed first
  ordersFirst : ∀ (completed : List String) (first second : String),
    SharesClaim strOther events planA planB first second →
      (second, first) ∈ serializingEdges strOther events →
        first ∈ computeReadyTasks strOther events planA completed →
          Satisfied strOther events completed second

variable {strOther events} {planA planB : String}

theorem contains_of_overlap {sets : Dict String (List String)} {first second : String}
    (h : overlap sets first second ≠ []) : sets.contains first = true := by
  obtain ⟨entity, hentity, -⟩ := overlap_ne_nil.mp h
  unfold Dict.contains
  cases hget : sets.get first with
  | some keys => rfl
  | none =>
    rw [Dict.getList, hget] at hentity
    cases hentity

theorem joined_of_crossCheck {compared : Nat} {first second : String}
    (h : checkNoCrossPlanResourceConflict strOther events planB = .ok compared)
    (hfrozen : planA ∈ frozenPlans strOther events) (hne : planA ≠ planB)
    (hcompared : Compared strOther events planA planB first second) :
    Joined (serializingEdges strOther events) second first := by
  have hsecond : second ∈ claimingTasks strOther events planB := by
    unfold claimingTasks
    rw [mem_insertionSort]
    refine mem_map.mpr ⟨(second, planB), mem_filter.mpr ⟨?_, ?_⟩, rfl⟩
    · exact Dict.mem_of_get hcompared.planB
    · exact decide_eq_true ⟨rfl, contains_of_overlap hcompared.overlap⟩
  have hfirst : first ∈ liveTasks strOther events planB := by
    unfold liveTasks
    rw [mem_insertionSort]
    refine mem_map.mpr ⟨(first, planA), mem_filter.mpr ⟨?_, ?_⟩, rfl⟩
    · exact Dict.mem_of_get hcompared.planA
    · exact decide_eq_true
        ⟨hne, hfrozen, contains_of_overlap (overlap_symm hcompared.overlap), hcompared.live⟩
  unfold checkNoCrossPlanResourceConflict at h
  simp only at h
  split at h
  · cases h
  next hnone =>
    rw [List.find?_eq_none] at hnone
    by_contra hjoined
    refine hnone (second, first) ?_ (decide_eq_true ⟨hcompared.overlap, hjoined⟩)
    exact mem_flatMap.mpr ⟨second, hsecond, mem_map.mpr ⟨first, hfirst, rfl⟩⟩

/-- When the tasks that a check takes to be serialised are serialised by the dispatcher: an edge
between them orders them only where both are tasks of the plan whose task waits, and tasks the check
does not compare have to be ordered as well. -/
theorem crossSerialised_iff {compared : Nat}
    (hgate : checkNoCrossPlanResourceConflict strOther events planB = .ok compared)
    (hfrozen : planA ∈ frozenPlans strOther events) (hne : planA ≠ planB) :
    CrossSerialised strOther events planA planB ↔
      ∀ first second, SharesClaim strOther events planA planB first second →
        (¬ Compared strOther events planA planB first second →
          CanStart strOther events planA first → CanStart strOther events planB second →
            SerializedBetween strOther events planA planB first second) ∧
        ((first, second) ∈ serializingEdges strOther events →
          CanStart strOther events planB second →
            Precedes strOther events planB first second ∨ first ∈ closedTaskIds strOther events) ∧
        ((second, first) ∈ serializingEdges strOther events →
          CanStart strOther events planA first →
            Precedes strOther events planA second first ∨
              second ∈ closedTaskIds strOther events) := by
  constructor
  · intro h first second hshares
    let done := (planTaskIds strOther events planA ++ planTaskIds strOther events planB).filter
      fun task => task ∉ [first, second]
    have hdone : ∀ planId, planId = planA ∨ planId = planB →
        ∀ task ∈ planTaskIds strOther events planId, task ∉ [first, second] → task ∈ done := by
      intro planId hplan task htask hnot
      refine mem_filter.mpr ⟨?_, decide_eq_true hnot⟩
      rcases hplan with rfl | rfl
      · exact mem_append_left _ htask
      · exact mem_append_right _ htask
    have hopen : ∀ task ∈ [first, second], task ∉ done := by
      intro task htask hmem
      exact absurd htask (of_decide_eq_true (mem_filter.mp hmem).2)
    have hfirst : CanStart strOther events planA first →
        ¬ Precedes strOther events planA second first →
          first ∈ computeReadyTasks strOther events planA done := by
      intro hstart hfree
      refine hstart.ready (hdone planA (Or.inl rfl)) (hopen first (by simp)) fun other hother hself => ?_
      rcases mem_cons.mp hother with heq | hlast
      · exact absurd heq hself
      · rw [mem_singleton.mp hlast]
        exact hfree
    have hsecond : CanStart strOther events planB second →
        ¬ Precedes strOther events planB first second →
          second ∈ computeReadyTasks strOther events planB done := by
      intro hstart hfree
      refine hstart.ready (hdone planB (Or.inr rfl)) (hopen second (by simp))
        fun other hother hself => ?_
      rcases mem_cons.mp hother with heq | hlast
      · rw [heq]
        exact hfree
      · exact absurd (mem_singleton.mp hlast) hself
    refine ⟨fun _ hstartA hstartB => ?_, fun hedge hstart => ?_, fun hedge hstart => ?_⟩
    · by_contra hnot
      exact h.apart done first second (hfirst hstartA fun hp => hnot (Or.inl hp))
        (hsecond hstartB fun hp => hnot (Or.inr hp)) hshares
    · by_contra hnot
      have hready := hsecond hstart fun hp => hnot (Or.inl hp)
      rcases h.ordersSecond done first second hshares hedge hready with hmem | hclosed
      · exact hopen first (by simp) hmem
      · exact hnot (Or.inr hclosed)
    · by_contra hnot
      have hready := hfirst hstart fun hp => hnot (Or.inl hp)
      rcases h.ordersFirst done first second hshares hedge hready with hmem | hclosed
      · exact hopen second (by simp) hmem
      · exact hnot (Or.inr hclosed)
  · intro h
    have hwaitsSecond : ∀ completed first second, SharesClaim strOther events planA planB first second →
        (first, second) ∈ serializingEdges strOther events →
          second ∈ computeReadyTasks strOther events planB completed →
            Satisfied strOther events completed first := by
      intro completed first second hshares hedge hready
      rcases (h first second hshares).2.1 hedge (CanStart.of_ready hready) with hbefore | hclosed
      · exact (mem_computeReadyTasks.mp hready).2.2.1 first hbefore
      · exact Or.inr hclosed
    have hwaitsFirst : ∀ completed first second, SharesClaim strOther events planA planB first second →
        (second, first) ∈ serializingEdges strOther events →
          first ∈ computeReadyTasks strOther events planA completed →
            Satisfied strOther events completed second := by
      intro completed first second hshares hedge hready
      rcases (h first second hshares).2.2 hedge (CanStart.of_ready hready) with hbefore | hclosed
      · exact (mem_computeReadyTasks.mp hready).2.2.1 second hbefore
      · exact Or.inr hclosed
    refine ⟨fun completed first second hfirst hsecond hshares => ?_, hwaitsSecond, hwaitsFirst⟩
    obtain ⟨-, hopenFirst, hpredsFirst, -⟩ := mem_computeReadyTasks.mp hfirst
    obtain ⟨-, hopenSecond, hpredsSecond, -⟩ := mem_computeReadyTasks.mp hsecond
    by_cases hcompared : Compared strOther events planA planB first second
    · rcases joined_of_crossCheck hgate hfrozen hne hcompared with hedge | hedge
      · exact hopenSecond (hwaitsFirst completed first second hshares hedge hfirst)
      · exact hopenFirst (hwaitsSecond completed first second hshares hedge hsecond)
    · rcases (h first second hshares).1 hcompared (CanStart.of_ready hfirst)
        (CanStart.of_ready hsecond) with hbefore | hbefore
      · exact hopenSecond (hpredsFirst second hbefore)
      · exact hopenFirst (hpredsSecond first hbefore)

def planFreezed (planId : String) : LogEvent :=
  canonicalEvent "PlanFreezed" [("plan_id", .str planId)]

/-- Two frozen plans whose tasks write one file, with an edge from the task of the first plan to the
task of the second. -/
def crossPlanEdge : List LogEvent :=
  [taskNodeCreated "t-a" "plan-1", taskWriteSetClaimed "t-a" [fileEntry "src/a.py"],
    planFreezed "plan-1", taskNodeCreated "t-b" "plan-2",
    taskWriteSetClaimed "t-b" [fileEntry "src/a.py"], taskDependencyEdgeAdded "t-a" "t-b",
    planFreezed "plan-2"]

def closedSource : List LogEvent :=
  crossPlanEdge ++ [canonicalEvent "TaskNodeClosed" [("task_id", .str "t-a")]]

theorem closedSource_crossSerialised :
    CrossSerialised sampleStr closedSource "plan-1" "plan-2" := by
  have hgate : checkNoCrossPlanResourceConflict sampleStr closedSource "plan-2" = .ok 1 := by
    decide +kernel
  have hfrozen : "plan-1" ∈ frozenPlans sampleStr closedSource := by decide +kernel
  have hclosed : closedTaskIds sampleStr closedSource = ["t-a"] := by decide +kernel
  have htasks : planTaskIds sampleStr closedSource "plan-1" = ["t-a"] := by decide +kernel
  have hedges : serializingEdges sampleStr closedSource = [("t-a", "t-b")] := by decide +kernel
  refine (crossSerialised_iff hgate hfrozen (by decide)).mpr fun first second _ => ?_
  simp only [CanStart, Dispatchable, hclosed, htasks, hedges, List.mem_singleton, Prod.mk.injEq]
  refine ⟨fun _ hfirst => absurd hfirst.1 hfirst.2.1.1, fun hedge _ => .inr hedge.1, ?_⟩
  rintro ⟨-, rfl⟩ hfirst
  exact absurd hfirst.1 (by decide)

/-- The gate takes the two tasks to be serialised, and both are ready at once. -/
theorem cross_plan_edge_ignored :
    ¬ ∀ (strOther : Json → String) (events : List LogEvent) (planA planB : String) (compared : Nat),
      checkNoCrossPlanResourceConflict strOther events planB = .ok compared →
        planA ∈ frozenPlans strOther events → planB ∈ frozenPlans strOther events → planA ≠ planB →
          CrossSerialised strOther events planA planB := by
  intro h
  have hgate : checkNoCrossPlanResourceConflict sampleStr crossPlanEdge "plan-2" = .ok 1 := by
    decide +kernel
  have hfrozen : ["plan-1", "plan-2"] ⊆ frozenPlans sampleStr crossPlanEdge := by decide +kernel
  have hfirst : "t-a" ∈ computeReadyTasks sampleStr crossPlanEdge "plan-1" [] := by decide +kernel
  have hsecond : "t-b" ∈ computeReadyTasks sampleStr crossPlanEdge "plan-2" [] := by decide +kernel
  have hclaimFirst : "file:src/a.py" ∈
      (planWriteClaims sampleStr crossPlanEdge "plan-1").getList "t-a" := by decide +kernel
  have hclaimSecond : "file:src/a.py" ∈
      (planWriteClaims sampleStr crossPlanEdge "plan-2").getList "t-b" := by decide +kernel
  have hserialised := h sampleStr crossPlanEdge "plan-1" "plan-2" 1 hgate (hfrozen (by simp))
    (hfrozen (by simp)) (by decide)
  exact hserialised.apart [] "t-a" "t-b" hfirst hsecond ⟨_, hclaimFirst, hclaimSecond⟩

end Flowness.Planning
