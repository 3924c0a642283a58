import Flowness.Library.JsonParser
import Flowness.Planning.CrossPlanWrites

/-!
What the checks of the freeze gate and the recompute of the done criteria read of the log: events of a few
kinds only, so that two logs with the same such events get the same verdicts.
-/

namespace Flowness.Planning

open List Library

/-- Python's `str` and `repr`, and the schema of a package with its done criteria. -/
structure PlanCheckEnv (δ : Type) where
  strOther : Json → String
  reprList : List String → String
  packageCriteria : Dict String Json → Option (List δ)

/-- `_read_events`: the lines that are JSON objects. -/
def readEvents (lines : List Text) : List LogEvent :=
  lines.filterMap fun line =>
    match Json.parse line with
    | some (.obj event) => some event
    | _ => none

section Checks

variable {δ : Type} (env : PlanCheckEnv δ)

def claims (kind task : String) (event : LogEvent) : Bool :=
  eventType env.strOther event = kind ∧ Json.lookup (afterState env.strOther event) "task_id" = .str task

def checkAllTasksSelfContained (events : List LogEvent) (planId : String) : Bool × String :=
  let tasks := planTaskIds env.strOther events planId
  let missingRead := tasks.filter fun task => !events.any (claims env "TaskReadSetClaimed" task)
  let missingWrite := tasks.filter fun task => !events.any (claims env "TaskWriteSetClaimed" task)
  if tasks = [] then (false, "no TaskNodeCreated for plan_id=" ++ planId)
  else if missingRead ≠ [] ∨ missingWrite ≠ [] then
    (false, "missing read claim: " ++ env.reprList (missingRead.take 5) ++ "; missing write claim: " ++
      env.reprList (missingWrite.take 5))
  else (true, "all " ++ toString tasks.length ++ " tasks have read+write set claims")

/-- `payload.get("after_state", {})` of a payload that may be no object. -/
def publishedAfter (event : LogEvent) : Json :=
  match (Dict.get event "payload").getD (.obj []) with
  | .obj payload => (Dict.get payload "after_state").getD (.obj [])
  | _ => .obj []

def publishedCriteria (task : String) (event : LogEvent) : Option (List δ) :=
  match publishedAfter event with
  | .obj after =>
    if member env.strOther after "task_id" = task then
      match (Dict.get after "package_content").getD (.obj []) with
      | .obj content => env.packageCriteria content
      | _ => none
    else none
  | _ => none

def publishesPackage (event : LogEvent) : Bool :=
  member env.strOther event "event_type" = "TaskPackagePublished"

/-- `load_task_done_criteria`: those of the last package that can be read. -/
def loadTaskDoneCriteria (events : List LogEvent) (task : String) : List δ :=
  (((events.filter (publishesPackage env)).filterMap (publishedCriteria env task)).getLast?).getD []

/-- The same verdict of every check on every plan, and the same criteria of every task. -/
structure SameVerdicts (raw committed : List LogEvent) : Prop where
  noCircularDependency : ∀ planId, checkNoCircularDependency env.strOther raw planId =
    checkNoCircularDependency env.strOther committed planId
  noResourceConflict : ∀ planId, checkNoResourceConflict env.strOther raw planId =
    checkNoResourceConflict env.strOther committed planId
  noCrossPlanResourceConflict : ∀ planId, checkNoCrossPlanResourceConflict env.strOther raw planId =
    checkNoCrossPlanResourceConflict env.strOther committed planId
  allTasksSelfContained : ∀ planId, checkAllTasksSelfContained env raw planId =
    checkAllTasksSelfContained env committed planId
  doneCriteria : ∀ task, loadTaskDoneCriteria env raw task = loadTaskDoneCriteria env committed task

end Checks

section

variable {δ : Type} (env : PlanCheckEnv δ)

def planEventTypes : List String :=
  ["TaskNodeCreated", "TaskReadSetClaimed", "TaskWriteSetClaimed", "TaskDependencyEdgeAdded",
    "TaskDependencyEdgeRemoved", "PlanFreezed"]

def completesTask (event : LogEvent) : Bool :=
  eventType env.strOther event = "TaskRunCompleted" ∧
    Json.lookup (afterState env.strOther event) "outcome" = .str "success"

def closesTask (event : LogEvent) : Bool :=
  let raw := Json.lookup event "raw_event_type"
  (if raw.truthy then str env.strOther raw else member env.strOther event "event_type") = "TaskNodeClosed"

def isPlanEvent (event : LogEvent) : Bool :=
  eventType env.strOther event ∈ planEventTypes || completesTask env event || closesTask env event ||
    publishesPackage env event

variable {env} {events raw committed : List LogEvent}

theorem filter_planEvents {reads : LogEvent → Bool} (h : ∀ event, reads event = true →
    isPlanEvent env event = true)
    (events : List LogEvent) : (events.filter (isPlanEvent env)).filter reads = events.filter reads := by
  rw [filter_filter]
  refine filter_congr fun event _ => ?_
  cases hreads : reads event with
  | false => rfl
  | true => rw [h event hreads, Bool.and_self]

theorem isPlanEvent_of_type {event : LogEvent} (h : eventType env.strOther event ∈ planEventTypes) :
    isPlanEvent env event = true := by
  simp [isPlanEvent, h]

section

variable (hsame : raw.filter (isPlanEvent env) = committed.filter (isPlanEvent env))

include hsame

theorem filter_congr_of_planEvents {reads : LogEvent → Bool}
    (h : ∀ event, reads event = true → isPlanEvent env event = true) :
    raw.filter reads = committed.filter reads := by
  rw [← filter_planEvents h raw, hsame, filter_planEvents h committed]

theorem filter_type_congr {kind : String} (hkind : kind ∈ planEventTypes) :
    raw.filter (fun event => eventType env.strOther event = kind) =
      committed.filter fun event => eventType env.strOther event = kind := by
  refine filter_congr_of_planEvents hsame fun event hreads => isPlanEvent_of_type ?_
  rw [of_decide_eq_true hreads]
  exact hkind

theorem activeDependencyEdges_congr :
    activeDependencyEdges env.strOther raw = activeDependencyEdges env.strOther committed := by
  have hplan : ∀ (events : List LogEvent) (active : List EdgeIdentity),
      (events.filter (isPlanEvent env)).foldl (replayEdge env.strOther) active =
        events.foldl (replayEdge env.strOther) active := by
    intro events
    induction events with
    | nil => exact fun _ => rfl
    | cons event events ih =>
      intro active
      by_cases hevent : isPlanEvent env event = true
      · rw [filter_cons_of_pos hevent, foldl_cons, foldl_cons, ih]
      · have hskip : replayEdge env.strOther active event = active := by
          unfold replayEdge
          rw [if_neg fun h => hevent (isPlanEvent_of_type (by rw [h]; decide)),
            if_neg fun h => hevent (isPlanEvent_of_type (by rw [h]; decide))]
        rw [filter_cons_of_neg hevent, foldl_cons, hskip, ih]
  unfold activeDependencyEdges
  rw [← hplan raw, hsame, hplan committed]

theorem planTaskIds_congr (planId : String) :
    planTaskIds env.strOther raw planId = planTaskIds env.strOther committed planId := by
  unfold planTaskIds
  congr 1
  refine filter_congr_of_planEvents hsame fun event hreads => isPlanEvent_of_type ?_
  rw [(of_decide_eq_true hreads).1]
  decide

theorem closedTaskIds_congr :
    closedTaskIds env.strOther raw = closedTaskIds env.strOther committed := by
  have hclosures : raw.filter (closesTask env) = committed.filter (closesTask env) :=
    filter_congr_of_planEvents hsame fun event hreads => by simp [isPlanEvent, hreads]
  unfold closesTask at hclosures
  unfold closedTaskIds
  rw [hclosures]

theorem writeSets_congr (keep : String → Bool) :
    writeSets env.strOther keep raw = writeSets env.strOther keep committed := by
  unfold writeSets
  rw [filter_type_congr hsame (by decide)]

theorem any_claims_congr {kind : String} (hkind : kind ∈ planEventTypes) (task : String) :
    raw.any (claims env kind task) = committed.any (claims env kind task) := by
  have hclaims : raw.filter (claims env kind task) = committed.filter (claims env kind task) := by
    refine filter_congr_of_planEvents hsame fun event hreads => isPlanEvent_of_type ?_
    rw [(of_decide_eq_true hreads).1]
    exact hkind
  have hany : ∀ events : List LogEvent, events.any (claims env kind task) =
      !(events.filter (claims env kind task)).isEmpty := by
    intro events
    induction events with
    | nil => rfl
    | cons event events ih =>
      rw [any_cons, ih]
      cases hevent : claims env kind task event with
      | true => rw [filter_cons_of_pos hevent]; rfl
      | false => rw [filter_cons_of_neg (by simp [hevent]), Bool.false_or]
  rw [hany, hany, hclaims]

theorem sameVerdicts_of_planEvents : SameVerdicts env raw committed where
  noCircularDependency := by
    intro planId
    unfold checkNoCircularDependency activePlanEdges
    rw [planTaskIds_congr hsame, activeDependencyEdges_congr hsame]
  noResourceConflict := by
    intro planId
    unfold checkNoResourceConflict planWriteSets canonicalEdges
    rw [planTaskIds_congr hsame, writeSets_congr hsame, closedTaskIds_congr hsame,
      filter_type_congr hsame (by decide)]
  noCrossPlanResourceConflict := by
    intro planId
    have hplans : taskPlan env.strOther raw = taskPlan env.strOther committed := by
      unfold taskPlan
      rw [filter_type_congr hsame (by decide)]
    have hfrozen : frozenPlans env.strOther raw = frozenPlans env.strOther committed := by
      unfold frozenPlans
      congr 1
      refine filter_congr_of_planEvents hsame fun event hreads => isPlanEvent_of_type ?_
      rw [(of_decide_eq_true hreads).1]
      decide
    have hdone : doneTasks env.strOther raw = doneTasks env.strOther committed := by
      have hcompleted : raw.filter (completesTask env) = committed.filter (completesTask env) :=
        filter_congr_of_planEvents hsame fun event hreads => by simp [isPlanEvent, hreads]
      unfold completesTask at hcompleted
      unfold doneTasks
      rw [hcompleted]
    unfold checkNoCrossPlanResourceConflict claimingTasks liveTasks serializingEdges allWriteSets
    rw [hplans, hfrozen, hdone, writeSets_congr hsame, closedTaskIds_congr hsame,
      activeDependencyEdges_congr hsame]
  allTasksSelfContained := by
    intro planId
    have hread : ∀ task, raw.any (claims env "TaskReadSetClaimed" task) =
        committed.any (claims env "TaskReadSetClaimed" task) := any_claims_congr hsame (by decide)
    have hwrite : ∀ task, raw.any (claims env "TaskWriteSetClaimed" task) =
        committed.any (claims env "TaskWriteSetClaimed" task) := any_claims_congr hsame (by decide)
    unfold checkAllTasksSelfContained
    simp only [planTaskIds_congr hsame, hread, hwrite]
  doneCriteria := by
    intro task
    unfold loadTaskDoneCriteria
    rw [filter_congr_of_planEvents hsame fun event hreads => by simp [isPlanEvent, hreads]]

end

end

end Flowness.Planning
