import Flowness.Library.CycleSearch
import Flowness.Library.Lines
import Flowness.Planning.PlanEvents
import Mathlib.Data.List.Induction

/-!
The cycle check of the freeze gate and the ready set of the dispatcher, with the graph each of the
two builds from the events, and the write claims of tasks.
-/

namespace Flowness.Planning

open List Library Relation Dict

variable (strOther : Json → String)

def activePlanEdges (events : List LogEvent) (planId : String) : List (String × String) :=
  let ids := planTaskIds strOther events planId
  ((activeDependencyEdges strOther events).filter fun edge =>
    edge.1 ∈ ids ∧ edge.2.1 ∈ ids).map fun edge => (edge.1, edge.2.1)

def edgeGraph (edges : List (String × String)) : Dict String (List String) :=
  edges.foldl (fun graph edge => graph.appendAt edge.1 edge.2) []

def checkNoCircularDependency (events : List LogEvent) (planId : String) : Bool × String :=
  let ids := planTaskIds strOther events planId
  let edges := activePlanEdges strOther events planId
  let graph := edgeGraph edges
  match CycleSearch.findCycle graph.getList ids graph.keys with
  | some task => (false, s!"cycle detected involving task {task}")
  | none => (true, s!"no cycles in {edges.length} edges among {ids.dedup.length} tasks")

structure PlanGraph where
  taskIds : List String
  adj : Dict String (List String)
  fanIn : Dict String Nat

def planDepGraph (events : List LogEvent) (planId : String) : PlanGraph :=
  let ids := planTaskIds strOther events planId
  let edges := (addedEdges strOther events).filter fun edge => edge.1 ∈ ids ∧ edge.2 ∈ ids
  { taskIds := ids
    adj := edges.foldl (fun adj edge => adj.appendAt edge.1 edge.2)
      (ids.foldl (fun adj task => Dict.set adj task []) [])
    fanIn := edges.foldl (fun fanIn edge => fanIn.set edge.2 ((fanIn.get edge.2).getD 0 + 1))
      (ids.foldl (fun fanIn task => Dict.set fanIn task 0) []) }

def PlanGraph.preds (graph : PlanGraph) : Dict String (List String) :=
  let pairs := graph.adj.flatMap fun entry => entry.2.map fun target => (target, entry.1)
  (pairs.filter fun pair => pair.1 ∈ graph.taskIds).foldl (fun preds pair => preds.appendAt pair.1 pair.2)
    (graph.taskIds.foldl (fun preds task => Dict.set preds task []) [])

/-- `_task_phase_from_events`: the phase the task was first created with. -/
def taskPhase (task : String) (events : List LogEvent) : Option String :=
  (events.find? fun event =>
    eventType strOther event = "TaskNodeCreated" ∧
      Json.lookup (afterState strOther event) "task_id" = .str task).bind fun event =>
    let phase := Json.lookup (afterState strOther event) "phase"
    if phase.truthy then some (str strOther phase) else none

/-- A field of a created review plan, at the top of its payload or in `after_state`. -/
def reviewPlanField (payload : Dict String Json) (key : String) : Json :=
  if (Json.lookup payload key).truthy then Json.lookup payload key
  else Json.lookup (Json.lookup payload "after_state").asDict key

def reviewPlanPayload (event : LogEvent) : Dict String Json :=
  let written := (Json.lookup event "payload").asDict
  match Json.lookup written "stub_original_payload" with
  | .obj stub => stub
  | _ => written

def planHasDesignTimeReviewPlan (events : List LogEvent) (planId : String) : Bool :=
  events.any fun event =>
    eventType strOther event = "ReviewPlanCreated" ∧
      (reviewPlanField (reviewPlanPayload event) "associated_brief_id" = .str planId ∨
        reviewPlanField (reviewPlanPayload event) "associated_consensus_id" = .str planId)

def computeReadyTasks (events : List LogEvent) (planId : String) (completed : List String) :
    List String :=
  let graph := planDepGraph strOther events planId
  let preds := graph.preds
  let satisfied := completed ++ closedTaskIds strOther events
  let hasReviewPlan := planHasDesignTimeReviewPlan strOther events planId
  graph.taskIds.filter fun task =>
    task ∉ satisfied ∧ (∀ source ∈ preds.getList task, source ∈ satisfied) ∧
      (hasReviewPlan = true ∨ taskPhase strOther task events ≠ some "implementation")

section Edges

variable (events : List LogEvent) (planId : String)

/-- An active edge between two tasks of the plan: what the freeze gate looks for cycles in. -/
def ActiveEdge (source target : String) : Prop :=
  (source, target) ∈ activePlanEdges strOther events planId

/-- An edge between two tasks of the plan that was ever added: what the dispatcher waits for. -/
def Precedes (source target : String) : Prop :=
  (source, target) ∈ addedEdges strOther events ∧ source ∈ planTaskIds strOther events planId ∧
    target ∈ planTaskIds strOther events planId

end Edges

variable {strOther} {events : List LogEvent} {planId : String}

theorem ActiveEdge.tasks (h : ActiveEdge strOther events planId source target) :
    source ∈ planTaskIds strOther events planId ∧ target ∈ planTaskIds strOther events planId := by
  obtain ⟨edge, hedge, heq⟩ := mem_map.mp h
  have hends := (mem_filter.mp hedge).2
  cases heq
  simpa using hends

theorem mem_edgeGraph : target ∈ (edgeGraph edges).getList source ↔ (source, target) ∈ edges := by
  unfold edgeGraph
  rw [mem_getList_foldl]
  simp [Dict.getList]

theorem mem_keys_edgeGraph (h : source ∈ (edgeGraph edges).keys) :
    ∃ target, (source, target) ∈ edges := by
  induction edges using List.reverseRecOn with
  | nil => cases h
  | append_singleton edges edge ih =>
    unfold edgeGraph at h
    rw [foldl_append, foldl_cons, foldl_nil] at h
    rcases Dict.mem_keys_set.mp h with heq | hkeys
    · exact ⟨edge.2, by rw [heq]; simp⟩
    · obtain ⟨target, htarget⟩ := ih hkeys
      exact ⟨target, mem_append_left [edge] htarget⟩

theorem checkNoCircularDependency_iff :
    (checkNoCircularDependency strOther events planId).1 = true ↔
      ∀ task, ¬ TransGen (ActiveEdge strOther events planId) task task := by
  let graph := edgeGraph (activePlanEdges strOther events planId)
  have hnext : ∀ source target,
      target ∈ graph.getList source ↔ ActiveEdge strOther events planId source target :=
    fun _ _ => mem_edgeGraph
  have hedge : (fun a b => b ∈ graph.getList a) = ActiveEdge strOther events planId := by
    funext source target
    exact propext (hnext source target)
  have hroots : graph.keys ⊆ planTaskIds strOther events planId := by
    intro source hsource
    obtain ⟨target, htarget⟩ := mem_keys_edgeGraph hsource
    exact (ActiveEdge.tasks htarget).1
  have hclosed : ∀ source ∈ planTaskIds strOther events planId, ∀ target ∈ graph.getList source,
      target ∈ planTaskIds strOther events planId :=
    fun source _ target htarget => ((hnext source target).mp htarget).tasks.2
  have hleaf : ∀ source, source ∉ graph.keys → graph.getList source = [] := by
    intro source hsource
    unfold Dict.getList
    rw [Dict.get_eq_none_iff.mpr hsource]
    rfl
  rw [← hedge, ← CycleSearch.findCycle_eq_none_iff hroots hclosed hleaf]
  unfold checkNoCircularDependency
  cases hfound : CycleSearch.findCycle graph.getList (planTaskIds strOther events planId) graph.keys with
  | none => simp [graph, hfound]
  | some task => simp [graph, hfound]

theorem mem_adj : target ∈ (planDepGraph strOther events planId).adj.getList source ↔
      Precedes strOther events planId source target := by
  unfold planDepGraph
  rw [mem_getList_foldl, getList_foldl_set_nil]
  simp [Precedes]

theorem nodup_adj_keys : (planDepGraph strOther events planId).adj.keys.Nodup := by
  have hempty : (Dict.keys ([] : Dict String (List String))).Nodup := nodup_nil
  exact nodup_keys_foldl (nodup_keys_foldl_set hempty _ _) _

theorem mem_preds : source ∈ (planDepGraph strOther events planId).preds.getList target ↔
      Precedes strOther events planId source target := by
  unfold PlanGraph.preds
  rw [mem_getList_foldl, getList_foldl_set_nil, mem_filter, mem_flatMap,
    ← mem_adj, mem_getList_iff nodup_adj_keys]
  constructor
  · intro h
    obtain ⟨⟨entry, hentry, hmem⟩, -⟩ := h.resolve_left not_mem_nil
    obtain ⟨other, hother, heq⟩ := mem_map.mp hmem
    cases heq
    exact ⟨entry.2, hentry, hother⟩
  · intro h
    obtain ⟨targets, hmem, htarget⟩ := h
    have hprecedes := mem_adj.mp ((mem_getList_iff nodup_adj_keys).mpr ⟨targets, hmem, htarget⟩)
    refine Or.inr ⟨⟨(source, targets), hmem, ?_⟩, ?_⟩
    · exact mem_map.mpr ⟨target, htarget, rfl⟩
    · exact decide_eq_true hprecedes.2.2

/-- A prerequisite is satisfied by a success or by a verified closure. -/
def Satisfied (strOther : Json → String) (events : List LogEvent) (completed : List String)
    (task : String) : Prop :=
  task ∈ completed ∨ task ∈ closedTaskIds strOther events

/-- The review gate lets the task through: the plan has its design-time review plan, or the task is
of another phase than implementation. -/
def ReviewCleared (strOther : Json → String) (events : List LogEvent) (planId task : String) : Prop :=
  planHasDesignTimeReviewPlan strOther events planId = true ∨
    taskPhase strOther task events ≠ some "implementation"

theorem mem_computeReadyTasks : task ∈ computeReadyTasks strOther events planId completed ↔
      task ∈ planTaskIds strOther events planId ∧ ¬ Satisfied strOther events completed task ∧
        (∀ source, Precedes strOther events planId source task →
          Satisfied strOther events completed source) ∧
        ReviewCleared strOther events planId task := by
  unfold computeReadyTasks
  rw [mem_filter]
  simp only [decide_eq_true_eq, mem_append, mem_preds]
  rfl

section Claims

variable (strOther : Json → String)

/-- `f"{w.get('entity_type')}:{w.get('entity_id')}"`. -/
def entityKey (entry : Dict String Json) : String :=
  str strOther (Json.lookup entry "entity_type") ++ ":" ++ str strOther (Json.lookup entry "entity_id")

def writeSets (keep : String → Bool) (events : List LogEvent) : Dict String (List String) :=
  (events.filter fun event => eventType strOther event = "TaskWriteSetClaimed").foldl
    (fun sets event =>
      let fields := afterState strOther event
      match Json.lookup fields "write_set" with
      | .arr entries =>
        if keep (member strOther fields "task_id") then
          sets.set (member strOther fields "task_id")
            ((Json.asDicts (.arr entries)).map (entityKey strOther))
        else sets
      | _ => sets) []

/-- `_entity_keys`: entries that are objects and entries that are bare strings. -/
def entityKeys (raw : Json) : List String :=
  raw.asItems.filterMap fun
    | .obj entry => some (entityKey strOther entry)
    | .str text => if text ≠ "" then some text else none
    | _ => none

/-- `_plan_claims`, what is claimed under one field: the latest claim of each task of the plan. -/
def planClaims (kind field : String) (events : List LogEvent) (planId : String) :
    Dict String (List String) :=
  (events.filter fun event => eventType strOther event = kind).foldl
    (fun claims event =>
      let fields := afterState strOther event
      if member strOther fields "task_id" ∈ planTaskIds strOther events planId then
        claims.set (member strOther fields "task_id") (entityKeys strOther (Json.lookup fields field))
      else claims) []

def planReadClaims : List LogEvent → String → Dict String (List String) :=
  planClaims strOther "TaskReadSetClaimed" "read_set"

def planWriteClaims : List LogEvent → String → Dict String (List String) :=
  planClaims strOther "TaskWriteSetClaimed" "write_set"

end Claims

def normalizeComponent (rooted : Bool) (components : List Text) (component : Text) : List Text :=
  if component = [] ∨ component = ['.'] then components
  else if component ≠ ['.', '.'] ∨ (!rooted ∧ components = []) ∨ components.head? = some ['.', '.'] then
    component :: components
  else components.tail

def normpath (path : Text) : Text :=
  let slashes :=
    if ['/', '/'].isPrefixOf path ∧ ¬ ['/', '/', '/'].isPrefixOf path then 2
    else if ['/'].isPrefixOf path then 1 else 0
  let components := (path.splitOn '/').foldl (normalizeComponent (slashes ≠ 0)) []
  let joined := List.replicate slashes '/' ++ List.intercalate ['/'] components.reverse
  if joined = [] then ['.'] else joined

/-- `s[len(prefix):] if s.startswith(prefix) else s`. -/
def dropStart (start : String) (text : Text) : Text :=
  if start.toList.isPrefixOf text then text.drop start.toList.length else text

def normalizeGuardTarget (path : String) : String :=
  String.ofList (dropStart "harness/" (normpath (dropStart "file:" (strip path.toList))))

example : normalizeGuardTarget " file:harness/src/./a.py" = "src/a.py" := by decide +kernel

def guardTargets (strOther : Json → String) (events : List LogEvent) (planId task : String) :
    List String :=
  ((planWriteClaims strOther events planId).getList task).map normalizeGuardTarget

end Flowness.Planning
