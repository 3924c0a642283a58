import Flowness.Ledger.Log
import Flowness.Projection.ConceptGraph

/-!
The task graph projection: task nodes with their run state, and dependency edges that are
deactivated and revived in place. A closed task is closed until a publication or a run result of it
comes later.
-/

namespace Flowness.Projection

open Option List Library Schemas Ledger

structure TaskNode where
  taskId : String
  taskType : Json
  phase : Json
  parentTaskId : Json
  planId : Json
  description : Json
  targetArtifacts : Json
  status : String := "created"
  modelTier : Json := .null
  readSet : Json := .arr []
  writeSet : Json := .arr []
  packageHash : Json := .null
  isSelfContained : Json := .null
  lastRunOutcome : Json := .null
  createdAtEventId : String
  requiresOwnerGate : Bool
  ownerGateReason : Option String

structure DependencyIdent where
  sourceTaskId : Json
  targetTaskId : Json
  dependencyType : Json
deriving DecidableEq

structure DependencyEdge where
  ident : DependencyIdent
  isActive : Bool := true

structure TaskGraph where
  nodes : List TaskNode := []
  edges : List DependencyEdge := []

def dependencyIdent (state : Dict String Json) : DependencyIdent where
  sourceTaskId := member state "source_task_id" (.str "")
  targetTaskId := member state "target_task_id" (.str "")
  dependencyType := member state "dependency_type" (.str "")

def taskNode (event : EventRecord) (taskId : String) : TaskNode :=
  let after := event.payload.afterState
  { taskId
    taskType := member after "task_type" (.str "")
    phase := Json.lookup after "phase"
    parentTaskId := Json.lookup after "parent_task_id"
    planId := Json.lookup after "plan_id"
    description := member after "description" (.str "")
    targetArtifacts := member after "target_artifacts" (.arr [])
    createdAtEventId := event.eventId.val
    requiresOwnerGate := member after "requires_owner_gate" (.bool false) = .bool true
    ownerGateReason := (Json.lookup after "owner_gate_reason").text? }

def taskRunStatus : Dict String String :=
  [("success", "completed"), ("aborted_for_replan", "in_progress"),
    ("aborted_unrecoverable", "failed"), ("aborted_external", "failed"),
    ("aborted_advisor_decision", "escalated"), ("failure", "failed"), ("escalated", "escalated"),
    ("partial", "in_progress")]

def TaskNode.update (event : EventRecord) (node : TaskNode) : TaskNode :=
  let after := event.payload.afterState
  match event.eventType with
  | .taskReadSetClaimed => { node with readSet := member after "read_set" (.arr []) }
  | .taskWriteSetClaimed => { node with writeSet := member after "write_set" (.arr []) }
  | .taskModelTierAssigned => { node with modelTier := Json.lookup after "model_tier" }
  | .taskPackagePublished =>
    { node with
      packageHash := Json.lookup after "package_hash"
      isSelfContained := Json.lookup after "is_self_contained"
      status := "planned" }
  | .taskRunCompleted =>
    { node with
      lastRunOutcome := Json.lookup after "outcome"
      status := (Dict.get taskRunStatus (((Json.lookup after "outcome").text?).getD "")).getD
        "in_progress" }
  | .taskNodeClosed => { node with status := "closed" }
  | .taskNodeOwnerGateCleared => { node with requiresOwnerGate := false, ownerGateReason := none }
  | _ => node

def namedTask (event : EventRecord) : Option String :=
  (Json.lookup event.payload.afterState "task_id").text?

def updateTask (nodes : List TaskNode) (event : EventRecord) : List TaskNode :=
  match nodes with
  | [] => []
  | node :: nodes =>
    if namedTask event = some node.taskId then node.update event :: nodes
    else node :: updateTask nodes event

def addDependency (edges : List DependencyEdge) (ident : DependencyIdent) : List DependencyEdge :=
  match edges with
  | [] => [{ ident }]
  | edge :: edges =>
    if edge.ident = ident then { edge with isActive := true } :: edges
    else edge :: addDependency edges ident

def DependencyEdge.deactivate (ident : DependencyIdent) (edge : DependencyEdge) : DependencyEdge :=
  if edge.ident = ident then { edge with isActive := false } else edge

def taskUpdateTypes : List EventType :=
  [.taskReadSetClaimed, .taskWriteSetClaimed, .taskModelTierAssigned, .taskPackagePublished,
    .taskRunCompleted, .taskNodeClosed, .taskNodeOwnerGateCleared]

def reduceTaskGraph (graph : TaskGraph) (event : EventRecord) : TaskGraph :=
  match event.eventType with
  | .taskNodeCreated =>
    match namedTask event with
    | some taskId =>
      if taskId ∈ graph.nodes.map TaskNode.taskId then graph
      else { graph with nodes := graph.nodes ++ [taskNode event taskId] }
    | none => graph
  | .taskDependencyEdgeAdded =>
    { graph with edges := addDependency graph.edges (dependencyIdent event.payload.afterState) }
  | .taskDependencyEdgeRemoved =>
    let ident := dependencyIdent (event.payload.getD "before_state" .null).asDict
    { graph with edges := graph.edges.map (·.deactivate ident) }
  | eventType =>
    if eventType ∈ taskUpdateTypes then { graph with nodes := updateTask graph.nodes event }
    else graph

def taskGraph (records : List EventRecord) : TaskGraph := records.foldl reduceTaskGraph {}

namespace TaskGraph

def taskIds (graph : TaskGraph) : List String := graph.nodes.map TaskNode.taskId

def status (graph : TaskGraph) (taskId : String) : Option String :=
  (graph.nodes.find? (·.taskId = taskId)).map TaskNode.status

end TaskGraph

@[simp] theorem taskId_update (event : EventRecord) (node : TaskNode) :
    (node.update event).taskId = node.taskId := by
  unfold TaskNode.update
  split <;> rfl

theorem taskRunStatus_ne_closed (outcome : String) :
    (Dict.get taskRunStatus outcome).getD "in_progress" ≠ "closed" := by
  have hvalues : ∀ entry ∈ taskRunStatus, entry.2 ≠ "closed" := by decide
  cases hget : Dict.get taskRunStatus outcome with
  | none => exact by decide
  | some status => exact hvalues _ (Dict.mem_of_get hget)

/-- The events that write another status than the closing one. -/
def reopens (event : EventRecord) (taskId : String) : Prop :=
  (event.eventType = .taskPackagePublished ∨ event.eventType = .taskRunCompleted) ∧
    namedTask event = some taskId

def closes (event : EventRecord) (taskId : String) : Prop :=
  event.eventType = .taskNodeClosed ∧ namedTask event = some taskId

theorem status_update_of_reopens (h : reopens event taskId) (node : TaskNode) :
    (node.update event).status ≠ "closed" := by
  unfold TaskNode.update
  rcases h.1 with hpublished | hcompleted
  · rw [hpublished]
    exact (by decide : "planned" ≠ "closed")
  · rw [hcompleted]
    exact taskRunStatus_ne_closed _

theorem status_update_of_not_reopens {node : TaskNode} (hnamed : namedTask event = some node.taskId)
    (h : ¬reopens event node.taskId) (hclosed : node.status = "closed") :
    (node.update event).status = "closed" := by
  unfold TaskNode.update
  split
  · exact hclosed
  · exact hclosed
  · exact hclosed
  next htype =>
    exact absurd ⟨.inl htype, hnamed⟩ h
  next htype =>
    exact absurd ⟨.inr htype, hnamed⟩ h
  · rfl
  · exact hclosed
  · exact hclosed

theorem find_updateTask (nodes : List TaskNode) (event : EventRecord) (taskId : String) :
    (updateTask nodes event).find? (·.taskId = taskId) =
      (nodes.find? (·.taskId = taskId)).map fun node =>
        if namedTask event = some taskId then node.update event else node := by
  induction nodes with
  | nil => rfl
  | cons node nodes ih =>
    rw [updateTask]
    by_cases hid : node.taskId = taskId
    · subst hid
      split
      · simp
      · simp
    · split
      next hnamed =>
        have hother : namedTask event ≠ some taskId := by
          rw [hnamed]
          exact fun heq => hid (some.inj heq)
        simp [hid, hother]
      · simp [hid, ih]

theorem find_reduceTaskGraph {node : TaskNode}
    (hnode : graph.nodes.find? (·.taskId = taskId) = some node) (event : EventRecord) :
    (reduceTaskGraph graph event).nodes.find? (·.taskId = taskId) =
      some (if event.eventType ∈ taskUpdateTypes ∧ namedTask event = some taskId then
        node.update event else node) := by
  unfold reduceTaskGraph
  split
  next htype =>
    rw [if_neg (by simp [htype, taskUpdateTypes])]
    split
    · split
      · exact hnode
      · rw [List.find?_append, hnode]
        rfl
    · exact hnode
  next htype =>
    rw [if_neg (by simp [htype, taskUpdateTypes])]
    exact hnode
  next htype =>
    rw [if_neg (by simp [htype, taskUpdateTypes])]
    exact hnode
  · split
    next htype =>
      rw [find_updateTask, hnode, map_some]
      simp only [htype, true_and]
    next htype =>
      rw [if_neg (by simp [htype])]
      exact hnode

/-- After the closing event and after each of the later ones the task is closed. -/
def StaysClosed (before : List EventRecord) (closing : EventRecord) (later : List EventRecord)
    (taskId : String) : Prop :=
  ∀ front rest, later = front ++ rest →
    (taskGraph (before ++ closing :: front)).status taskId = some "closed"

theorem status_closing (hexists : taskId ∈ (taskGraph before).taskIds)
    (hcloses : closes closing taskId) :
    (taskGraph (before ++ [closing])).status taskId = some "closed" := by
  obtain ⟨node, hmem, hid⟩ := mem_map.mp hexists
  obtain ⟨found, hfound⟩ := isSome_iff_exists.mp
    (List.find?_isSome (p := (·.taskId = taskId)) |>.mpr ⟨node, hmem, by simpa using hid⟩)
  unfold taskGraph TaskGraph.status at *
  rw [foldl_append, foldl_cons, foldl_nil, find_reduceTaskGraph hfound,
    if_pos ⟨by simp [hcloses.1, taskUpdateTypes], hcloses.2⟩, map_some]
  unfold TaskNode.update
  rw [hcloses.1]

theorem status_next (hclosed : (taskGraph records).status taskId = some "closed")
    (event : EventRecord) :
    (taskGraph (records ++ [event])).status taskId = some "closed" ↔ ¬reopens event taskId := by
  obtain ⟨node, hnode, hstatus⟩ := map_eq_some_iff.mp hclosed
  obtain rfl : node.taskId = taskId := by simpa using List.find?_some hnode
  unfold taskGraph TaskGraph.status at *
  rw [foldl_append, foldl_cons, foldl_nil, find_reduceTaskGraph hnode,
    map_some, some.injEq]
  constructor
  · intro hstill hreopens
    have hupdates : event.eventType ∈ taskUpdateTypes := by
      rcases hreopens.1 with htype | htype
      · simp [htype, taskUpdateTypes]
      · simp [htype, taskUpdateTypes]
    rw [if_pos ⟨hupdates, hreopens.2⟩] at hstill
    exact status_update_of_reopens hreopens node hstill
  · intro hreopens
    split
    next hupdates =>
      exact status_update_of_not_reopens hupdates.2 hreopens hstatus
    · exact hstatus

/-- A task that was closed stays so exactly when none of its packages is published and none of its
runs completes later. -/
theorem staysClosed_iff (before : List EventRecord) (closing : EventRecord)
    (later : List EventRecord) (taskId : String) (hexists : taskId ∈ (taskGraph before).taskIds)
    (hcloses : closes closing taskId) :
    StaysClosed before closing later taskId ↔ ∀ event ∈ later, ¬reopens event taskId := by
  constructor
  · intro h event hmem
    obtain ⟨front, rest, rfl⟩ := append_of_mem hmem
    have hbefore := h front (event :: rest) rfl
    have hafter := h (front ++ [event]) rest (by simp)
    rw [← cons_append, ← append_assoc] at hafter
    exact (status_next hbefore event).mp hafter
  · intro h front rest hsplit
    induction front using List.reverseRecOn generalizing rest with
    | nil => exact status_closing hexists hcloses
    | append_singleton front event ih =>
      have hbefore := ih (event :: rest) (by rw [hsplit, append_assoc, singleton_append])
      rw [← cons_append, ← append_assoc]
      exact (status_next hbefore event).mpr (h event (by rw [hsplit]; simp))

def taskEvent (eventType : EventType) (sequenceNumber : Nat) : EventRecord :=
  { sampleRecord with
    eventType, sequenceNumber
    payload := ⟨[("after_state", .obj [("task_id", .str "t-1"), ("outcome", .str "success")])], rfl⟩ }

/-- A run result that comes after the closing takes the place of the closed status. -/
theorem late_result_reopens :
    ¬ ∀ before closing later taskId, taskId ∈ (taskGraph before).taskIds → closes closing taskId →
      StaysClosed before closing later taskId := by
  intro hcloses
  have hclosed := hcloses [taskEvent .taskNodeCreated 1] (taskEvent .taskNodeClosed 2)
    [taskEvent .taskRunCompleted 3] "t-1" (by decide +kernel) ⟨rfl, by decide +kernel⟩
    [taskEvent .taskRunCompleted 3] [] rfl
  exact absurd hclosed (by decide +kernel)

/-- A claim and a cleared gate leave the task closed. -/
theorem claim_leaves_closed :
    StaysClosed [taskEvent .taskNodeCreated 1] (taskEvent .taskNodeClosed 2)
      [taskEvent .taskReadSetClaimed 3, taskEvent .taskNodeOwnerGateCleared 4] "t-1" := by
  refine (staysClosed_iff _ _ _ _ (by decide +kernel) ⟨rfl, by decide +kernel⟩).mpr ?_
  intro event hmem hreopens
  have htypes : ∀ other ∈ [taskEvent .taskReadSetClaimed 3, taskEvent .taskNodeOwnerGateCleared 4],
      other.eventType ≠ .taskPackagePublished ∧ other.eventType ≠ .taskRunCompleted := by
    decide +kernel
  rcases hreopens.1 with htype | htype
  · exact (htypes event hmem).1 htype
  · exact (htypes event hmem).2 htype

end Flowness.Projection
