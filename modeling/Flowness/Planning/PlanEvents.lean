import Flowness.Schemas.PayloadAccess

/-!
How the freeze checks and the dispatcher read the events of a log: the type and the fields of an
event in its canonical shape and in the shape of a rewrapped stub, and the sets of tasks and edges
that the events add up to.
-/

namespace Flowness.Planning

open Library

/-- One line of the log as `json.loads` gives it. -/
abbrev LogEvent := Dict String Json

section Readers

/- Python's `str` of a value that is not a string. -/
variable (strOther : Json → String)

/-- `str(value)`. -/
def str : Json → String
  | .str text => text
  | value => strOther value

/-- `str(entries.get(key, ""))`. -/
def member (entries : Dict String Json) (key : String) : String :=
  str strOther ((Dict.get entries key).getD (.str ""))

/-- `_event_type`: a `NodeTouched` with a kind is taken for an event of that type. -/
def eventType (event : LogEvent) : String :=
  let written := member strOther event "event_type"
  if written = "NodeTouched" then
    ((Json.nonBlank (Json.lookup event "payload").asDict "kind")).getD written
  else written

/-- `_after_state`: the fields of a rewrapped stub are those of the event it stands for. -/
def afterState (event : LogEvent) : Dict String Json :=
  let payload := (Json.lookup event "payload").asDict
  let canonical := (Json.lookup payload "after_state").asDict
  if member strOther event "event_type" = "NodeTouched" ∧
      (Json.lookup payload "kind").text?.isSome then
    match Json.lookup payload "stub_original_payload" with
    | .obj stub =>
      let inner := (Json.lookup stub "after_state").asDict
      if inner ≠ [] then inner else stub
    | _ => canonical
  else canonical

def beforeState (event : LogEvent) : Dict String Json :=
  (Json.lookup (Json.lookup event "payload").asDict "before_state").asDict

/-- `closed_task_ids`: the type before any unwrapping has to be that of a closure. -/
def closedTaskIds (events : List LogEvent) : List String :=
  let closures := events.filter fun event =>
    let raw := Json.lookup event "raw_event_type"
    (if raw.truthy then str strOther raw else member strOther event "event_type") = "TaskNodeClosed"
  (closures.map fun event => member strOther (afterState strOther event) "task_id").filter (· ≠ "")

def planTaskIds (events : List LogEvent) (planId : String) : List String :=
  (events.filter fun event =>
    eventType strOther event = "TaskNodeCreated" ∧
      Json.lookup (afterState strOther event) "plan_id" = .str planId).map fun event =>
    member strOther (afterState strOther event) "task_id"

abbrev EdgeIdentity := String × String × String

def edgeIdentity (fields : Dict String Json) : EdgeIdentity :=
  (member strOther fields "source_task_id", member strOther fields "target_task_id",
    member strOther fields "dependency_type")

def replayEdge (active : List EdgeIdentity) (event : LogEvent) : List EdgeIdentity :=
  if eventType strOther event = "TaskDependencyEdgeAdded" then
    active.insert (edgeIdentity strOther (afterState strOther event))
  else if eventType strOther event = "TaskDependencyEdgeRemoved" then
    active.filter (· ≠ edgeIdentity strOther (beforeState event))
  else active

/-- `_active_dependency_edges`: added edges less those withdrawn since. -/
def activeDependencyEdges (events : List LogEvent) : List EdgeIdentity :=
  events.foldl (replayEdge strOther) []

/-- `str(fields.get(canonical) or fields.get(alias) or "")`. -/
def aliasedMember (fields : Dict String Json) (canonical alternative : String) : String :=
  if (Json.lookup fields canonical).truthy then str strOther (Json.lookup fields canonical)
  else if (Json.lookup fields alternative).truthy then str strOther (Json.lookup fields alternative)
  else ""

def addedEdges (events : List LogEvent) : List (String × String) :=
  (events.filter fun event => eventType strOther event = "TaskDependencyEdgeAdded").map fun event =>
    let fields := afterState strOther event
    (aliasedMember strOther fields "source_task_id" "from_task",
      aliasedMember strOther fields "target_task_id" "to_task")

end Readers

def canonicalEvent (eventType : String) (fields : Dict String Json) : LogEvent :=
  [("event_type", .str eventType), ("payload", .obj [("after_state", .obj fields)])]

def taskNodeCreated (task planId : String) : LogEvent :=
  canonicalEvent "TaskNodeCreated" [("task_id", .str task), ("plan_id", .str planId)]

def edgeFields (source target : String) : Dict String Json :=
  [("source_task_id", .str source), ("target_task_id", .str target), ("dependency_type", .str "ordering")]

def taskDependencyEdgeAdded (source target : String) : LogEvent :=
  canonicalEvent "TaskDependencyEdgeAdded" (edgeFields source target)

def taskDependencyEdgeRemoved (source target : String) : LogEvent :=
  [("event_type", .str "TaskDependencyEdgeRemoved"),
    ("payload", .obj [("before_state", .obj (edgeFields source target))])]

/-- `str` of the values that are no string, as far as the sample events have any. -/
def sampleStr : Json → String
  | .null => "None"
  | .bool value => if value then "True" else "False"
  | .int value => toString value
  | _ => ""

end Flowness.Planning
