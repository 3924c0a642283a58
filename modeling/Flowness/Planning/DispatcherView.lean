import Flowness.Ledger.Log
import Flowness.Planning.PlanEvents

/-!
The events of the log as the dispatcher takes them: every stub unwrapped, the type it was written with kept
beside it, and what they say about completed tasks and the types of tasks.
-/

namespace Flowness.Planning

open Library Schemas Ledger

/-- `after_state` when it is an object, else the payload itself. -/
def afterOrSelf (payload : Dict String Json) : Dict String Json :=
  match Json.lookup payload "after_state" with
  | .obj after => after
  | _ => payload

def dispatchFields (eventType : EventType) (payload : Payload) : Dict String Json :=
  afterOrSelf (effKindPayload eventType payload).2

/-- `_all_events_as_dicts_from`, one record. -/
def eventAsDict (record : EventRecord) : LogEvent :=
  [("event_type", .str (effKindPayload record.eventType record.payload).1),
    ("raw_event_type", .str record.eventType.value), ("event_id", .str record.eventId.val),
    ("timestamp", .str (isoformat record.timestamp)),
    ("payload", .obj [("after_state", .obj (dispatchFields record.eventType record.payload))])]

def allEventsAsDicts (records : List EventRecord) : List LogEvent := records.map eventAsDict

section Readers

variable (strOther : Json → String)

def successTask (event : LogEvent) : Option String :=
  if eventType strOther event = "TaskRunCompleted" ∧
      Json.lookup (afterState strOther event) "outcome" = .str "success" then
    (some (member strOther (afterState strOther event) "task_id")).filter (· ≠ "")
  else none

/-- `completed_success_task_ids`, with repetitions. -/
def completedSuccessTaskIds (events : List LogEvent) : List String :=
  events.filterMap (successTask strOther)

def createsTask (task : String) (event : LogEvent) : Bool :=
  eventType strOther event = "TaskNodeCreated" ∧
    Json.lookup (afterState strOther event) "task_id" = .str task

/-- `task_type_from_events`: the type the task was first created with. -/
def taskTypeFromEvents (task : String) (events : List LogEvent) : Option String :=
  (events.find? (createsTask strOther task)).bind fun event =>
    let taskType := Json.lookup (afterState strOther event) "task_type"
    if taskType.truthy then some (str strOther taskType) else none

end Readers

section

variable {strOther : Json → String} {record : EventRecord} {records : List EventRecord}
  {task : String}

theorem eventType_eventAsDict (record : EventRecord) :
    eventType strOther (eventAsDict record) = (effKindPayload record.eventType record.payload).1 := by
  have hwritten : member strOther (eventAsDict record) "event_type" =
      (effKindPayload record.eventType record.payload).1 := rfl
  have hpayload : (Json.lookup (eventAsDict record) "payload").asDict =
      [("after_state", .obj (dispatchFields record.eventType record.payload))] := rfl
  unfold eventType
  simp only [hwritten, hpayload]
  -- the new payload has no kind, whatever the type is
  have hkind : Json.nonBlank
      [("after_state", .obj (dispatchFields record.eventType record.payload))] "kind" = none := rfl
  rw [hkind, Option.getD_none, ite_self]

theorem afterState_eventAsDict (record : EventRecord) :
    afterState strOther (eventAsDict record) = dispatchFields record.eventType record.payload := by
  have hpayload : (Json.lookup (eventAsDict record) "payload").asDict =
      [("after_state", .obj (dispatchFields record.eventType record.payload))] := rfl
  have hkind : (Json.lookup
      [("after_state", Json.obj (dispatchFields record.eventType record.payload))]
        "kind").text?.isSome = false := rfl
  unfold afterState
  simp only [hpayload, hkind, Bool.false_eq_true, and_false]
  rfl

theorem successTask_eventAsDict (record : EventRecord) :
    successTask strOther (eventAsDict record) =
      if (effKindPayload record.eventType record.payload).1 = "TaskRunCompleted" ∧
          Json.lookup (dispatchFields record.eventType record.payload) "outcome" = .str "success" then
        (some (member strOther (dispatchFields record.eventType record.payload) "task_id")).filter (· ≠ "")
      else none := by
  unfold successTask
  rw [eventType_eventAsDict, afterState_eventAsDict]

theorem mem_completedSuccessTaskIds :
    task ∈ completedSuccessTaskIds strOther (allEventsAsDicts records) ↔
      ∃ record ∈ records, successTask strOther (eventAsDict record) = some task := by
  unfold completedSuccessTaskIds allEventsAsDicts
  rw [List.filterMap_map, List.mem_filterMap]
  rfl

theorem mem_closedTaskIds :
    task ∈ closedTaskIds strOther (allEventsAsDicts records) ↔
      task ≠ "" ∧ ∃ record ∈ records, record.eventType = .taskNodeClosed ∧
        member strOther (dispatchFields record.eventType record.payload) "task_id" = task := by
  have hclosed : ∀ record : EventRecord,
      (if (Json.lookup (eventAsDict record) "raw_event_type").truthy
        then str strOther (Json.lookup (eventAsDict record) "raw_event_type")
        else member strOther (eventAsDict record) "event_type") = "TaskNodeClosed" ↔
      record.eventType = .taskNodeClosed := by
    intro record
    have hraw : Json.lookup (eventAsDict record) "raw_event_type" = .str record.eventType.value := rfl
    have htruthy : (Json.str record.eventType.value).truthy = true := by
      cases record.eventType <;> rfl
    rw [hraw, htruthy]
    constructor
    · exact fun h => StrEnum.value_inj (h : EventType.value record.eventType = EventType.value .taskNodeClosed)
    · intro h
      rw [h]
      rfl
  unfold closedTaskIds allEventsAsDicts
  simp only [List.mem_filter, List.mem_map, decide_eq_true_eq, ne_eq, decide_not, Bool.not_eq_true',
    decide_eq_false_iff_not]
  constructor
  · rintro ⟨⟨event, ⟨⟨record, hrecord, rfl⟩, hraw⟩, rfl⟩, hne⟩
    refine ⟨hne, record, hrecord, (hclosed record).mp hraw, ?_⟩
    rw [afterState_eventAsDict]
  · rintro ⟨hne, record, hrecord, hraw, htask⟩
    refine ⟨⟨eventAsDict record, ⟨⟨record, hrecord, rfl⟩, (hclosed record).mpr hraw⟩, ?_⟩, hne⟩
    rw [afterState_eventAsDict, htask]

end

end Flowness.Planning
