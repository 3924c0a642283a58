import Flowness.Library.Checked
import Flowness.Schemas.RecordJson

/-!
The committed-visibility rule: a path-B record is visible at once, the records of a batch when
its sentinel is read. Readers buffer by `batch_id` in between.
-/

namespace Flowness.Ledger

open Library Schemas

inductive ScanError where
  | unicodeDecode
  | schemaEvolution (schemaVersion eventId : String)
deriving DecidableEq, Repr

/-- `path_a_buffer`. -/
abbrev Buffer := Dict String (List EventRecord)

namespace Buffer

def pending (buffer : Buffer) (batchId : String) : List EventRecord :=
  (Dict.get buffer batchId).getD []

def push (buffer : Buffer) (batchId : String) (record : EventRecord) : Buffer :=
  Dict.set buffer batchId (pending buffer batchId ++ [record])

theorem pending_erase (buffer : Buffer) (batchId other : String) :
    pending (Dict.erase buffer batchId) other =
      if other = batchId then [] else buffer.pending other := by
  unfold pending
  by_cases heq : other = batchId
  · rw [if_pos heq, heq, Dict.get_erase_self, Option.getD_none]
  · rw [if_neg heq, Dict.get_erase_of_ne _ heq]

theorem pending_push (buffer : Buffer) (batchId other : String) (record : EventRecord) :
    (buffer.push batchId record).pending other =
      if other = batchId then buffer.pending batchId ++ [record] else buffer.pending other := by
  unfold push pending
  by_cases heq : other = batchId
  · rw [if_pos heq, heq, Dict.get_set_self, Option.getD_some]
  · rw [if_neg heq, Dict.get_set_of_ne _ _ heq]

end Buffer

def visit (buffer : Buffer) (record : EventRecord) :
    Except ScanError (List EventRecord × Buffer) :=
  if record.failsReplay then
    .error (.schemaEvolution record.schemaVersion.val record.eventId.val)
  else if !record.isKnown then .ok ([], buffer)
  else match record.batchId with
    | none => .ok ([record], buffer)
    | some batchId =>
      if record.isSentinel then
        .ok (buffer.pending batchId ++ [record], Dict.erase buffer batchId)
      else .ok ([], buffer.push batchId record)

def visitAll (buffer : Buffer) :
    List EventRecord → Except ScanError (List EventRecord × Buffer)
  | [] => .ok ([], buffer)
  | record :: records => do
    let (out, buffer) ← visit buffer record
    let (rest, buffer) ← visitAll buffer records
    return (out ++ rest, buffer)

def parsedRecords (lines : List Text) : List EventRecord :=
  lines.filterMap EventRecord.validateJson

def iterCommittedRecordsFromLines (lines : List Text) : Except ScanError (List EventRecord) :=
  (visitAll [] (parsedRecords lines)).map Prod.fst

theorem parsedRecords_singleton (line : Text) :
    parsedRecords [line] = (EventRecord.validateJson line).toList := by
  unfold parsedRecords
  rw [List.filterMap_cons]
  cases EventRecord.validateJson line <;> rfl

theorem parsedRecords_append (left right : List Text) :
    parsedRecords (left ++ right) = parsedRecords left ++ parsedRecords right := by
  unfold parsedRecords
  rw [List.filterMap_append]

theorem parsedRecords_dump (records : List EventRecord) :
    parsedRecords (records.map EventRecord.dumpJson) = records := by
  induction records with
  | nil => rfl
  | cons record records ih =>
    unfold parsedRecords at ih ⊢
    rw [List.map_cons, List.filterMap_cons, EventRecord.validateJson_dumpJson, ih]

theorem visitAll_append (buffer : Buffer) (left right : List EventRecord) :
    visitAll buffer (left ++ right) = (do
      let (out, buffer) ← visitAll buffer left
      let (rest, buffer) ← visitAll buffer right
      return (out ++ rest, buffer)) := by
  induction left generalizing buffer with
  | nil =>
    simp only [List.nil_append, visitAll, pure, bind, Except.bind]
    cases visitAll buffer right <;> rfl
  | cons record left ih =>
    simp only [List.cons_append, visitAll, ih, pure, Except.pure, bind, Except.bind]
    cases visit buffer record with
    | error e => rfl
    | ok step =>
      obtain ⟨out, buffer'⟩ := step
      dsimp only
      cases visitAll buffer' left with
      | error e => rfl
      | ok front =>
        obtain ⟨outs, buffer''⟩ := front
        dsimp only
        cases visitAll buffer'' right with
        | error e => rfl
        | ok rest => simp [List.append_assoc]

theorem visitAll_append_ok (hleft : visitAll buffer left = .ok (out, middle))
    (hright : visitAll middle right = .ok (rest, final)) :
    visitAll buffer (left ++ right) = .ok (out ++ rest, final) := by
  simp only [visitAll_append, hleft, hright, bind, Except.bind, pure, Except.pure]

theorem visitAll_ok_append (h : visitAll buffer (left ++ right) = .ok (out, final)) :
    ∃ front middle rest, visitAll buffer left = .ok (front, middle) ∧
      visitAll middle right = .ok (rest, final) ∧ out = front ++ rest := by
  simp only [visitAll_append, bind_ok, Prod.exists] at h
  obtain ⟨front, middle, hleft, rest, last, hright, h⟩ := h
  cases h
  exact ⟨front, middle, rest, hleft, hright, rfl⟩

theorem visitAll_cons_ok (h : visitAll buffer (record :: records) = .ok (out, final)) :
    ∃ early next late, visit buffer record = .ok (early, next) ∧
      visitAll next records = .ok (late, final) ∧ out = early ++ late := by
  simp only [visitAll, bind_ok, Prod.exists] at h
  obtain ⟨early, next, hvisit, late, last, hrest, h⟩ := h
  cases h
  exact ⟨early, next, late, hvisit, hrest, rfl⟩

structure LifecycleFields where
  sequenceNumber : Int
  eventId : String
  schemaVersion : Option Json
  baseClassification : Option Json
  batchId : Option Json
  eventType : Option Json

def lifecycleFields (value : Json) : Option LifecycleFields := do
  let sequenceNumber ← (value.get "sequence_number").bind Json.asInt
  match value.get "event_id" with
  | some (.str eventId) =>
    return { sequenceNumber, eventId, schemaVersion := value.get "schema_version",
             baseClassification := value.get "base_classification",
             batchId := value.get "batch_id", eventType := value.get "event_type" }
  | _ => none

def sentinelValues : List String :=
  [EventType.commitAccepted.value, EventType.commitRejected.value]

abbrev LifecycleBuffer := Dict String (List (Int × String))

def lifecycleBatch (buffer : LifecycleBuffer) (fields : LifecycleFields) :
    List (Int × String) × LifecycleBuffer :=
  match fields.batchId with
  | none | some .null => ([(fields.sequenceNumber, fields.eventId)], buffer)
  | some (.str batchId) =>
    let pending := (Dict.get buffer batchId).getD [] ++ [(fields.sequenceNumber, fields.eventId)]
    if fields.eventType ∈ sentinelValues.map (fun value => some (Json.str value)) then
      (pending, Dict.erase buffer batchId)
    else ([], Dict.set buffer batchId pending)
  | some _ => ([], buffer)

/-- One line of `_iter_committed_lifecycle_fields`. -/
def lifecycleVisit (buffer : LifecycleBuffer) (line : Text) :
    Except ScanError (List (Int × String) × LifecycleBuffer) :=
  match (Json.parse line).bind lifecycleFields with
  | none => .ok ([], buffer)
  | some fields =>
    match fields.schemaVersion with
    | some (.str version) =>
      if isKnownSchemaVersion version then .ok (lifecycleBatch buffer fields)
      else match fields.baseClassification with
        | some (.str text) =>
          match (StrEnum.ofValue text : Option BaseClassification) with
          | none => .ok ([], buffer)
          | some classification =>
            if unknownVersionReaderAction classification = .failReplay then
              .error (.schemaEvolution version fields.eventId)
            else .ok ([], buffer)
        | _ => .ok ([], buffer)
    | _ => .ok (lifecycleBatch buffer fields)

def lifecycleVisitAll (buffer : LifecycleBuffer) :
    List Text → Except ScanError (List (Int × String) × LifecycleBuffer)
  | [] => .ok ([], buffer)
  | line :: lines => do
    let (out, buffer) ← lifecycleVisit buffer line
    let (rest, buffer) ← lifecycleVisitAll buffer lines
    return (out ++ rest, buffer)

def iterCommittedLifecycleFields (lines : List Text) : Except ScanError (List (Int × String)) :=
  (lifecycleVisitAll [] lines).map Prod.fst

end Flowness.Ledger
