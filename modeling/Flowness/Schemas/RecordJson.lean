import Flowness.Library.JsonLines
import Flowness.Schemas.EventRecord

/-!
The JSON form of a record: `model_dump_json` writes every field in declaration order,
`model_validate_json` reads them strictly, forbids other fields and runs the validators.
-/

namespace Flowness.Schemas

open Library Dict Option Json

/-- A field declared `str | None = None`. -/
private def asOptionalText : Option Json → Option (Option String)
  | none => some none
  | some .null => some none
  | some (.str text) => some (some text)
  | some _ => none

private def asNat : Json → Option Nat
  | .int (.ofNat n) => some n
  | _ => none

private def checked {α : Type} (p : α → Prop) [DecidablePred p] (a : α) : Option { a // p a } :=
  if h : p a then some ⟨a, h⟩ else none

private def forbidsExtra (entries : List (String × Json)) (fields : List String) : Bool :=
  entries.all (fun entry => decide (entry.1 ∈ fields))

private def asEnum {α : Type} [StrEnum α] (value : Json) : Option α :=
  (text? value).bind StrEnum.ofValue

private def fieldsOf : Json → Option (List (String × Json))
  | .obj entries => some entries
  | _ => none

private def asBool : Json → Option Bool
  | .bool b => some b
  | _ => none

private def asOptionalEnum {α : Type} [StrEnum α] : Option Json → Option (Option α)
  | none => some none
  | some .null => some none
  | some value => (asEnum value).map some

private def asItems : Json → Option (List Json)
  | .arr items => some items
  | _ => none

private def optionalNat : Option Nat → Json
  | none => .null
  | some n => .int n

private def asOptionalNat : Option Json → Option (Option Nat)
  | none => some none
  | some .null => some none
  | some value => (asNat value).map some

private theorem asOptionalText_optionalText (text : Option String) :
    asOptionalText (some (optionalText text)) = some text := by
  cases text <;> rfl

private theorem checked_val {α : Type} {p : α → Prop} [DecidablePred p] (a : { a // p a }) :
    checked p a.val = some a := by
  simp [checked, a.property]

private theorem asEnum_value {α : Type} [StrEnum α] (member : α) :
    asEnum (.str (StrEnum.value member)) = some member := by
  simp [asEnum, text?]

section

variable {α β : Type}

private theorem bind_eq {result : Option β} (a : α) (hx : x = some a) (hf : f a = result) :
    (x >>= f) = result := by
  rw [hx]
  exact hf

private theorem bind_eq_none (hf : ∀ a, f a = none) : (x >>= f) = none := by
  cases x with
  | none => rfl
  | some a => exact hf a

end

private theorem guard_eq (h : b = true) : (guard (b = true) : Option Unit) = some () := by
  rw [h]
  rfl

namespace Subject

def toJson (subject : Subject) : Json :=
  .obj [("entity_type", .str (StrEnum.value subject.entityType)),
    ("entity_id", .str subject.entityId.val), ("role", .str (StrEnum.value subject.role))]

def ofJson (value : Json) : Option Subject := do
  let entries ← fieldsOf value
  guard (forbidsExtra entries ["entity_type", "entity_id", "role"])
  let entityType ← (Dict.get entries "entity_type").bind asEnum
  let entityId ← (Dict.get entries "entity_id").bind text?
  let entityId ← checked (· ≠ "") entityId
  let role ← (Dict.get entries "role").bind asEnum
  return { entityType, entityId, role }

theorem ofJson_toJson (subject : Subject) : ofJson subject.toJson = some subject := by
  apply bind_eq _ rfl
  apply bind_eq () (guard_eq rfl)
  apply bind_eq subject.entityType (by simp [get_cons, asEnum_value])
  apply bind_eq subject.entityId.val (by simp [get_cons, text?])
  apply bind_eq _ (checked_val subject.entityId)
  apply bind_eq subject.role (by simp [get_cons, asEnum_value])
  rfl

end Subject

namespace Supersede

def toJson : Supersede → Json
  | .none => .obj [("is_supersede", .bool false), ("superseded_event_id", .null),
      ("novelty", .null), ("novelty_type", .null)]
  | .supersedes eventId novelty noveltyType => .obj [("is_supersede", .bool true),
      ("superseded_event_id", .str eventId), ("novelty", .str novelty),
      ("novelty_type", .str (StrEnum.value noveltyType))]

/-- `enforce_supersede_consistency`: the three fields are all there or all absent. -/
def ofFields (isSupersede : Bool) (eventId novelty : Option String)
    (noveltyType : Option SupersedeNoveltyType) : Option Supersede :=
  match isSupersede, eventId, novelty, noveltyType with
  | true, some eventId, some novelty, some noveltyType =>
    some (.supersedes eventId novelty noveltyType)
  | false, Option.none, Option.none, Option.none => some .none
  | _, _, _, _ => Option.none

def ofJson (value : Json) : Option Supersede := do
  let entries ← fieldsOf value
  guard (forbidsExtra entries ["is_supersede", "superseded_event_id", "novelty", "novelty_type"])
  let isSupersede ← (Dict.get entries "is_supersede").bind asBool
  let eventId ← asOptionalText (Dict.get entries "superseded_event_id")
  let novelty ← asOptionalText (Dict.get entries "novelty")
  let noveltyType ← asOptionalEnum (Dict.get entries "novelty_type")
  ofFields isSupersede eventId novelty noveltyType

theorem ofJson_toJson (supersede : Supersede) : ofJson supersede.toJson = some supersede := by
  cases supersede with
  | none =>
    apply bind_eq _ rfl
    apply bind_eq () (guard_eq rfl)
    apply bind_eq false rfl
    apply bind_eq Option.none rfl
    apply bind_eq Option.none rfl
    apply bind_eq Option.none rfl
    rfl
  | supersedes eventId novelty noveltyType =>
    apply bind_eq _ rfl
    apply bind_eq () (guard_eq rfl)
    apply bind_eq true rfl
    apply bind_eq (some eventId) rfl
    apply bind_eq (some novelty) rfl
    apply bind_eq (some noveltyType) (by simp [get_cons, asOptionalEnum, asEnum_value])
    rfl

end Supersede

namespace Provenance

def toJson (provenance : Provenance) : Json :=
  .obj [("actor_type", .str provenance.actorType.val), ("actor_id", .str provenance.actorId.val),
    ("session_id", optionalText provenance.sessionId),
    ("task_id", optionalText provenance.taskId), ("run_id", optionalText provenance.runId),
    ("causation_event_id", optionalText provenance.causationEventId),
    ("correlation_id", optionalText provenance.correlationId),
    ("daemon_name", optionalText provenance.daemonName),
    ("skill_id", optionalText provenance.skillId),
    ("parent_session_id", optionalText provenance.parentSessionId),
    ("fork_name", optionalText provenance.forkName),
    ("writer_id", optionalText provenance.writerId)]

def fieldNames : List String :=
  ["actor_type", "actor_id", "session_id", "task_id", "run_id", "causation_event_id",
    "correlation_id", "daemon_name", "skill_id", "parent_session_id", "fork_name", "writer_id"]

def ofJson (value : Json) : Option Provenance := do
  let entries ← fieldsOf value
  guard (forbidsExtra entries fieldNames)
  let actorType ← (Dict.get entries "actor_type").bind text?
  let actorType ← checked (· ≠ "") actorType
  let actorId ← (Dict.get entries "actor_id").bind text?
  let actorId ← checked (· ≠ "") actorId
  let sessionId ← asOptionalText (Dict.get entries "session_id")
  let taskId ← asOptionalText (Dict.get entries "task_id")
  let runId ← asOptionalText (Dict.get entries "run_id")
  let causationEventId ← asOptionalText (Dict.get entries "causation_event_id")
  let correlationId ← asOptionalText (Dict.get entries "correlation_id")
  let daemonName ← asOptionalText (Dict.get entries "daemon_name")
  let skillId ← asOptionalText (Dict.get entries "skill_id")
  let parentSessionId ← asOptionalText (Dict.get entries "parent_session_id")
  let forkName ← asOptionalText (Dict.get entries "fork_name")
  let writerId ← asOptionalText (Dict.get entries "writer_id")
  if boundary : enforceActorTypeBoundary actorType.val daemonName sessionId skillId
      parentSessionId forkName = true then
    return { actorType, actorId, sessionId, taskId, runId, causationEventId, correlationId,
             daemonName, skillId, parentSessionId, forkName, boundary, writerId }
  else none

theorem ofJson_toJson (provenance : Provenance) : ofJson provenance.toJson = some provenance := by
  apply bind_eq _ rfl
  apply bind_eq () (guard_eq rfl)
  apply bind_eq provenance.actorType.val (by simp [get_cons, text?])
  apply bind_eq _ (checked_val provenance.actorType)
  apply bind_eq provenance.actorId.val (by simp [get_cons, text?])
  apply bind_eq _ (checked_val provenance.actorId)
  apply bind_eq provenance.sessionId (by simp [get_cons, asOptionalText_optionalText])
  apply bind_eq provenance.taskId (by simp [get_cons, asOptionalText_optionalText])
  apply bind_eq provenance.runId (by simp [get_cons, asOptionalText_optionalText])
  apply bind_eq provenance.causationEventId (by simp [get_cons, asOptionalText_optionalText])
  apply bind_eq provenance.correlationId (by simp [get_cons, asOptionalText_optionalText])
  apply bind_eq provenance.daemonName (by simp [get_cons, asOptionalText_optionalText])
  apply bind_eq provenance.skillId (by simp [get_cons, asOptionalText_optionalText])
  apply bind_eq provenance.parentSessionId (by simp [get_cons, asOptionalText_optionalText])
  apply bind_eq provenance.forkName (by simp [get_cons, asOptionalText_optionalText])
  apply bind_eq provenance.writerId (by simp [get_cons, asOptionalText_optionalText])
  rw [dif_pos provenance.boundary]
  rfl

end Provenance

namespace BatchSlot

/-- `enforce_path_consistency`: all three batch fields are set (path A) or none is (path B). -/
def ofFields (transactionId batchId : Option String) (batchPosition : Option Nat) :
    Option (Option BatchSlot) :=
  match transactionId, batchId, batchPosition with
  | some transactionId, some batchId, some batchPosition =>
    some (some { transactionId, batchId, batchPosition })
  | none, none, none => some none
  | _, _, _ => none

end BatchSlot

namespace EventRecord

def toEntries (record : EventRecord) : List (String × Json) :=
  [("event_id", .str record.eventId.val), ("sequence_number", .int record.sequenceNumber),
    ("timestamp", .str record.timestamp.val),
    ("transaction_id", optionalText (record.batch.map BatchSlot.transactionId)),
    ("batch_id", optionalText (record.batch.map BatchSlot.batchId)),
    ("batch_position", optionalNat (record.batch.map BatchSlot.batchPosition)),
    ("record_hash", .str record.recordHash.val),
    ("local_intent_id", .str record.localIntentId.val),
    ("event_type", .str (StrEnum.value record.eventType)),
    ("event_category", .str (StrEnum.value record.eventCategory)),
    ("payload", .obj record.payload.val), ("provenance", record.provenance.toJson),
    ("base_classification", .str (StrEnum.value record.baseClassification)),
    ("supersede", record.supersede.toJson),
    ("subjects", .arr (record.subjects.val.map Subject.toJson)),
    ("schema_version", .str record.schemaVersion.val)]

def toJson (record : EventRecord) : Json := .obj record.toEntries

def fieldNames : List String :=
  ["event_id", "sequence_number", "timestamp", "transaction_id", "batch_id", "batch_position",
    "record_hash", "local_intent_id", "event_type", "event_category", "payload", "provenance",
    "base_classification", "supersede", "subjects", "schema_version"]

def ofJson (value : Json) : Option EventRecord := do
  let entries ← fieldsOf value
  guard (forbidsExtra entries fieldNames)
  let eventId ← (Dict.get entries "event_id").bind text?
  let eventId ← checked (fun text => isEventId text = true) eventId
  let sequenceNumber ← (Dict.get entries "sequence_number").bind asNat
  let timestamp ← (Dict.get entries "timestamp").bind text?
  let timestamp ← checked (fun text => isTimestamp text = true) timestamp
  let transactionId ← asOptionalText (Dict.get entries "transaction_id")
  let batchId ← asOptionalText (Dict.get entries "batch_id")
  let batchPosition ← asOptionalNat (Dict.get entries "batch_position")
  let recordHash ← (Dict.get entries "record_hash").bind text?
  let recordHash ← checked (· ≠ "") recordHash
  let localIntentId ← (Dict.get entries "local_intent_id").bind text?
  let localIntentId ← checked (· ≠ "") localIntentId
  let eventType ← (Dict.get entries "event_type").bind asEnum
  let eventCategory ← (Dict.get entries "event_category").bind asEnum
  let payload ← (Dict.get entries "payload").bind fieldsOf
  let payload ← checked (fun entries => (Json.obj entries).proper = true) payload
  let provenance ← (Dict.get entries "provenance").bind Provenance.ofJson
  let baseClassification ← (Dict.get entries "base_classification").bind asEnum
  let supersede ← (Dict.get entries "supersede").bind Supersede.ofJson
  let subjects ← (Dict.get entries "subjects").bind asItems
  let subjects ← subjects.mapM Subject.ofJson
  let subjects ← checked (· ≠ []) subjects
  let schemaVersion ← (Dict.get entries "schema_version").bind text?
  let schemaVersion ← checked (fun text => isSchemaVersion text = true) schemaVersion
  let batch ← BatchSlot.ofFields transactionId batchId batchPosition
  return { eventId, sequenceNumber, timestamp, batch, recordHash, localIntentId, eventType,
           eventCategory, payload, provenance, baseClassification, supersede, subjects,
           schemaVersion }

private theorem mapM_subjects (subjects : List Subject) :
    subjects.mapM (Subject.ofJson ∘ Subject.toJson) = some subjects := by
  induction subjects with
  | nil => rfl
  | cons subject subjects ih =>
    rw [List.mapM_cons, Function.comp_apply, Subject.ofJson_toJson, ih]
    rfl

private theorem asNat_natCast (n : Nat) : asNat (.int (n : Int)) = some n := rfl

private theorem forbidsExtra_toEntries (record : EventRecord) :
    forbidsExtra record.toEntries fieldNames = true := by
  simp [forbidsExtra, toEntries, fieldNames]

private theorem asOptionalNat_optionalNat (n : Option Nat) :
    asOptionalNat (some (optionalNat n)) = some n := by
  cases n <;> rfl

private theorem ofFields_map (batch : Option BatchSlot) :
    BatchSlot.ofFields (batch.map BatchSlot.transactionId) (batch.map BatchSlot.batchId)
      (batch.map BatchSlot.batchPosition) = some batch := by
  cases batch <;> rfl

theorem ofJson_toJson (record : EventRecord) : ofJson record.toJson = some record := by
  have hsubjects : (record.subjects.val.map Subject.toJson).mapM Subject.ofJson =
      some record.subjects.val := by
    rw [List.mapM_map, mapM_subjects]
  apply bind_eq record.toEntries rfl
  apply bind_eq () (guard_eq (forbidsExtra_toEntries record))
  unfold toEntries
  apply bind_eq record.eventId.val (by simp [get_cons, text?])
  apply bind_eq _ (checked_val record.eventId)
  apply bind_eq record.sequenceNumber (by simp [get_cons, asNat_natCast])
  apply bind_eq record.timestamp.val (by simp [get_cons, text?])
  apply bind_eq _ (checked_val record.timestamp)
  apply bind_eq (record.batch.map BatchSlot.transactionId)
    (by simp [get_cons, asOptionalText_optionalText])
  apply bind_eq (record.batch.map BatchSlot.batchId)
    (by simp [get_cons, asOptionalText_optionalText])
  apply bind_eq (record.batch.map BatchSlot.batchPosition)
    (by simp [get_cons, asOptionalNat_optionalNat])
  apply bind_eq record.recordHash.val (by simp [get_cons, text?])
  apply bind_eq _ (checked_val record.recordHash)
  apply bind_eq record.localIntentId.val (by simp [get_cons, text?])
  apply bind_eq _ (checked_val record.localIntentId)
  apply bind_eq record.eventType (by simp [get_cons, asEnum_value])
  apply bind_eq record.eventCategory (by simp [get_cons, asEnum_value])
  apply bind_eq record.payload.val (by simp [get_cons, fieldsOf])
  apply bind_eq _ (checked_val record.payload)
  apply bind_eq record.provenance (by simp [get_cons, Provenance.ofJson_toJson])
  apply bind_eq record.baseClassification (by simp [get_cons, asEnum_value])
  apply bind_eq record.supersede (by simp [get_cons, Supersede.ofJson_toJson])
  apply bind_eq (record.subjects.val.map Subject.toJson) (by simp [get_cons, asItems])
  apply bind_eq record.subjects.val hsubjects
  apply bind_eq _ (checked_val record.subjects)
  apply bind_eq record.schemaVersion.val (by simp [get_cons, text?])
  apply bind_eq _ (checked_val record.schemaVersion)
  apply bind_eq record.batch (ofFields_map record.batch)
  rfl

private theorem proper_optionalNat (n : Option Nat) : (optionalNat n).proper = true := by
  cases n <;> rfl

private theorem proper_supersede (supersede : Supersede) : supersede.toJson.proper = true := by
  cases supersede <;> rfl

private theorem proper_provenance (provenance : Provenance) :
    provenance.toJson.proper = true := by
  have hkeys : (Dict.keys [("actor_type", Json.null), ("actor_id", .null), ("session_id", .null),
      ("task_id", .null), ("run_id", .null), ("causation_event_id", .null),
      ("correlation_id", .null), ("daemon_name", .null), ("skill_id", .null),
      ("parent_session_id", .null), ("fork_name", .null), ("writer_id", .null)]).Nodup := by
    decide
  simp only [Provenance.toJson, Json.proper, Json.properEntries, proper_optionalText,
    Bool.and_self, Bool.and_true, decide_eq_true_eq]
  exact hkeys

private theorem keys_toEntries (record : EventRecord) : Dict.keys record.toEntries = fieldNames :=
  rfl

theorem proper_toJson (record : EventRecord) : record.toJson.proper = true := by
  have hkeys : fieldNames.Nodup := by decide
  have hpayload : (Json.obj record.payload.val).proper = true := record.payload.property
  rw [toJson, Json.proper, keys_toEntries, decide_eq_true hkeys]
  simp only [toEntries, Json.properEntries, hpayload, proper_optionalText, proper_optionalNat,
    proper_supersede, proper_provenance, Bool.and_true]
  simp [Json.proper, Json.properItems_map (f := Subject.toJson) fun _ => rfl]

/-- `record.model_dump_json()`. -/
def dumpJson (record : EventRecord) : Text := record.toJson.render

/-- `EventRecord.model_validate_json(line)`; `none` is any exception it raises. -/
def validateJson (line : Text) : Option EventRecord := (Json.parse line).bind ofJson

@[simp] theorem parse_dumpJson (record : EventRecord) :
    Json.parse record.dumpJson = some record.toJson :=
  parse_render (proper_toJson record)

@[simp] theorem validateJson_dumpJson (record : EventRecord) :
    validateJson record.dumpJson = some record := by
  rw [validateJson, parse_dumpJson, bind_some, ofJson_toJson]

theorem dumpJson_injective {a b : EventRecord} (h : a.dumpJson = b.dumpJson) : a = b := by
  have hvalidate := congrArg validateJson h
  simpa using hvalidate

theorem tidy_dumpJson (record : EventRecord) : Tidy record.dumpJson :=
  tidy_render_obj (proper_toJson record)

theorem printable_dumpJson (record : EventRecord) : ∀ c ∈ record.dumpJson, 32 ≤ c.toNat :=
  render_printable _ (proper_toJson record)

theorem parse_prefix_dumpJson {record : EventRecord} (hpre : front <+: record.dumpJson)
    (hne : front ≠ record.dumpJson) : Json.parse front = none :=
  parse_prefix_render_obj (proper_toJson record) hpre hne

theorem validateJson_of_parse_none (h : Json.parse line = none) : validateJson line = none := by
  rw [validateJson, h, bind_none]

theorem validateJson_of_no_sequence {line : Text} {entries : List (String × Json)}
    (hparse : Json.parse line = some (.obj entries))
    (hsequence : Dict.get entries "sequence_number" = none) : validateJson line = none := by
  rw [validateJson, hparse, bind_some]
  apply bind_eq entries rfl
  apply bind_eq_none
  intro _
  apply bind_eq_none
  intro _
  apply bind_eq_none
  intro _
  rw [hsequence]
  rfl

end EventRecord

end Flowness.Schemas
