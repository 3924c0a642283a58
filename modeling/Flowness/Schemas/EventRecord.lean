import Flowness.Library.Json
import Flowness.Schemas.Enums

/-!
The persisted event record. The validators of the schema are carried by the types: constrained
strings are subtypes, the three batch fields are one optional slot, a supersede names its three
fields or none, and the actor boundary is a field of the provenance.
-/

namespace Flowness.Schemas

open Library

/-- `Field(min_length=1)`. -/
abbrev NonEmpty := { text : String // text ≠ "" }

def isEventIdChar (c : Char) : Bool := c.isAlphanum || c == '_' || c == '-'

/-- `^evt-[A-Za-z0-9_-]+$`. -/
def isEventId (text : String) : Bool :=
  match text.toList with
  | 'e' :: 'v' :: 't' :: '-' :: rest => rest ≠ [] && rest.all isEventIdChar
  | _ => false

abbrev EventId := { text : String // isEventId text = true }

/-- `^\d+\.\d+\.\d+$`. -/
def isSchemaVersion (text : String) : Bool :=
  let parts := text.toList.splitOn '.'
  parts.length == 3 && parts.all (fun part => part ≠ [] && part.all Char.isDigit)

abbrev SchemaVersion := { text : String // isSchemaVersion text = true }

/-- `digits` against a picture in which `d` stands for any digit. -/
def matchesPicture : Text → Text → Bool
  | [], [] => true
  | p :: ps, c :: cs => (if p = 'd' then c.isDigit else p == c) && matchesPicture ps cs
  | _, _ => false

def isTimestamp (text : String) : Bool :=
  matchesPicture "dddd-dd-ddTdd:dd:ddZ".toList text.toList ||
    matchesPicture "dddd-dd-ddTdd:dd:dd.ddddddZ".toList text.toList

abbrev Timestamp := { text : String // isTimestamp text = true }

/-- `actor_type` decides which of the optional provenance fields must be present. -/
def enforceActorTypeBoundary (actorType : String)
    (daemonName sessionId skillId parentSessionId forkName : Option String) : Bool :=
  (actorType ≠ "daemon" || daemonName.isSome) &&
    (actorType ≠ "agent_session" || (sessionId.isSome && skillId.isSome)) &&
    (actorType ≠ "agent_fork" || (parentSessionId.isSome && forkName.isSome))

structure ProvenanceHint where
  actorType : NonEmpty
  actorId : NonEmpty
  sessionId : Option String := none
  taskId : Option String := none
  runId : Option String := none
  causationEventId : Option String := none
  correlationId : Option String := none
  daemonName : Option String := none
  skillId : Option String := none
  parentSessionId : Option String := none
  forkName : Option String := none
  boundary : enforceActorTypeBoundary actorType.val daemonName sessionId skillId parentSessionId
    forkName = true
deriving DecidableEq, Repr

structure Provenance extends ProvenanceHint where
  writerId : Option String := none
deriving DecidableEq, Repr

inductive Supersede where
  | none
  | supersedes (supersededEventId novelty : String) (noveltyType : SupersedeNoveltyType)
deriving DecidableEq, Repr

def Supersede.supersededEventId? : Supersede → Option String
  | .none => Option.none
  | .supersedes eventId _ _ => some eventId

structure Subject where
  entityType : SubjectEntityType
  entityId : NonEmpty
  role : SubjectRole
deriving DecidableEq, Repr

abbrev Payload := { entries : List (String × Json) // (Json.obj entries).proper = true }

namespace Payload

def get (payload : Payload) (key : String) : Option Json := Dict.get payload.val key

end Payload

structure BatchSlot where
  transactionId : String
  batchId : String
  batchPosition : Nat
deriving DecidableEq, Repr

structure EventIntent where
  localIntentId : NonEmpty
  eventType : EventType
  eventCategory : EventCategory
  payload : Payload
  provenanceHint : ProvenanceHint
  baseClassification : BaseClassification
  supersede : Supersede
  subjects : { subjects : List Subject // subjects ≠ [] }
  schemaVersion : SchemaVersion

structure EventRecord where
  eventId : EventId
  sequenceNumber : Nat
  timestamp : Timestamp
  /-- `none` on path B. -/
  batch : Option BatchSlot
  recordHash : NonEmpty
  localIntentId : NonEmpty
  eventType : EventType
  eventCategory : EventCategory
  payload : Payload
  provenance : Provenance
  baseClassification : BaseClassification
  supersede : Supersede
  subjects : { subjects : List Subject // subjects ≠ [] }
  schemaVersion : SchemaVersion
deriving DecidableEq, Repr

namespace EventRecord

def batchId (record : EventRecord) : Option String := record.batch.map BatchSlot.batchId

def isSentinelType (eventType : EventType) : Bool :=
  eventType == .commitAccepted || eventType == .commitRejected

def isSentinel (record : EventRecord) : Bool := isSentinelType record.eventType

end EventRecord

/-! What a reader does with a schema version it does not know. -/

def currentSchemaVersion : String := "1.0.0"

def SchemaVersion.current : SchemaVersion := ⟨currentSchemaVersion, by decide⟩

def knownSchemaVersions : List String := [currentSchemaVersion]

inductive ReaderAction where
  | failReplay | warnAndSkip | skip
deriving DecidableEq, Repr

def isKnownSchemaVersion (version : String) : Bool := knownSchemaVersions.contains version

def unknownVersionReaderAction : BaseClassification → ReaderAction
  | .immutableTruth => .failReplay
  | .abstractableProcess => .warnAndSkip
  | .discardableNoise => .skip

def EventRecord.failsReplay (record : EventRecord) : Bool :=
  !isKnownSchemaVersion record.schemaVersion.val &&
    unknownVersionReaderAction record.baseClassification == .failReplay

def EventRecord.isKnown (record : EventRecord) : Bool :=
  isKnownSchemaVersion record.schemaVersion.val

/-! The path-A append unit; a value of the type has passed `enforce_batch_invariants`. -/

inductive BatchStatus where
  | committed | rejected
deriving DecidableEq, Repr

def BatchStatus.sentinel : BatchStatus → EventType
  | .committed => .commitAccepted
  | .rejected => .commitRejected

structure TransactionBatch where
  batchId : NonEmpty
  transactionId : NonEmpty
  status : BatchStatus
  events : List EventRecord
  noEnvelope : ∀ event ∈ events, event.eventType ≠ .transactionEnvelopeSubmitted
  increasing : (events.map EventRecord.sequenceNumber).Pairwise (· < ·)
  slots : ∀ event ∈ events, ∃ position, event.batch =
    some { transactionId := transactionId.val, batchId := batchId.val, batchPosition := position }
  sentinelLast : events.getLast?.map EventRecord.eventType = some status.sentinel

end Flowness.Schemas
