import Flowness.Ledger.Segments

/-!
The write paths of one `EventLog` instance. A disk is shared by any number of instances; an
instance keeps the write guards it derived when it was opened and the ones it added since.
-/

namespace Flowness.Ledger

open Library Schemas

/-- What the writers call but this model does not spell out: the digest of a canonical JSON
object and the per-type payload schemas. -/
structure WriterEnv where
  computeRecordHash : Json → NonEmpty
  validateEventPayload : EventType → Payload → Bool

structure EventLog where
  segmentMaxEvents : Nat := 10000
  segmentMaxBytes : Nat := 10 * 1024 * 1024
  nextSequence : Int := 0
  eventIdSet : List String := []
  sequenceSet : List Int := []
deriving DecidableEq, Repr

inductive WriteError where
  | scan (error : ScanError)
  | notAllowedOnPathB (eventType : EventType)
  | producerOnly (eventType : EventType)
  | smuggled (kind : String)
  | payloadSchema (eventType : EventType)
  | duplicateEventId (eventId : String)
  | duplicateSequence (sequenceNumber : Int)
deriving DecidableEq, Repr

def sequenceOfLine (line : Text) : Option Int :=
  (Json.parse line).bind fun value => (value.get "sequence_number").bind Json.asInt

def segmentMax (lines : List Text) : Int :=
  (lines.filterMap sequenceOfLine).foldl max (-1)

/-- `_read_max_seq_on_disk`: the maximum of the last segment that has a sequence number. -/
def readMaxSeqIn : List Bytes → Except ScanError Int
  | [] => .ok (-1)
  | content :: earlier =>
    match readLines content with
    | none => .error .unicodeDecode
    | some lines => if 0 ≤ segmentMax lines then .ok (segmentMax lines) else readMaxSeqIn earlier

def readMaxSeqOnDisk (disk : Disk) : Except ScanError Int :=
  readMaxSeqIn (disk.orderedSegments.map Prod.snd).reverse

def activeSegmentEventCount (disk : Disk) : Except ScanError Nat :=
  match disk.read disk.activeSegmentPath with
  | none => .ok 0
  | some content =>
    match readLines content with
    | none => .error .unicodeDecode
    | some lines => .ok lines.length

/-- The segment the next `incoming` records are appended to. -/
def writeTarget (log : EventLog) (disk : Disk) (incoming : Nat) :
    Except ScanError SegmentPath := do
  let currentEvents ← activeSegmentEventCount disk
  let currentBytes := ((disk.read disk.activeSegmentPath).getD []).length
  if currentEvents = 0 then return disk.activeSegmentPath
  else if log.segmentMaxEvents < currentEvents + incoming ∨ log.segmentMaxBytes ≤ currentBytes then
    return disk.nextSegmentPath
  else return disk.activeSegmentPath

/-- `timestamp.isoformat()` of a UTC instant. -/
def isoformat (timestamp : Timestamp) : String :=
  String.ofList (timestamp.val.toList.dropLast ++ "+00:00".toList)

def hashInputFor (record : EventRecord) : Json :=
  .obj ((Dict.erase record.toEntries "record_hash").map fun entry =>
    if entry.1 = "timestamp" then (entry.1, .str (isoformat record.timestamp)) else entry)

section Writers

variable (env : WriterEnv)

def withHash (record : EventRecord) : EventRecord :=
  { record with recordHash := env.computeRecordHash (hashInputFor record) }

/-- `_stamp`, with the identifier and the instant it draws. -/
def stamp (intent : EventIntent) (eventId : EventId) (timestamp : Timestamp)
    (sequenceNumber : Nat) (batch : Option BatchSlot) : EventRecord :=
  withHash env
    { eventId, sequenceNumber, timestamp, batch,
      recordHash := ⟨"0", by decide⟩,
      localIntentId := intent.localIntentId,
      eventType := intent.eventType,
      eventCategory := intent.eventCategory,
      payload := intent.payload,
      provenance := { intent.provenanceHint with writerId := some "m01-writer" },
      baseClassification := intent.baseClassification,
      supersede := intent.supersede,
      subjects := intent.subjects,
      schemaVersion := intent.schemaVersion }

def reseq (record : EventRecord) (newSeq : Nat) : EventRecord :=
  if record.sequenceNumber = newSeq then record
  else withHash env { record with sequenceNumber := newSeq }

/-- `enumerate`: the records renumbered from `base` on. -/
def reseqFrom (base : Nat) : List EventRecord → List EventRecord
  | [] => []
  | record :: records => reseq env record base :: reseqFrom (base + 1) records

/-- The event types `_is_path_b_allowed` accepts. -/
def pathBAllowed : List EventType :=
  [.snapshotCreated, .snapshotSuperseded, .crossRunConsolidationCommitted, .archiveSegmentMoved,
    .digestSuperseded, .retentionPolicyChanged, .capsuleCompiled, .resolverDecisionMade,
    .capsuleInjectionFailed, .capsuleAssemblyFailed, .obligationScopeJudged, .obligationActivated,
    .semanticConflictDetected, .escalationAnswerApplied, .driftDetected, .ownerGuardViolation,
    .irreversibleActionBlocked, .guardAdminBypassGranted, .guardAdminBypassRevoked,
    .ownerConfirmationGranted, .debtRegistered, .judgmentCaseEnriched,
    .judgmentRegressionEvaluated, .capabilityBaselineIngested, .capabilityStatusAdvanced,
    .orchestratorDispatchFailed, .execClaimReaped, .reconcileCyclePublished,
    .sentinelPassCompleted, .sentinelPassFailed, .runStarted, .runDigestPublished, .runFailed,
    .projectInitialized, .validationScenarioRun, .migrationRunStarted, .migrationBatchSubmitted,
    .migrationRunCompleted, .subSkillInvocationSkipped, .sessionSpawned, .lockAcquired,
    .daemonRunCompleted, .transactionEnvelopeSubmitted, .nodeTouched, .findingAccepted]

def auditProducerOnlyTypes : List EventType := [.auditTriggered, .auditVerdictReceived]

def birthgateNonsmuggableKinds : List String := ["FindingCreated", "InterviewBriefPublished"]

/-- `_reject_birthgate_smuggle`: the kind a stub-rewrap may not carry. -/
def smuggledKind (eventType : EventType) (payload : Payload) : Option String :=
  match eventType, payload.get "kind", payload.get "stub_original_payload" with
  | .nodeTouched, some (.str kind), some (.obj _) =>
    if kind ∈ birthgateNonsmuggableKinds then some kind else none
  | _, _, _ => none

def validatePayloadTyped (eventType : EventType) (payload : Payload) : Except WriteError Unit :=
  match smuggledKind eventType payload with
  | some kind => .error (.smuggled kind)
  | none =>
    if env.validateEventPayload eventType payload then .ok ()
    else .error (.payloadSchema eventType)

def validateUniqueness (log : EventLog) (eventId : String) : Except WriteError Unit :=
  if eventId ∈ log.eventIdSet then .error (.duplicateEventId eventId) else .ok ()

def validateSequenceUnique (log : EventLog) (sequenceNumber : Int) : Except WriteError Unit :=
  if sequenceNumber ∈ log.sequenceSet then .error (.duplicateSequence sequenceNumber) else .ok ()

def scanning {α : Type} : Except ScanError α → Except WriteError α
  | .ok a => .ok a
  | .error e => .error (.scan e)

def nextBase (disk : Disk) : Except WriteError Nat := do
  let tail ← scanning (readMaxSeqOnDisk disk)
  return (tail + 1).toNat

def recordLines (records : List EventRecord) : Bytes :=
  frameLines (records.map EventRecord.dumpJson)

/-- The checks `append_transaction_batch` makes on each event before anything is written. -/
def checkBatchEvents (log : EventLog) : Nat → List EventRecord → Except WriteError Unit
  | _, [] => .ok ()
  | base, event :: events => do
    if event.eventType ∈ auditProducerOnlyTypes then throw (.producerOnly event.eventType)
    validateUniqueness log event.eventId.val
    validateSequenceUnique log base
    validatePayloadTyped env event.eventType event.payload
    checkBatchEvents log (base + 1) events

structure PendingWrite where
  base : Nat
  target : SegmentPath
  records : List EventRecord

def PendingWrite.bytes (write : PendingWrite) : Bytes := recordLines write.records

def PendingWrite.commit (write : PendingWrite) (disk : Disk) : Disk :=
  disk.append write.target write.bytes

def remember (log : EventLog) (write : PendingWrite) : EventLog :=
  { log with
    nextSequence := write.base + write.records.length
    eventIdSet := write.records.map (·.eventId.val) ++ log.eventIdSet
    sequenceSet := write.records.map (fun r => (r.sequenceNumber : Int)) ++ log.sequenceSet }

def prepareBatch (log : EventLog) (disk : Disk) (batch : TransactionBatch) :
    Except WriteError PendingWrite := do
  let base ← nextBase disk
  checkBatchEvents env log base batch.events
  let records := reseqFrom env base batch.events
  let target ← scanning (writeTarget log disk records.length)
  return { base, target, records }

def appendTransactionBatch (log : EventLog) (disk : Disk) (batch : TransactionBatch) :
    Except WriteError (EventLog × Disk × List EventRecord) := do
  let write ← prepareBatch env log disk batch
  return (remember log write, write.commit disk, write.records)

def prepareDirect (log : EventLog) (disk : Disk) (intent : EventIntent) (eventId : EventId)
    (timestamp : Timestamp) : Except WriteError PendingWrite := do
  validatePayloadTyped env intent.eventType intent.payload
  let base ← nextBase disk
  let record := stamp env intent eventId timestamp base none
  validateUniqueness log record.eventId.val
  validateSequenceUnique log base
  let target ← scanning (writeTarget log disk 1)
  return { base, target, records := [record] }

/-- `_append_direct_record`, the core of every path-B write. -/
def appendDirectRecord (log : EventLog) (disk : Disk) (intent : EventIntent) (eventId : EventId)
    (timestamp : Timestamp) : Except WriteError (EventLog × Disk × List EventRecord) := do
  let write ← prepareDirect env log disk intent eventId timestamp
  return (remember log write, write.commit disk, write.records)

def writeDirect (log : EventLog) (disk : Disk) (intent : EventIntent) (eventId : EventId)
    (timestamp : Timestamp) : Except WriteError (EventLog × Disk × List EventRecord) :=
  if intent.eventType ∈ pathBAllowed then appendDirectRecord env log disk intent eventId timestamp
  else .error (.notAllowedOnPathB intent.eventType)

structure LedgerMergeResult where
  mergedEventIds : List String := []
  skippedDuplicateEventIds : List String := []
  baseSequence : Int := -1
  appendedCount : Nat := 0
deriving DecidableEq, Repr

/-- The foreign records whose identifier neither `known` nor an earlier foreign record has, and
the identifiers of the others. -/
def selectForeign (known : List String) : List EventRecord → List EventRecord × List String
  | [] => ([], [])
  | record :: records =>
    if record.eventId.val ∈ known then
      let (fresh, skipped) := selectForeign known records
      (fresh, record.eventId.val :: skipped)
    else
      let (fresh, skipped) := selectForeign (record.eventId.val :: known) records
      (record :: fresh, skipped)

/-- `merge_foreign_events`: append what is not in the instance's `_event_id_set`, renumbered. -/
def mergeForeignEvents (log : EventLog) (disk : Disk) (foreign : List EventRecord) :
    Except WriteError (EventLog × Disk × LedgerMergeResult) := do
  let base ← nextBase disk
  let (fresh, skipped) := selectForeign log.eventIdSet foreign
  let records := reseqFrom env base fresh
  if records = [] then
    return (log, disk, { skippedDuplicateEventIds := skipped })
  else
    let target ← scanning (writeTarget log disk records.length)
    let write : PendingWrite := { base, target, records }
    let log := { log with
      nextSequence := base + records.length
      eventIdSet := records.map (·.eventId.val) ++ log.eventIdSet }
    return (log, write.commit disk,
      { mergedEventIds := records.map (·.eventId.val), skippedDuplicateEventIds := skipped,
        baseSequence := base, appendedCount := records.length })

end Writers

def sampleEnv : WriterEnv where
  computeRecordHash := fun _ => ⟨"sha256", by decide⟩
  validateEventPayload := fun _ _ => true

def emptyPayload : Payload := ⟨[], by decide⟩

def sampleIntent : EventIntent where
  localIntentId := ⟨"lid-1", by decide⟩
  eventType := .nodeTouched
  eventCategory := .stateTransition
  payload := emptyPayload
  provenanceHint :=
    { actorType := ⟨"owner", by decide⟩, actorId := ⟨"owner", by decide⟩, boundary := by decide }
  baseClassification := .abstractableProcess
  supersede := .none
  subjects := ⟨[{ entityType := .concept, entityId := ⟨"c-1", by decide⟩, role := .primary }],
    by decide⟩
  schemaVersion := SchemaVersion.current

def sampleId : EventId := ⟨"evt-1", by decide⟩

def secondId : EventId := ⟨"evt-2", by decide⟩

def thirdId : EventId := ⟨"evt-3", by decide⟩

def fourthId : EventId := ⟨"evt-4", by decide⟩

def sampleBatchId : NonEmpty := ⟨"batch-1", by decide⟩

def sampleTime : Timestamp := ⟨"2026-01-01T00:00:00Z", by decide⟩

def sampleRecord : EventRecord := stamp sampleEnv sampleIntent sampleId sampleTime 0 none

def followingRecord : EventRecord := stamp sampleEnv sampleIntent secondId sampleTime 1 none

end Flowness.Ledger
