import Flowness.CommitGate.Stream
import Flowness.Schemas.PayloadAccess

/-!
The events the commit gate writes itself, and the two batches it appends: the accepted one
(domain events, obligation checks, `CommitAccepted`) and the rejected one (lifecycle events,
`CommitRejected`).
-/

namespace Flowness.CommitGate

open List Library Schemas Ledger

inductive RejectionType where
  | versionConflict | writeConflict | obligationViolation | noveltyMissing
  | claimBoundaryExceeded | driftDetected | auditFailed | consolidationInvariantViolated
deriving DecidableEq, Repr

def RejectionType.value : RejectionType → String
  | .versionConflict => "version_conflict"
  | .writeConflict => "write_conflict"
  | .obligationViolation => "obligation_violation"
  | .noveltyMissing => "novelty_missing"
  | .claimBoundaryExceeded => "claim_boundary_exceeded"
  | .driftDetected => "drift_detected"
  | .auditFailed => "audit_failed"
  | .consolidationInvariantViolated => "consolidation_invariant_violated"

/-- A `dict[str, str]`. -/
abbrev Evidence := { entries : Dict String String // (Dict.keys entries).Nodup }

def Evidence.empty : Evidence := ⟨[], List.nodup_nil⟩

def Evidence.toJson (evidence : Evidence) : Json :=
  .obj (evidence.val.map fun entry => (entry.1, .str entry.2))

structure ObligationViolation where
  obligationId : String
  reason : String
  description : String

structure AuditChainItem where
  auditTriggeredEventId : String
  auditVerdictEventId : String
  overallOutcome : String

def AuditChainItem.toJson (item : AuditChainItem) : Json :=
  .obj [("audit_triggered_event_id", .str item.auditTriggeredEventId),
    ("audit_verdict_event_id", .str item.auditVerdictEventId),
    ("overall_outcome", .str item.overallOutcome)]

structure DriftInfo where
  driftNodes : List (String × String)
  relevantSubjects : List (String × String)
  invalidatingEventIds : List String
  capsuleCompiledEventId : String
  driftType : String := "freshness"

/-- `_CheckOutcome`: no rejection type means accepted. -/
structure CheckOutcome where
  rejectionType : Option RejectionType := none
  failureReason : Option String := none
  failureEvidence : Evidence := .empty
  notices : List String := []
  obligationViolations : List ObligationViolation := []
  driftDetected : Option DriftInfo := none
  checksPerformed : List Evidence := []

abbrev Failure := { outcome : CheckOutcome // outcome.rejectionType.isSome = true }

/-- What the gate takes from Python besides the writers: `str` of a JSON value. -/
structure GateEnv extends WriterEnv where
  str : Json → String
  str_text : ∀ text, str (.str text) = text

structure Draw where
  localIntentId : NonEmpty
  eventId : EventId
  timestamp : Timestamp

structure AttemptIds where
  gateRunId : String
  transactionId : String
  batchId : String

def nonEmpty? (text : String) : Option NonEmpty :=
  if h : text ≠ "" then some ⟨text, h⟩ else none

theorem proper_evidence (evidence : Evidence) : evidence.toJson.proper = true := by
  have hkeys : Dict.keys (evidence.val.map fun entry => (entry.1, Json.str entry.2)) =
      Dict.keys evidence.val := by
    simp [Dict.keys]
  rw [Evidence.toJson, Json.proper, hkeys, decide_eq_true evidence.property, Bool.true_and,
    Json.properEntries_iff]
  exact forall_mem_map.mpr fun _ _ => rfl

theorem properItems_auditChain (items : List AuditChainItem) :
    Json.properItems (items.map AuditChainItem.toJson) = true :=
  Json.properItems_map (fun _ => rfl) items

def gateIntent (draw : Draw) (eventType : EventType) (eventCategory : EventCategory)
    (payload : Payload) (subject : Subject)
    (baseClassification : BaseClassification := .immutableTruth) : EventIntent where
  localIntentId := draw.localIntentId
  eventType := eventType
  eventCategory := eventCategory
  payload := payload
  provenanceHint :=
    { actorType := ⟨"commit_gate", by decide⟩
      actorId := ⟨"m05_commit_gate", by decide⟩
      boundary := by decide }
  baseClassification := baseClassification
  supersede := .none
  subjects := ⟨[subject], by simp⟩
  schemaVersion := SchemaVersion.current

def gateSubject : Subject := ⟨.concept, ⟨"commit_gate", by decide⟩, .primary⟩

/-- `_subject_entity_type`: an unknown type degrades to `task`. -/
def subjectEntityType (value : String) : SubjectEntityType :=
  (StrEnum.ofValue value : Option SubjectEntityType).getD .task

def driftNode (node : String × String) : Json :=
  .obj [("entity_type", .str (StrEnum.value (subjectEntityType node.1))),
    ("entity_id", .str node.2)]

section Builders

variable (env : GateEnv)

def lockReleasedPayload (envelope : EventRecord) (releaseReason : String) : Payload :=
  ⟨[("target_entity_type", .str "task"),
    ("target_entity_id", envelope.payload.getD "task_id" (.str "unknown")),
    ("transition_type", .str "modified"),
    ("after_state", .obj
      [("task_id", .str (env.str (envelope.payload.getD "task_id" (.str "unknown")))),
        ("run_id", .str (env.str (envelope.payload.getD "run_id" (.str "unknown")))),
        ("entities", envelope.payload.getD "write_set" (.arr [])),
        ("release_reason", .str releaseReason)])], by
    have htask : (envelope.payload.getD "task_id" (.str "unknown")).proper = true :=
      envelope.payload.proper_getD "task_id" rfl
    have hset : (envelope.payload.getD "write_set" (.arr [])).proper = true :=
      envelope.payload.proper_getD "write_set" rfl
    simp [Json.proper, Json.properEntries, Dict.keys, htask, hset]⟩

def buildLockReleasedIntent (draw : Draw) (envelope : EventRecord) (releaseReason : String) :
    Option EventIntent := do
  let task ← nonEmpty? (env.str (envelope.payload.getD "task_id" (.str "unknown")))
  return gateIntent draw .lockReleased .stateTransition
    (lockReleasedPayload env envelope releaseReason) ⟨.task, task, .primary⟩

def obligationViolatedPayload (envelope : EventRecord) (violation : ObligationViolation) :
    Payload :=
  ⟨[("obligation_id", .str violation.obligationId),
    ("obligation_lifecycle_state", .str "violated"),
    ("violated_in_envelope_event_id", .str envelope.eventId.val),
    ("violation_description", .str (violation.reason ++ ": " ++ violation.description)),
    ("recommended_action", .str "fix")], by simp [Json.proper, Json.properEntries, Dict.keys]⟩

def buildObligationViolatedIntent (draw : Draw) (envelope : EventRecord)
    (violation : ObligationViolation) : Option EventIntent := do
  let obligation ← nonEmpty? violation.obligationId
  return gateIntent draw .obligationViolated .obligation
    (obligationViolatedPayload envelope violation) ⟨.obligation, obligation, .primary⟩

def driftDetectedPayload (envelope : EventRecord) (drift : DriftInfo) : Payload :=
  ⟨[("envelope_event_id", .str envelope.eventId.val),
    ("drift_nodes", .arr (drift.driftNodes.map driftNode)),
    ("original_touched_nodes", .arr (drift.relevantSubjects.map driftNode)),
    ("original_assembly_event_id", .str drift.capsuleCompiledEventId),
    ("drift_type", .str drift.driftType),
    ("invalidating_event_ids", .arr (drift.invalidatingEventIds.map Json.str))], by
    simp [Json.proper, Json.properEntries, Dict.keys,
      Json.properItems_map (f := driftNode) fun _ => rfl]⟩

def driftSubjects (envelope : EventRecord) (drift : DriftInfo) :
    Option { subjects : List Subject // subjects ≠ [] } := do
  let nodes ← drift.driftNodes.mapM fun node =>
    (nonEmpty? node.2).map fun entityId =>
      ({ entityType := subjectEntityType node.1, entityId, role := .primary } : Subject)
  if h : nodes ≠ [] then return ⟨nodes, h⟩
  else
    let task ← nonEmpty? (env.str (envelope.payload.getD "task_id" (.str "unknown")))
    return ⟨[⟨.task, task, .primary⟩], by simp⟩

def buildDriftDetectedIntent (draw : Draw) (envelope : EventRecord) (drift : DriftInfo) :
    Option EventIntent := do
  let subjects ← driftSubjects env envelope drift
  return { gateIntent draw .driftDetected .commit (driftDetectedPayload envelope drift)
      gateSubject with subjects := subjects }

structure Rejection where
  rejectionType : RejectionType
  recoveryOfAbandoned : Bool := false
  failureReason : Option String := none
  failureEvidence : Evidence := .empty
  obligationViolations : List ObligationViolation := []
  driftDetectedEventRef : Option String := none
  auditChain : List AuditChainItem := []

/-- `produce_lock_release`. -/
def Rejection.releasesLock (rejection : Rejection) : Bool :=
  rejection.recoveryOfAbandoned || rejection.rejectionType == .obligationViolation ||
    rejection.rejectionType == .claimBoundaryExceeded ||
    rejection.failureReason == some "scope_exceeded"

def Rejection.releaseReason (rejection : Rejection) : String :=
  if rejection.recoveryOfAbandoned then "abandoned_envelope_timeout"
  else "rejection_default_strategy"

def rejectionReason (rejection : Rejection) : Json :=
  let detected := rejection.rejectionType.value ++ " detected"
  .obj [("check_type", .str (rejection.failureReason.getD rejection.rejectionType.value)),
    ("failure_reason", .str (rejection.failureReason.getD detected)),
    ("evidence", rejection.failureEvidence.toJson)]

/-- `str(payload.get("capsule_compiled_event_id") or "evt-no-capsule")`. -/
def rejectedCapsule (envelope : EventRecord) : String :=
  let raw := envelope.payload.getD "capsule_compiled_event_id" .null
  if raw.truthy then env.str raw else "evt-no-capsule"

def commitRejectedPayload (envelope : EventRecord) (gateRunId : String) (rejection : Rejection)
    (lockRelease : Option EventId) (violations : List EventId) : Payload :=
  ⟨[("envelope_event_id", .str envelope.eventId.val),
    ("capsule_compiled_event_id", .str (rejectedCapsule env envelope)),
    ("verdict", .str "rejected"),
    ("rejection_type", .str rejection.rejectionType.value),
    ("gate_run_id", .str gateRunId),
    ("recovery_of_abandoned", .bool rejection.recoveryOfAbandoned),
    ("rejection_reasons", .arr [rejectionReason rejection]),
    ("rejected_local_intent_ids", .arr []),
    ("detected_violation_event_refs", .arr ((violations.map Subtype.val).map Json.str)),
    ("drift_detected_event_ref", optionalText rejection.driftDetectedEventRef),
    ("audit_chain", .arr (rejection.auditChain.map AuditChainItem.toJson)),
    ("lock_release_event_ref", optionalText (lockRelease.map Subtype.val)),
    ("rebase_allowed", .bool (rejection.rejectionType == .versionConflict ||
      rejection.rejectionType == .writeConflict))], by
    simp [-List.map_map, Json.proper, Json.properEntries, Json.properItems, Dict.keys,
      rejectionReason, properItems_auditChain, proper_optionalText, proper_evidence]⟩

def buildCommitRejectedIntent (draw : Draw) (envelope : EventRecord) (gateRunId : String)
    (rejection : Rejection) (lockRelease : Option EventId) (violations : List EventId) :
    EventIntent :=
  gateIntent draw .commitRejected .commit
    (commitRejectedPayload env envelope gateRunId rejection lockRelease violations) gateSubject

def obligationCheckedPayload (envelope : EventRecord) (obligationId status : String) : Payload :=
  ⟨[("obligation_id", .str obligationId),
    ("obligation_lifecycle_state", .str "checked"),
    ("checked_in_envelope_event_id", .str envelope.eventId.val),
    ("check_method", .str "self_declared_only"),
    ("check_outcome", .str status),
    ("check_result", .str status)], by simp [Json.proper, Json.properEntries, Dict.keys]⟩

def declaredAsKept (declared : Dict String Json) : Option (NonEmpty × String) := do
  let obligationId ← (Json.lookup declared "obligation_id").text?
  let obligation ← nonEmpty? obligationId
  let status ← (Json.lookup declared "status").text?
  if status = "maintained" ∨ status = "not_applicable" then return (obligation, status) else none

def buildObligationCheckedIntents (draw : Nat → Draw) (envelope : EventRecord) :
    List EventIntent :=
  (((envelope.payload.getD "active_obligations_declared" (.arr [])).asDicts.filterMap
    declaredAsKept).zipIdx).map fun ((obligation, status), i) =>
      gateIntent (draw i) .obligationChecked .obligation
        (obligationCheckedPayload envelope obligation.val status)
        ⟨.obligation, obligation, .primary⟩ .abstractableProcess

def mappingItem (record : EventRecord) : Json :=
  .obj [("local_intent_id", .str record.localIntentId.val), ("event_id", .str record.eventId.val)]

def commitAcceptedPayload (envelope : EventRecord) (gateRunId : String)
    (domain : List EventRecord) (outcome : CheckOutcome) (auditChain : List AuditChainItem) :
    Payload :=
  ⟨[("envelope_event_id", .str envelope.eventId.val),
    ("capsule_compiled_event_id", .str (env.str
      (envelope.payload.getD "capsule_compiled_event_id" (.str "evt-no-capsule")))),
    ("verdict", .str "accepted"),
    ("gate_run_id", .str gateRunId),
    ("accepted_domain_event_count", .int domain.length),
    ("local_to_event_id_mapping", .arr (domain.map mappingItem)),
    ("checks_passed", .arr (outcome.checksPerformed.map Evidence.toJson)),
    ("audit_chain", .arr (auditChain.map AuditChainItem.toJson)),
    ("informational_notices", .arr (outcome.notices.map Json.str))], by
    simp [Json.proper, Json.properEntries, Dict.keys, properItems_auditChain,
      Json.properItems_map (f := mappingItem) fun _ => rfl, Json.properItems_map proper_evidence]⟩

def buildCommitAcceptedIntent (draw : Draw) (envelope : EventRecord) (gateRunId : String)
    (domain : List EventRecord) (outcome : CheckOutcome) (auditChain : List AuditChainItem) :
    EventIntent :=
  gateIntent draw .commitAccepted .commit
    (commitAcceptedPayload env envelope gateRunId domain outcome auditChain) gateSubject

/-- `stamp_for_batch` of the intents in order, from a position on. -/
def stampFrom (ids : AttemptIds) (base : Nat) : Nat → List (EventIntent × Draw) → List EventRecord
  | _, [] => []
  | position, (intent, draw) :: rest =>
    stamp env.toWriterEnv intent draw.eventId draw.timestamp (base + position)
      (some ⟨ids.transactionId, ids.batchId, position⟩) :: stampFrom ids base (position + 1) rest

/-- `append_transaction_batch` of a batch that passes the batch invariants. -/
def appendBatch (log : CommittedLog) (records : List EventRecord) : Option CommittedLog :=
  if records.all fun record => record.eventType ≠ .transactionEnvelopeSubmitted &&
      !auditProducerOnlyTypes.contains record.eventType then
    log.append env.toWriterEnv records
  else none

/-- `write_direct`, with the record it returns. -/
def writeDirectTo (log : CommittedLog) (intent : EventIntent) (draw : Draw) :
    Option (CommittedLog × EventRecord) := do
  let record := stamp env.toWriterEnv intent draw.eventId draw.timestamp log.nextSequence none
  if intent.eventType ∈ pathBAllowed then
    let next ← log.append env.toWriterEnv [record]
    return (next, record)
  else none

/-- One `ObligationViolated` for each violation, with the draws from a position on. -/
def violatedEvents (draw : Nat → Draw) (envelope : EventRecord) :
    Nat → List ObligationViolation → Option (List (EventIntent × Draw))
  | _, [] => some []
  | position, violation :: violations => do
    let intent ← buildObligationViolatedIntent (draw position) envelope violation
    let rest ← violatedEvents draw envelope (position + 1) violations
    return (intent, draw position) :: rest

/-- The `LockReleased` a rejection may open its batch with. -/
def releasedEvents (draw : Draw) (envelope : EventRecord) (rejection : Rejection) :
    Option (List (EventIntent × Draw)) :=
  if rejection.releasesLock then
    (buildLockReleasedIntent env draw envelope rejection.releaseReason).map fun intent =>
      [(intent, draw)]
  else some []

/-- `_build_and_append_rejected`, the records of the batch. -/
def rejectedRecords (log : CommittedLog) (ids : AttemptIds) (draw : Nat → Draw)
    (envelope : EventRecord) (rejection : Rejection) : Option (List EventRecord) := do
  let released ← releasedEvents env (draw 0) envelope rejection
  let violated ← violatedEvents draw envelope 1 rejection.obligationViolations
  let last := draw (rejection.obligationViolations.length + 1)
  let sentinel := buildCommitRejectedIntent env last envelope ids.gateRunId rejection
    (released.head?.map fun entry => entry.2.eventId) (violated.map fun entry => entry.2.eventId)
  return stampFrom env ids log.nextSequence 0 (released ++ violated ++ [(sentinel, last)])

/-- The records of the accepted batch of `_finalize_accept`; `domain` was stamped before the
envelope was written. -/
def acceptedRecords (log : CommittedLog) (ids : AttemptIds) (draw : Nat → Draw)
    (envelope : EventRecord) (domain : List EventRecord) (outcome : CheckOutcome)
    (auditChain : List AuditChainItem) : List EventRecord :=
  let checked := buildObligationCheckedIntents draw envelope
  let all := domain ++ stampFrom env ids log.nextSequence domain.length
    (checked.zipIdx.map fun (intent, i) => (intent, draw i))
  let sentinel := buildCommitAcceptedIntent env (draw checked.length) envelope ids.gateRunId all
    outcome auditChain
  all ++ stampFrom env ids log.nextSequence all.length [(sentinel, draw checked.length)]

end Builders

end Flowness.CommitGate
