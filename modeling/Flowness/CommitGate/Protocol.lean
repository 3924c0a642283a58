import Flowness.CommitGate.Batches
import Flowness.Library.Transition

/-!
Any number of processes run `attempt_commit`, `continue_attempt` and `scan_abandoned` on one log.
A step is one read or one write of the event log by one running call; what the checks, the audit
and the clock say is left open.
-/

namespace Flowness.CommitGate

open Library Schemas Ledger

/-- What a call carries for its envelope; a `PendingAudit` is one with its audit reference. -/
structure Job where
  envelope : EventRecord
  domain : List EventRecord
  ids : AttemptIds
  outcome : CheckOutcome := {}

structure PendingAudit where
  job : Job
  auditTriggeredEventId : String
  auditSubjects : List (String × String)
  scopeHint : String

inductive Stage where
  /-- `attempt_commit` behind its envelope write. -/
  | checking (job : Job) (auditBlocking : Bool)
  /-- `AuditTriggered` is to be written. -/
  | triggering (job : Job) (auditBlocking : Bool) (intent : EventIntent)
    (subjects : List (String × String)) (scope : String)
  /-- `DriftDetected` is to be written, then the rejected batch. -/
  | drifting (job : Job) (drift : DriftInfo) (rejection : Rejection)
  | rejecting (job : Job) (rejection : Rejection)
  /-- `_finalize_accept` before its write-pre re-check. -/
  | finalizing (job : Job) (auditChain : List AuditChainItem)
  | accepting (job : Job) (auditChain : List AuditChainItem)
  /-- `scan_abandoned` before the outcomes snapshot. -/
  | listing (envelopes : List EventRecord)
  | scanning (envelopes : List EventRecord) (snapshot : List String)
  /-- The re-read of an envelope found no outcome. -/
  | recovering (envelope : EventRecord) (ids : AttemptIds) (rest : List EventRecord)
    (snapshot : List String)
  | done

structure GateState where
  log : CommittedLog
  calls : List Stage
  pending : List PendingAudit

def GateState.initial : GateState := { log := .empty, calls := [], pending := [] }

def outcomeOf (eventType : EventType) (payload : Payload) : Option String :=
  if EventRecord.isSentinelType eventType then (payload.getD "envelope_event_id" .null).text?
  else none

/-- `_collect_envelope_outcomes`, with repetitions. -/
def collectEnvelopeOutcomes (records : List EventRecord) : List String :=
  records.filterMap fun record => outcomeOf record.eventType record.payload

def readAuditVerdict (record : Option EventRecord) : String :=
  match record with
  | none => "fail"
  | some record =>
    (Json.nonBlank record.payload.afterState "verdict").getD "fail"

def decideStage (job : Job) (waits : Bool) : Stage :=
  match job.outcome.rejectionType with
  | some rejectionType =>
    let rejection : Rejection :=
      { rejectionType := rejectionType, failureReason := job.outcome.failureReason,
        failureEvidence := job.outcome.failureEvidence,
        obligationViolations := job.outcome.obligationViolations }
    match job.outcome.driftDetected with
    | some drift => .drifting job drift rejection
    | none => .rejecting job rejection
  | none => if waits then .done else .finalizing job []

def joinNodes (nodes : List (String × String)) : String :=
  String.intercalate ";" (nodes.map fun node => node.1 ++ ":" ++ node.2)

def toctouRejection (drift : DriftInfo) : Rejection :=
  { rejectionType := .driftDetected, failureReason := some "freshness_drift_toctou"
    failureEvidence :=
      ⟨[("invalidating_event_ids", String.intercalate "," drift.invalidatingEventIds),
        ("drift_nodes", joinNodes drift.driftNodes),
        ("toctou", "write-pre re-check (M-0.5 §4.1): committed max seq changed")],
        by simp [Dict.keys]⟩ }

def auditViolations (pending : PendingAudit) (auditVerdictEventId : String) :
    List ObligationViolation :=
  (pending.auditSubjects.filter fun subject => subject.1 = "obligation_declaration").map
    fun subject =>
      { obligationId := subject.2, reason := "audit_failed"
        description := "independent audit verdict=fail on " ++ subject.1 ++ ":" ++ subject.2 ++
          " (audit_verdict=" ++ auditVerdictEventId ++ ")" }

/-- `continue_attempt` once the verdict is read. -/
def resume (pending : PendingAudit) (auditVerdictEventId verdict : String) : Stage :=
  let chain : List AuditChainItem :=
    [{ auditTriggeredEventId := pending.auditTriggeredEventId, auditVerdictEventId
       overallOutcome := if verdict = "fail" then "reject" else verdict }]
  if verdict = "fail" then
    .rejecting pending.job
      { rejectionType := .auditFailed, failureReason := some "audit_failed"
        failureEvidence :=
          ⟨[("audit_verdict_event_id", auditVerdictEventId),
            ("audit_triggered_event_id", pending.auditTriggeredEventId),
            ("audit_scope", pending.scopeHint)], by simp [Dict.keys]⟩
        obligationViolations := auditViolations pending auditVerdictEventId
        auditChain := chain }
  else
    let outcome := pending.job.outcome
    .finalizing
      { pending.job with outcome :=
          { outcome with notices := outcome.notices ++
              [if verdict = "conditional_pass" then "audit_conditional_pass: " ++ auditVerdictEventId
               else "audit_pass: " ++ auditVerdictEventId] } } chain

inductive Action where
  /-- `write_direct` of the envelope; the domain events were stamped before. -/
  | submit (envelope : EventIntent) (draw : Draw) (domain : List EventRecord) (ids : AttemptIds)
    (auditBlocking : Bool)
  /-- `_run_checks` and `_detect_audit_triggers`. -/
  | check (call : Nat) (outcome : CheckOutcome)
    (trigger : Option (EventIntent × List (String × String) × String))
  /-- The next write of the call. -/
  | write (call : Nat) (draw : Nat → Draw)
  /-- `_recheck_freshness_before_write`: the new drift, if any. -/
  | recheck (call : Nat) (drift : Option DriftInfo)
  | continueAttempt (pending : Nat) (auditVerdictEventId : String)
  | scanAbandoned
  | snapshot (call : Nat)
  /-- The next envelope of a scan: its age against the timeout, then the re-read. -/
  | reread (call : Nat) (aged : Bool) (ids : AttemptIds)
  /-- A path-B write of any process. -/
  | direct (intent : EventIntent) (draw : Draw)
  /-- `AuditVerdictReceived` of the submit driver. -/
  | audit (intent : EventIntent) (draw : Draw)
  | crash (call : Nat)

section Steps

variable (env : GateEnv)

/-- `_write_audit_event`, the producer-only port of the audit events. -/
def writeAuditEvent (log : CommittedLog) (intent : EventIntent) (draw : Draw) :
    Option (CommittedLog × EventRecord) := do
  let record := stamp env.toWriterEnv intent draw.eventId draw.timestamp log.nextSequence none
  if intent.eventType ∈ auditProducerOnlyTypes then
    let next ← log.append env.toWriterEnv [record]
    return (next, record)
  else none

/-- The recovery batch of `scan_abandoned`. -/
def abandonedRejection : Rejection :=
  { rejectionType := .obligationViolation, recoveryOfAbandoned := true }

def GateState.move (state : GateState) (call : Nat) (log : CommittedLog) (stage : Stage) :
    GateState :=
  { state with log := log, calls := state.calls.set call stage }

def stepWrite (state : GateState) (call : Nat) (draw : Nat → Draw) : Stage → Option GateState
  | .triggering job auditBlocking intent subjects scope => do
    let (log, record) ← writeAuditEvent env state.log intent (draw 0)
    let waits := auditBlocking && job.outcome.rejectionType.isNone
    let pending : PendingAudit :=
      { job, auditTriggeredEventId := record.eventId.val, auditSubjects := subjects
        scopeHint := scope }
    return { state.move call log (decideStage job waits) with
      pending := if waits then state.pending ++ [pending] else state.pending }
  | .drifting job drift rejection => do
    let intent ← buildDriftDetectedIntent env (draw 0) job.envelope drift
    let (log, record) ← writeDirectTo env state.log intent (draw 0)
    return state.move call log
      (.rejecting job { rejection with driftDetectedEventRef := some record.eventId.val })
  | .rejecting job rejection => do
    let records ← rejectedRecords env state.log job.ids draw job.envelope rejection
    let log ← appendBatch env state.log records
    return state.move call log .done
  | .accepting job auditChain => do
    let log ← appendBatch env state.log
      (acceptedRecords env state.log job.ids draw job.envelope job.domain job.outcome auditChain)
    return state.move call log .done
  | .recovering envelope ids rest snapshot => do
    let records ← rejectedRecords env state.log ids draw envelope abandonedRejection
    let log ← appendBatch env state.log records
    return state.move call log (.scanning rest snapshot)
  | _ => none

def step (state : GateState) : Action → Option GateState
  | .submit envelope draw domain ids auditBlocking =>
    if envelope.eventType = .transactionEnvelopeSubmitted then do
      let (log, record) ← writeDirectTo env state.log envelope draw
      return { state with log, calls := state.calls ++
        [.checking { envelope := record, domain, ids } auditBlocking] }
    else none
  | .check call outcome trigger =>
    match state.calls[call]? with
    | some (.checking job auditBlocking) =>
      let job := { job with outcome }
      match trigger with
      | some (intent, subjects, scope) =>
        some (state.move call state.log (.triggering job auditBlocking intent subjects scope))
      | none => some (state.move call state.log (decideStage job false))
    | _ => none
  | .write call draw =>
    match state.calls[call]? with
    | some stage => stepWrite env state call draw stage
    | none => none
  | .recheck call drift =>
    match state.calls[call]? with
    | some (.finalizing job auditChain) =>
      match drift with
      | some drift =>
        some (state.move call state.log (.drifting job drift (toctouRejection drift)))
      | none => some (state.move call state.log (.accepting job auditChain))
    | _ => none
  | .continueAttempt pending auditVerdictEventId =>
    match state.pending[pending]? with
    | some audit =>
      let verdict := readAuditVerdict (state.log.getEvent auditVerdictEventId)
      some { state with calls := state.calls ++ [resume audit auditVerdictEventId verdict] }
    | none => none
  | .scanAbandoned =>
    some { state with calls := state.calls ++
      [.listing (state.log.getEventsByType .transactionEnvelopeSubmitted)] }
  | .snapshot call =>
    match state.calls[call]? with
    | some (.listing envelopes) =>
      some (state.move call state.log
        (.scanning envelopes (collectEnvelopeOutcomes state.log.records)))
    | _ => none
  | .reread call aged ids =>
    match state.calls[call]? with
    | some (.scanning (envelope :: rest) snapshot) =>
      if envelope.eventId.val ∉ snapshot ∧ aged ∧
          envelope.eventId.val ∉ collectEnvelopeOutcomes state.log.records then
        some (state.move call state.log (.recovering envelope ids rest snapshot))
      else some (state.move call state.log (.scanning rest snapshot))
    | _ => none
  | .direct intent draw => do
    let (log, _) ← writeDirectTo env state.log intent draw
    return { state with log }
  | .audit intent draw => do
    let (log, _) ← writeAuditEvent env state.log intent draw
    return { state with log }
  | .crash call => some (state.move call state.log .done)

end Steps

end Flowness.CommitGate
