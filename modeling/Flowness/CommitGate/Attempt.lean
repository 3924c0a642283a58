import Flowness.CommitGate.GraphIntegrity
import Flowness.CommitGate.ObligationChecks
import Flowness.CommitGate.Outcomes
import Flowness.CommitGate.SemanticChecks

/-!
`attempt_commit` in one piece, with nobody else writing in between. The checks that are not
modelled here give any verdict, each at its place in the pipeline.
-/

namespace Flowness.CommitGate

open Library Schemas Ledger Projection

structure OtherChecks where
  integrity : Option Failure := none
  births : Option Failure := none
  versions : Option Failure := none
  later : Option Failure := none
  passed : { outcome : CheckOutcome // outcome.rejectionType = none } := ⟨{}, rfl⟩

structure Attempt where
  /-- The canonical envelope as it is stored. -/
  envelope : EventIntent
  envelopeDraw : Draw
  /-- The normalized payload the checks run on. -/
  payload : Payload
  domain : List (EventIntent × Draw)
  ids : AttemptIds
  checks : OtherChecks := {}
  trigger : Option (EventIntent × Draw) := none
  recheck : Option DriftInfo := none
  driftDraw : Draw
  draw : Nat → Draw

def Attempt.intents (attempt : Attempt) : List EventIntent := attempt.domain.map Prod.fst

theorem properEntries_set (hentries : Json.properEntries entries = true)
    (hvalue : value.proper = true) : Json.properEntries (Dict.set entries key value) = true := by
  induction entries with
  | nil => simp [Dict.set, Json.properEntries, hvalue]
  | cons entry entries ih =>
    rw [Json.properEntries, Bool.and_eq_true] at hentries
    rw [Dict.set]
    split
    · rw [Json.properEntries, hvalue, hentries.2, Bool.and_self]
    · rw [Json.properEntries, hentries.1, ih hentries.2, Bool.and_self]

theorem proper_set (hentries : (Json.obj entries).proper = true) (hvalue : value.proper = true) :
    (Json.obj (Dict.set entries key value)).proper = true := by
  rw [Json.proper, Bool.and_eq_true, decide_eq_true_eq] at hentries ⊢
  exact ⟨Dict.nodup_keys_set hentries.1 key value, properEntries_set hentries.2 hvalue⟩

def envelopePlaceholder : String := "local:envelope"

/-- `after_state[key]` rewritten when it is the placeholder. -/
def backfillRef (key envelopeEventId : String) (payload : Payload) : Payload :=
  match hafter : payload.get "after_state" with
  | some (.obj after) =>
    if Json.lookup after key = .str envelopePlaceholder then
      ⟨Dict.set payload.val "after_state" (.obj (Dict.set after key (.str envelopeEventId))),
        proper_set payload.property (proper_set (Payload.proper_get hafter) rfl)⟩
    else payload
  | _ => payload

/-- `backfill_semantic_sibling_refs`, one record. -/
def backfillSemanticSiblingRef (envelopeEventId : String) (record : EventRecord) : EventRecord :=
  if record.eventType = .semanticUpgradeDeclaration then
    { record with payload := backfillRef "sibling_event_id" envelopeEventId record.payload }
  else record

/-- `backfill_envelope_event_id_refs`, one record. -/
def backfillEnvelopeEventIdRef (envelopeEventId : String) (record : EventRecord) : EventRecord :=
  { record with payload := backfillRef "envelope_event_id" envelopeEventId record.payload }

def backfilled (envelopeEventId : String) (record : EventRecord) : EventRecord :=
  backfillEnvelopeEventIdRef envelopeEventId (backfillSemanticSiblingRef envelopeEventId record)

section

variable (env : GateEnv)

def ownershipRejection (log : CommittedLog) (payload : Payload) : Option Failure :=
  let submitter := (payload.getD "run_id" .null).text?
  let writeSet := (payload.getD "write_set" (.arr [])).asItems
  let projection := if submitter.isSome && submitter ≠ some "" && writeSet ≠ [] then
      some (ownership log.getEvent log.records) else none
  let result := checkOwnershipConflict env projection writeSet submitter
  if result.passed then none
  else some
    ⟨{ rejectionType := some .writeConflict, failureReason := result.failureReason
       failureEvidence := result.failureEvidence }, rfl⟩

def edgeRejection (log : CommittedLog) (domain : List EventIntent) : Option Failure :=
  let result := checkGraphEdgeIntegrity domain log.records
  if result.passed then none
  else some
    ⟨{ rejectionType := some .obligationViolation
       failureReason := some (result.failureReason.getD "edge_target_unresolvable")
       failureEvidence := result.failureEvidence }, rfl⟩

def verdicts (checks : OtherChecks) (log : CommittedLog) (domain : List EventIntent)
    (payload : Payload) : List (Option Failure) :=
  [checks.integrity, checkObligationCaptureProvenance domain, checks.births, checks.versions,
    ownershipRejection env log payload, checks.later, edgeRejection log domain]

/-- `_run_checks`: the first check that fails decides. -/
def runChecks (checks : OtherChecks) (log : CommittedLog) (domain : List EventIntent)
    (payload : Payload) : CheckOutcome :=
  match (verdicts env checks log domain payload).findSome? id with
  | some failure => failure.val
  | none => checks.passed.val

structure Conclusion where
  log : CommittedLog
  envelope : EventRecord
  accepted : Bool

/-- The `DriftDetected` before a rejected batch, with its identifier. -/
def writeDrift (log : CommittedLog) (draw : Draw) (envelope : EventRecord) :
    Option DriftInfo → Option (CommittedLog × Option String)
  | none => some (log, none)
  | some drift => do
    let intent ← buildDriftDetectedIntent env draw envelope drift
    let (next, record) ← writeDirectTo env log intent draw
    return (next, some record.eventId.val)

/-- The rejected batch, `DriftDetected` before it. -/
def concludeRejected (log : CommittedLog) (attempt : Attempt) (envelope : EventRecord)
    (drift : Option DriftInfo) (rejection : Rejection) : Option Conclusion := do
  let (log, driftRef) ← writeDrift env log attempt.driftDraw envelope drift
  let records ← rejectedRecords env log attempt.ids attempt.draw envelope
    { rejection with driftDetectedEventRef := driftRef }
  let log ← appendBatch env log records
  return { log, envelope, accepted := false }

def emitTrigger (log : CommittedLog) (trigger : Option (EventIntent × Draw)) :
    Option CommittedLog :=
  match trigger with
  | some (intent, draw) => (writeAuditEvent env log intent draw).map Prod.fst
  | none => some log

def outcomeRejection (outcome : CheckOutcome) (rejectionType : RejectionType) : Rejection :=
  { rejectionType, failureReason := outcome.failureReason
    failureEvidence := outcome.failureEvidence
    obligationViolations := outcome.obligationViolations }

def Attempt.domainRecords (attempt : Attempt) (log : CommittedLog) (envelope : EventRecord) :
    List EventRecord :=
  (stampFrom env attempt.ids log.nextSequence 0 attempt.domain).map
    (backfilled envelope.eventId.val)

/-- `attempt_commit` without audit blocking; `none` when it raises. -/
def attemptCommit (log : CommittedLog) (attempt : Attempt) : Option Conclusion :=
  if noProtocolInvariantRetire log attempt.intents = true ∧
      attempt.envelope.eventType = .transactionEnvelopeSubmitted then do
    let (written, envelope) ← writeDirectTo env log attempt.envelope attempt.envelopeDraw
    let outcome := runChecks env attempt.checks written attempt.intents attempt.payload
    let triggered ← emitTrigger env written attempt.trigger
    match outcome.rejectionType with
    | some rejectionType =>
      concludeRejected env triggered attempt envelope outcome.driftDetected
        (outcomeRejection outcome rejectionType)
    | none =>
      match attempt.recheck with
      | some drift =>
        concludeRejected env triggered attempt envelope (some drift) (toctouRejection drift)
      | none => do
        let accepted ← appendBatch env triggered
          (acceptedRecords env triggered attempt.ids attempt.draw envelope
            (attempt.domainRecords env log envelope) outcome [])
        return { log := accepted, envelope, accepted := true }
  else none

def commitStep (log : CommittedLog) (attempt : Attempt) : Option CommittedLog :=
  (attemptCommit env log attempt).map Conclusion.log

variable {env}

structure AcceptedBy (env : GateEnv) (log : CommittedLog) (attempt : Attempt)
    (conclusion : Conclusion) (written triggered : CommittedLog) : Prop where
  guarded : noProtocolInvariantRetire log attempt.intents = true
  submitted : attempt.envelope.eventType = .transactionEnvelopeSubmitted
  wrote : writeDirectTo env log attempt.envelope attempt.envelopeDraw =
    some (written, conclusion.envelope)
  passed : (runChecks env attempt.checks written attempt.intents attempt.payload).rejectionType =
    none
  triggers : emitTrigger env written attempt.trigger = some triggered
  appended : appendBatch env triggered
    (acceptedRecords env triggered attempt.ids attempt.draw conclusion.envelope
      (attempt.domainRecords env log conclusion.envelope)
      (runChecks env attempt.checks written attempt.intents attempt.payload) []) =
    some conclusion.log

inductive Reason (env : GateEnv) (attempt : Attempt) (written : CommittedLog) : Rejection → Prop
  | failed {rejectionType : RejectionType}
    (hfailed : (runChecks env attempt.checks written attempt.intents attempt.payload).rejectionType =
      some rejectionType) : Reason env attempt written
        (outcomeRejection (runChecks env attempt.checks written attempt.intents attempt.payload)
          rejectionType)
  | drifted (drift : DriftInfo) : Reason env attempt written (toctouRejection drift)

structure RejectedBy (env : GateEnv) (log : CommittedLog) (attempt : Attempt)
    (conclusion : Conclusion) (written triggered : CommittedLog) (drift : Option DriftInfo)
    (rejection : Rejection) : Prop where
  submitted : attempt.envelope.eventType = .transactionEnvelopeSubmitted
  wrote : writeDirectTo env log attempt.envelope attempt.envelopeDraw =
    some (written, conclusion.envelope)
  triggers : emitTrigger env written attempt.trigger = some triggered
  reason : Reason env attempt written rejection
  concluded : concludeRejected env triggered attempt conclusion.envelope drift rejection =
    some conclusion

theorem accepted_concludeRejected
    (h : concludeRejected env log attempt envelope drift rejection = some conclusion) :
    conclusion.accepted = false ∧ conclusion.envelope = envelope := by
  obtain ⟨⟨drifted, driftRef⟩, -, h⟩ := Option.bind_eq_some_iff.mp h
  obtain ⟨records, -, h⟩ := Option.bind_eq_some_iff.mp h
  obtain ⟨next, -, h⟩ := Option.bind_eq_some_iff.mp h
  cases h
  exact ⟨rfl, rfl⟩

theorem attemptCommit_cases (h : attemptCommit env log attempt = some conclusion) :
    (conclusion.accepted = true ∧
      ∃ written triggered, AcceptedBy env log attempt conclusion written triggered) ∨
    (conclusion.accepted = false ∧ ∃ written triggered drift rejection,
      RejectedBy env log attempt conclusion written triggered drift rejection) := by
  unfold attemptCommit at h
  split at h
  next hguards =>
    obtain ⟨⟨written, envelope⟩, hwrote, h⟩ := Option.bind_eq_some_iff.mp h
    obtain ⟨triggered, htriggers, h⟩ := Option.bind_eq_some_iff.mp h
    have hrejected : ∀ {drift rejection}, Reason env attempt written rejection →
        concludeRejected env triggered attempt envelope drift rejection = some conclusion →
        conclusion.accepted = false ∧ ∃ written triggered drift rejection,
          RejectedBy env log attempt conclusion written triggered drift rejection := by
      intro drift rejection hreason hconcluded
      obtain ⟨haccepted, henvelope⟩ := accepted_concludeRejected hconcluded
      refine ⟨haccepted, written, triggered, drift, rejection, hguards.2, ?_, htriggers, hreason, ?_⟩
      · rw [henvelope, hwrote]
      · rw [henvelope, hconcluded]
    split at h
    next rejectionType hfailed =>
      exact .inr (hrejected (.failed hfailed) h)
    next hpassed =>
      split at h
      · exact .inr (hrejected (.drifted _) h)
      · obtain ⟨next, happended, h⟩ := Option.bind_eq_some_iff.mp h
        cases h
        exact .inl ⟨rfl, written, triggered, hguards.1, hguards.2, hwrote, hpassed, htriggers,
          happended⟩
  · cases h

theorem runChecks_passed (h : (runChecks env checks log domain payload).rejectionType = none)
    (hverdict : verdict ∈ verdicts env checks log domain payload) : verdict = none := by
  unfold runChecks at h
  split at h
  next failure _ =>
    have hfails := failure.property
    rw [h] at hfails
    cases hfails
  next hnone =>
    exact List.findSome?_eq_none_iff.mp hnone verdict hverdict

end

/-- An attempt whose identifiers start at `first`; what it stores is what is checked. -/
def sampleAttempt (first : Nat) (payload : Payload) (domain : List EventIntent) : Attempt where
  envelope := { sampleEnvelope with payload := payload }
  envelopeDraw := sampleDraw first
  payload := payload
  domain := domain.zipIdx.map fun (intent, i) => (intent, sampleDraw (first + i + 1))
  ids := sampleIds
  driftDraw := sampleDraw first
  draw := fun n => sampleDraw (first + domain.length + 1 + n)

end Flowness.CommitGate
