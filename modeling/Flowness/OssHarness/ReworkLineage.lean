import Flowness.Library.Json
import Flowness.OssHarness.AttemptLedger

/-!
The lineage of a rework: the blocker case made from the failed or critical unknown check of a jury
report, the terminal receipt of the work attempt bound to that case, and the manifest that binds a
successor to both.
-/

namespace Flowness.OssHarness

open Library

inductive CheckVerdict where
  | pass
  | fail
  | unknown
  | na
deriving DecidableEq, Repr

structure Reproduction where
  commandTemplate : String
  environmentHash : String
  attempts : Nat
deriving DecidableEq, Repr

structure JuryCheck where
  checkId : String
  gateId : String
  dimension : String
  critical : Bool
  verdict : CheckVerdict
  blockerId : Option String
  reproduction : Option Reproduction
  missingEvidence : List String
  expected : String
  observed : String
  remediation : String
  retestCondition : String
deriving DecidableEq, Repr

structure JuryReport where
  reportId : String
  candidateId : String
  snapshotId : String
  checks : List JuryCheck
  signature : String
deriving DecidableEq, Repr

structure ReleaseCandidate where
  candidateId : String
  snapshotId : String
  evidenceIds : List String
deriving DecidableEq, Repr

structure EvidenceSnapshot where
  schemaVersion : String
  snapshotId : String
deriving DecidableEq, Repr

structure RippleTarget where
  targetType : String
  targetId : String
  reason : String
deriving DecidableEq, Repr

structure RippleInvalidation extends RippleTarget where
  requiredRevalidation : String
deriving DecidableEq, Repr

structure Filed (α : Type) where
  content : α
  sha256 : String
deriving DecidableEq, Repr

inductive RetestContract where
  | reproduction (reproduction : Reproduction) (expected observed retestCondition : String)
  | evidenceAcquisition (missingEvidence : List String)
      (expected observed remediation retestCondition : String)
deriving DecidableEq, Repr

structure CaseOriginal where
  candidateId : String
  snapshotId : String
  reportId : String
  checkId : String
  candidate : ArtifactRef
  snapshot : ArtifactRef
  report : ArtifactRef
  checkHash : String
deriving DecidableEq, Repr

structure CaseBody where
  blockerCaseId : String
  blockerId : String
  blockingVerdict : CheckVerdict
  original : CaseOriginal
  contract : RetestContract
  rippleTargets : List RippleTarget
deriving DecidableEq, Repr

structure BlockerCase extends CaseBody where
  caseHash : String
deriving DecidableEq, Repr

/-- What `bind_rework_terminal_attempt` returns. -/
structure ReworkAttempt where
  admissionId : String
  admissionEntryHash : String
  terminalEventHash : String
  executionRecord : ArtifactRef
deriving DecidableEq, Repr

structure ManifestBody where
  reworkManifestId : String
  blockerCaseId : String
  blockerId : String
  caseHash : String
  caseArtifact : ArtifactRef
  successorCandidateId : String
  successorSnapshotId : String
  successorCandidate : ArtifactRef
  successorSnapshot : ArtifactRef
  reworkEvidence : List ArtifactRef
  rippleInvalidations : List RippleInvalidation
  originalCheckId : String
  blockingVerdict : CheckVerdict
  contract : RetestContract
  freshIndependentJuryRequired : Bool
  reworkAttempt : Option ReworkAttempt
deriving DecidableEq, Repr

structure ReworkManifest extends ManifestBody where
  manifestHash : String
deriving DecidableEq, Repr

inductive ReworkError where
  | ledger (error : LedgerError)
  | attemptNotTerminal
  | attemptTerminalReceiptMissing
  | outputExists
  | candidateInvalid
  | snapshotInvalid
  | reportInvalid
  | checkNotUnique
  | blockerIdMismatch
  | reproductionMissing
  | missingEvidenceMissing
  | checkNotBlocking
  | rippleTargetsNotUnique
  | caseInvalid
  | reworkTerminalBindingInvalid
  | successorSnapshotNotNew
  | rippleInvalidationsIncomplete
  | reworkEvidenceRequired
  | manifestInvalid
deriving DecidableEq, Repr

/-- The digests of the four records, as `canonical_hash` computes them, and their JSON schemas. -/
structure ReworkRecords where
  candidateId : ReleaseCandidate → String
  signature : JuryReport → String
  check : JuryCheck → String
  caseId : (blockerId candidateId snapshotId reportId checkId : String) → String
  caseHash : CaseBody → String
  manifestId : (caseId candidateId snapshotId : String) → String
  manifestHash : ManifestBody → String
  candidateSchema : ReleaseCandidate → Bool
  reportSchema : JuryReport → Bool
  caseSchema : BlockerCase → Bool
  manifestSchema : ReworkManifest → Bool

section

variable (records : ReworkRecords)

def loadCandidate (file : Filed ReleaseCandidate) : Except ReworkError ReleaseCandidate := do
  require (records.candidateSchema file.content &&
    file.content.candidateId == records.candidateId file.content) .candidateInvalid
  return file.content

def loadSnapshot (file : Filed EvidenceSnapshot) (expected : String) : Except ReworkError Unit :=
  require (file.content.schemaVersion == "evidence-snapshot/v1" &&
    file.content.snapshotId == expected) .snapshotInvalid

def blockingCheck (report : JuryReport) (checkId blockerId : String) :
    Except ReworkError JuryCheck :=
  match report.checks.filter (fun check => check.checkId == checkId) with
  | [check] => do
    require (check.blockerId == some blockerId) .blockerIdMismatch
    match check.verdict with
    | .fail => require check.reproduction.isSome .reproductionMissing
    | .unknown => do
      require check.critical .checkNotBlocking
      require (!check.missingEvidence.isEmpty) .missingEvidenceMissing
    | _ => .error .checkNotBlocking
    return check
  | _ => .error .checkNotUnique

def caseRetestContract (check : JuryCheck) : RetestContract :=
  match check.verdict, check.reproduction with
  | .fail, some reproduction =>
    .reproduction reproduction check.expected check.observed check.retestCondition
  | _, _ => .evidenceAcquisition check.missingEvidence check.expected check.observed
      check.remediation check.retestCondition

def RippleTarget.key (target : RippleTarget) : String × String :=
  (target.targetType, target.targetId)

def validateRippleTargets (targets : List RippleTarget) : Except ReworkError Unit :=
  require (decide (targets.map RippleTarget.key).Nodup) .rippleTargetsNotUnique

def createBlockerCase (candidateFile : Filed ReleaseCandidate) (snapshotFile : Filed EvidenceSnapshot)
    (reportFile : Filed JuryReport) (blockerId checkId : String) (rippleTargets : List RippleTarget)
    (outputExists : Bool) : Except ReworkError BlockerCase := do
  require (!outputExists) .outputExists
  let candidate ← loadCandidate records candidateFile
  let snapshotId := candidate.snapshotId
  loadSnapshot snapshotFile snapshotId
  let report := reportFile.content
  require (records.reportSchema report && report.signature == records.signature report &&
    report.candidateId == candidate.candidateId && report.snapshotId == snapshotId) .reportInvalid
  let check ← blockingCheck report checkId blockerId
  validateRippleTargets rippleTargets
  let body : CaseBody :=
    { blockerCaseId := records.caseId blockerId candidate.candidateId snapshotId report.reportId checkId
      blockerId := blockerId
      blockingVerdict := check.verdict
      original :=
        { candidateId := candidate.candidateId
          snapshotId := snapshotId
          reportId := report.reportId
          checkId := checkId
          candidate := ⟨"candidate:" ++ candidate.candidateId, candidateFile.sha256⟩
          snapshot := ⟨"snapshot:" ++ snapshotId, snapshotFile.sha256⟩
          report := ⟨"jury-report:" ++ report.reportId, reportFile.sha256⟩
          checkHash := records.check check }
      contract := caseRetestContract check
      rippleTargets := rippleTargets }
  let case : BlockerCase := { body with caseHash := records.caseHash body }
  require (records.caseSchema case) .caseInvalid
  return case

def loadBlockerCase (file : Filed BlockerCase) : Except ReworkError BlockerCase := do
  require (records.caseSchema file.content &&
    file.content.caseHash == records.caseHash file.content.toCaseBody) .caseInvalid
  validateRippleTargets file.content.rippleTargets
  return file.content

end

/-- What `load_terminal_attempt` returns. -/
structure TerminalReceipt where
  admission : Entry
  terminalEvent : AttemptEvent
  state : Outcome
deriving DecidableEq, Repr

def terminalReceipt (state : AttemptState) : Except ReworkError TerminalReceipt :=
  match state.state, state.event with
  | .ended outcome, some event => do
    require (decide (event.eventType = .terminal)) .attemptTerminalReceiptMissing
    return ⟨state.entry, event, outcome⟩
  | .ended _, none => .error .attemptTerminalReceiptMissing
  | _, _ => .error .attemptNotTerminal

def loadTerminalAttempt (entries : List Entry) (events : List AttemptEvent) (admissionId : String) :
    Except ReworkError TerminalReceipt :=
  match findState entries events admissionId with
  | .ok state => terminalReceipt state
  | .error error => .error (.ledger error)

def boundToCase (case : BlockerCase) (card : Card) : Bool :=
  card.reworkBinding.any fun binding => binding.blockerCaseId == case.blockerCaseId &&
    binding.blockerId == case.blockerId && binding.caseHash == case.caseHash

def bindReworkTerminalAttempt (case : BlockerCase) (receipt : TerminalReceipt) :
    Except ReworkError ReworkAttempt :=
  match receipt.terminalEvent.payload.executionRecord with
  | none => .error .reworkTerminalBindingInvalid
  | some executionRecord => do
    require (decide (receipt.state = .completed) && boundToCase case receipt.admission.card &&
      decide (receipt.terminalEvent.eventType = .terminal) &&
        receipt.terminalEvent.payload.retestRequired) .reworkTerminalBindingInvalid
    return ⟨receipt.admission.admissionId, receipt.admission.entryHash,
      receipt.terminalEvent.eventHash, executionRecord⟩

section

variable (records : ReworkRecords)

def createReworkManifest (caseFile : Filed BlockerCase) (successorFile : Filed ReleaseCandidate)
    (snapshotFile : Filed EvidenceSnapshot) (reworkEvidence : List ArtifactRef)
    (rippleInvalidations : List RippleInvalidation) (reworkReceipt : Option TerminalReceipt)
    (outputExists : Bool) : Except ReworkError ReworkManifest := do
  require (!outputExists) .outputExists
  let case ← loadBlockerCase records caseFile
  let reworkAttempt ← reworkReceipt.mapM (bindReworkTerminalAttempt case)
  let successor ← loadCandidate records successorFile
  loadSnapshot snapshotFile successor.snapshotId
  require (successor.snapshotId != case.original.snapshotId) .successorSnapshotNotNew
  let targetKeys := case.rippleTargets.map RippleTarget.key
  let invalidationKeys := rippleInvalidations.map fun item => item.toRippleTarget.key
  require (invalidationKeys.all (fun key => decide (key ∈ targetKeys)) &&
    targetKeys.all (fun key => decide (key ∈ invalidationKeys))) .rippleInvalidationsIncomplete
  require (!reworkEvidence.isEmpty) .reworkEvidenceRequired
  let body : ManifestBody :=
    { reworkManifestId :=
        records.manifestId case.blockerCaseId successor.candidateId successor.snapshotId
      blockerCaseId := case.blockerCaseId
      blockerId := case.blockerId
      caseHash := case.caseHash
      caseArtifact := ⟨"blocker-case:" ++ case.blockerCaseId, caseFile.sha256⟩
      successorCandidateId := successor.candidateId
      successorSnapshotId := successor.snapshotId
      successorCandidate := ⟨"candidate:" ++ successor.candidateId, successorFile.sha256⟩
      successorSnapshot := ⟨"snapshot:" ++ successor.snapshotId, snapshotFile.sha256⟩
      reworkEvidence := reworkEvidence
      rippleInvalidations := rippleInvalidations
      originalCheckId := case.original.checkId
      blockingVerdict := case.blockingVerdict
      contract := case.contract
      freshIndependentJuryRequired := true
      reworkAttempt := reworkAttempt }
  let manifest : ReworkManifest := { body with manifestHash := records.manifestHash body }
  require (records.manifestSchema manifest) .manifestInvalid
  return manifest

end

section

variable {records : ReworkRecords} {case : BlockerCase} {receipt : TerminalReceipt}
  {entries : List Entry} {events : List AttemptEvent} {admissionId : String}

theorem bindReworkTerminalAttempt_no_retest
    (h : receipt.terminalEvent.payload.retestRequired = false) :
    bindReworkTerminalAttempt case receipt = .error .reworkTerminalBindingInvalid := by
  unfold bindReworkTerminalAttempt
  cases receipt.terminalEvent.payload.executionRecord with
  | none => rfl
  | some executionRecord => simp [h, require, bind, Except.bind]

theorem createReworkManifest_bound
    (h : createReworkManifest records caseFile successorFile snapshotFile reworkEvidence
      rippleInvalidations (some receipt) outputExists = .ok manifest) :
    ∃ attempt, bindReworkTerminalAttempt caseFile.content receipt = .ok attempt := by
  simp only [createReworkManifest, bind_ok, loadBlockerCase] at h
  obtain ⟨-, -, case, hcase, attempt, hattempt, -⟩ := h
  obtain ⟨-, -, -, -, hcase⟩ := hcase
  cases hcase
  rw [Option.mapM_some] at hattempt
  cases hbind : bindReworkTerminalAttempt caseFile.content receipt with
  | ok bound => exact ⟨bound, rfl⟩
  | error error =>
    rw [hbind] at hattempt
    cases hattempt

theorem loadTerminalAttempt_ok (h : loadTerminalAttempt entries events admissionId = .ok receipt) :
    ∃ state, findState entries events admissionId = .ok state ∧
      state.event = some receipt.terminalEvent ∧ state.state = .ended receipt.state ∧
      state.entry = receipt.admission ∧ receipt.terminalEvent.eventType = .terminal := by
  unfold loadTerminalAttempt at h
  split at h
  next state hstate =>
    unfold terminalReceipt at h
    split at h
    next outcome event hended hevent =>
      simp only [bind_ok, require_ok, exists_const, decide_eq_true_eq] at h
      obtain ⟨htype, h⟩ := h
      cases h
      exact ⟨state, hstate, hevent, hended, rfl, htype⟩
    · cases h
    · cases h
  · cases h

end

end Flowness.OssHarness
