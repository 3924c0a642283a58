import Flowness.Library.Checked
import Flowness.Library.Lines
import Mathlib.Data.List.Sort

/-!
The work admission card, the part of the execution policy it is read against, and
`_validate_card`. A digest that the harness computes itself is a text of the right form.
-/

namespace Flowness.OssHarness

open Library

inductive TaskClass where
  | core
  | enablement
  | judge
deriving DecidableEq, Repr

def TaskClass.value : TaskClass → String
  | .core => "core"
  | .enablement => "enablement"
  | .judge => "judge"

/-- The codes of the `ValidationError`s that the control ledger raises. -/
inductive LedgerError where
  | executionNotAllowed
  | cardSchema
  | missingFields (fields : List String)
  | taskIdInvalid
  | reworkBindingInvalid
  | waveUnknown
  | classInvalid
  | laneInvalid
  | budgetUnitInvalid
  | changeIntentInvalid
  | enablementSupportedWaveRequired
  | enablementMayNotConsumeReserve
  | budgetWaveInvalid
  | corePrimaryArtifactRequired
  | coreValueDeltaRequired
  | enablementCoreDeltaMustBeZero
  | enablementFoundationIdentityRequired
  | enablementBlockerFingerprintRequired
  | enablementDegradedPathEvidenceRequired
  | judgeIndependentIdentityRequired
  | judgeVerdictOrDeltaRequired
  | fingerprintComponentsRequired
  | fingerprintAdjudicationRequired
  | fingerprintUnadjudicated
  | foundationLedgerImportRequired
  | policyHashMismatch
  | taskIdReused
  | attemptLimitExhausted
  | codeChangesLimitExhausted
  | deploymentsLimitExhausted
  | metaReviewsLimitExhausted
  | changeIntentRequiresBlocker
  | budgetLedgerExhausted
  | budgetWaveExhausted
  | enablementBudgetExhausted
  | laneFloorsWouldBeStarved
  | keyError
  | budgetLedgerCorrupt
  | attemptLedgerCorrupt
  | illegalTransition
  | attemptSchema
  | attemptAdmissionNotFound
  | attemptPolicyHashMismatch
  | attemptRunBindingInvalid
  | attemptNotAdmitted
  | attemptNotStoppable
  | recoveryOutcomeInvalid
  | recoveryReasonInvalid
  | recoveryEvidenceRequired
  | attemptNotRecoverable
  | recoveryStartedBindingInvalid
  | attemptOutcomeInvalid
  | attemptNotSettlable
deriving DecidableEq, Repr

structure ArtifactRef where
  artifactId : String
  sha256 : String
deriving DecidableEq, Repr

structure Usage where
  attempts : Nat
  codeChanges : Nat
  deployments : Nat
  metaReviews : Nat
deriving DecidableEq, Repr

/-- The four `_COMPONENTS` of a blocker fingerprint. -/
structure Components where
  adjudicatedRootCauseFamily : String
  sealedCanonicalConsumerId : String
  normalizedErrorOrStackSignatureHash : String
  sourceOrEntryCoordinates : String
deriving DecidableEq, Repr

def Components.values (c : Components) : List String :=
  [c.adjudicatedRootCauseFamily, c.sealedCanonicalConsumerId,
    c.normalizedErrorOrStackSignatureHash, c.sourceOrEntryCoordinates]

structure HistoricalImport where
  evidence : ArtifactRef
  usage : Usage
deriving DecidableEq, Repr

structure Adjudication where
  adjudicatorIdentity : String
  evidence : ArtifactRef
deriving DecidableEq, Repr

structure CardBlocker where
  components : Components
  /-- The schema also admits the evidence inside `components`, where nothing reads it. -/
  componentEvidence : Option (List ArtifactRef)
  degradedPathImpossibleEvidence : List ArtifactRef
  historicalLedgerImport : Option HistoricalImport
  newFingerprintAdjudication : Option Adjudication
deriving DecidableEq, Repr

structure ReworkOriginal where
  candidateId : String
  snapshotId : String
  reportId : String
  checkId : String
deriving DecidableEq, Repr

structure ReworkBinding where
  blockerCaseId : String
  blockerId : String
  caseHash : String
  caseArtifact : ArtifactRef
  original : ReworkOriginal
deriving DecidableEq, Repr

structure CardBudget where
  units : Nat
  supportedWaveId : Option String
deriving DecidableEq, Repr

structure ChangeIntent where
  codeChanges : Nat
  deployments : Nat
  metaReviews : Nat
deriving DecidableEq, Repr

structure Card where
  taskId : String
  taskClass : TaskClass
  waveId : String
  lane : String
  roleId : String
  immutableInputs : List ArtifactRef
  primaryCoreArtifact : String
  currentGateOrBlocker : String
  expectedCoreValueDelta : List String
  authoritativeInputs : List String
  downstreamConsumer : String
  budget : CardBudget
  changeIntent : ChangeIntent
  acceptance : List String
  retestCondition : String
  stopConditions : List String
  excludedScope : List String
  ownerAuthority : String
  rippleTargets : List String
  judgeIdentity : Option String
  judgeVerdictOrDelta : Option String
  blocker : Option CardBlocker
  reworkBinding : Option ReworkBinding
deriving DecidableEq, Repr

structure Wave where
  waveId : String
  outputs : List String
deriving DecidableEq, Repr

structure BudgetPolicy where
  totalUnits : Nat
  enablementUnitsMax : Nat
  waveUnits : Dict String Nat
  laneFloors : Dict String Nat
  lanesDistinct : laneFloors.keys.Nodup
deriving DecidableEq, Repr

structure AttemptPolicy where
  targetedAttemptsPerFingerprintLifetimeMax : Nat
  codeChangesPerFingerprintLifetimeMax : Nat
  deploymentsPerFoundationLifetimeMax : Nat
  metaReviewsPerFingerprintLifetimeMax : Nat
deriving DecidableEq, Repr

structure Policy where
  programId : String
  program : programId = "flowness-oss-v2"
  requiredFields : List String
  taskClasses : List String
  waves : List Wave
  northStarArtifacts : List String
  coreValueMetrics : List String
  foundationId : String
  budget : BudgetPolicy
  attemptPolicy : AttemptPolicy
deriving DecidableEq, Repr

def isLowerHex (c : Char) : Bool := c.isDigit || ('a' ≤ c && c ≤ 'f')

/-- `re.fullmatch(r"sha256:[0-9a-f]{64}", text)`. -/
def isSha256 (text : Text) : Bool :=
  text.take 7 == "sha256:".toList && (text.drop 7).length == 64 && (text.drop 7).all isLowerHex

/-- The schema's `^sha256:[0-9a-f]{64}$`, whose `$` also stands before a final newline. -/
def hasSha256Pattern (text : Text) : Bool :=
  isSha256 text || (text.getLast? == some '\n' && isSha256 text.dropLast)

def nonEmpty (s : String) : Bool := s != ""

def nonEmptyList (items : List String) : Bool := !items.isEmpty && items.all nonEmpty

def ArtifactRef.schema (ref : ArtifactRef) : Bool :=
  nonEmpty ref.artifactId && hasSha256Pattern ref.sha256.toList

def refsSchema (refs : List ArtifactRef) : Bool := !refs.isEmpty && refs.all ArtifactRef.schema

def CardBlocker.schema (blocker : CardBlocker) : Bool :=
  blocker.components.values.all nonEmpty && blocker.componentEvidence.all refsSchema &&
    refsSchema blocker.degradedPathImpossibleEvidence &&
    blocker.historicalLedgerImport.all (fun imported => imported.evidence.schema) &&
    blocker.newFingerprintAdjudication.all
      (fun adjudication => nonEmpty adjudication.adjudicatorIdentity && adjudication.evidence.schema)

def ReworkBinding.schema (rework : ReworkBinding) : Bool :=
  nonEmpty rework.blockerCaseId && nonEmpty rework.blockerId &&
    hasSha256Pattern rework.caseHash.toList && rework.caseArtifact.schema &&
    nonEmpty rework.original.candidateId && hasSha256Pattern rework.original.snapshotId.toList &&
    nonEmpty rework.original.reportId && nonEmpty rework.original.checkId

def ChangeIntent.schema (intent : ChangeIntent) : Bool :=
  decide (intent.codeChanges ≤ 1) && decide (intent.deployments ≤ 1) && decide (intent.metaReviews ≤ 1)

/-- `work-admission-card.schema.json`. -/
def Card.schema (card : Card) : Bool :=
  nonEmpty card.taskId && nonEmpty card.waveId && nonEmpty card.lane && nonEmpty card.roleId &&
    refsSchema card.immutableInputs && nonEmpty card.currentGateOrBlocker &&
    card.expectedCoreValueDelta.all nonEmpty && nonEmptyList card.authoritativeInputs &&
    nonEmpty card.downstreamConsumer && decide (card.budget.units = 1) &&
    card.budget.supportedWaveId.all nonEmpty && card.changeIntent.schema &&
    nonEmptyList card.acceptance && nonEmpty card.retestCondition &&
    nonEmptyList card.stopConditions && nonEmptyList card.excludedScope &&
    nonEmpty card.ownerAuthority && nonEmptyList card.rippleTargets &&
    card.judgeIdentity.all nonEmpty && card.judgeVerdictOrDelta.all nonEmpty &&
    card.blocker.all CardBlocker.schema && card.reworkBinding.all ReworkBinding.schema

/-- `set(card)`. -/
def Card.keys (card : Card) : List String :=
  ["task_id", "task_class", "wave_id", "lane", "role_id", "immutable_inputs",
    "primary_core_artifact", "current_gate_or_blocker", "expected_core_value_delta",
    "authoritative_inputs", "downstream_consumer", "budget", "change_intent", "acceptance",
    "retest_condition", "stop_conditions", "excluded_scope", "owner_authority", "ripple_targets"] ++
    (card.judgeIdentity.map fun _ => "judge_identity").toList ++
    (card.judgeVerdictOrDelta.map fun _ => "judge_verdict_or_delta").toList ++
    (card.blocker.map fun _ => "blocker").toList ++
    (card.reworkBinding.map fun _ => "rework_binding").toList

/-- `value.strip()` is not empty. -/
def notBlank (s : String) : Bool := strip s.toList ≠ []

def isNonemptyStrings (items : List String) : Bool := !items.isEmpty && items.all notBlank

def isNonemptyArtifactRefs (refs : List ArtifactRef) : Bool :=
  !refs.isEmpty && refs.all (fun ref => notBlank ref.artifactId && isSha256 ref.sha256.toList)

/-- `_TASK_ID.fullmatch`. -/
def isTaskId (text : Text) : Bool :=
  match text with
  | [] => false
  | first :: rest =>
    first.isAlphanum && decide (rest.length ≤ 127) &&
      rest.all (fun c => c.isAlphanum || c == '.' || c == '_' || c == '-')

def budgetWaveId (waveId : String) (budget : CardBudget) : Except LedgerError String :=
  if waveId = "W2A" ∨ waveId = "W2B" ∨ waveId = "W2C" then .ok "W2"
  else if waveId = "FOUNDATION-001" then
    match budget.supportedWaveId with
    | none => .error .enablementSupportedWaveRequired
    | some supported =>
      if supported = "reserve" then .error .enablementMayNotConsumeReserve else .ok supported
  else .ok waveId

def reworkBound (card : Card) (rework : ReworkBinding) : Bool :=
  rework.caseArtifact.artifactId == "blocker-case:" ++ rework.blockerCaseId &&
    rework.caseArtifact.sha256 == rework.caseHash &&
    decide (rework.caseArtifact ∈ card.immutableInputs) &&
    card.currentGateOrBlocker == rework.blockerId && card.blocker.isSome

def waveOutputs (policy : Policy) (waveId : String) : List String :=
  ((policy.waves.find? (fun wave => wave.waveId == waveId)).map Wave.outputs).getD []

def validateClass (card : Card) (policy : Policy) : Except LedgerError Unit :=
  match card.taskClass with
  | .core => do
    let currentOutputs := waveOutputs policy card.waveId
    require (decide (card.primaryCoreArtifact ∈ currentOutputs ++ policy.northStarArtifacts))
      .corePrimaryArtifactRequired
    require (isNonemptyStrings card.expectedCoreValueDelta && card.expectedCoreValueDelta.all
        (fun delta => decide (delta ∈ policy.coreValueMetrics ++ currentOutputs)))
      .coreValueDeltaRequired
  | .enablement => do
    require card.expectedCoreValueDelta.isEmpty .enablementCoreDeltaMustBeZero
    require (card.waveId == policy.foundationId) .enablementFoundationIdentityRequired
    match card.blocker with
    | none => .error .enablementBlockerFingerprintRequired
    | some blocker =>
      require (isNonemptyArtifactRefs blocker.degradedPathImpossibleEvidence)
        .enablementDegradedPathEvidenceRequired
  | .judge => do
    require (notBlank (card.judgeIdentity.getD "")) .judgeIndependentIdentityRequired
    require (notBlank (card.judgeVerdictOrDelta.getD "") ||
        isNonemptyStrings card.expectedCoreValueDelta)
      .judgeVerdictOrDeltaRequired

def validateCard (card : Card) (policy : Policy) : Except LedgerError Unit := do
  require card.schema .cardSchema
  let missing := (policy.requiredFields.filter (fun field => decide (field ∉ card.keys))).insertionSort
    (· ≤ ·)
  require missing.isEmpty (.missingFields missing)
  require (isTaskId card.taskId.toList) .taskIdInvalid
  require (card.reworkBinding.all (reworkBound card)) .reworkBindingInvalid
  require (decide (card.waveId ∈ policy.waves.map Wave.waveId)) .waveUnknown
  require (decide (card.taskClass.value ∈ policy.taskClasses)) .classInvalid
  require (decide (card.lane ∈ policy.budget.laneFloors.keys)) .laneInvalid
  require (decide (card.budget.units = 1)) .budgetUnitInvalid
  require card.changeIntent.schema .changeIntentInvalid
  let chargeWave ← budgetWaveId card.waveId card.budget
  require (decide (chargeWave ∈ policy.budget.waveUnits.keys)) .budgetWaveInvalid
  validateClass card policy

theorem charged_of_valid {card : Card} {policy : Policy} {done : Unit}
    (h : validateCard card policy = .ok done) :
    card.budget.units = 1 ∧ card.lane ∈ policy.budget.laneFloors.keys ∧
      ∃ wave ∈ policy.budget.waveUnits.keys, budgetWaveId card.waveId card.budget = .ok wave := by
  simp only [validateCard, bind_ok, require_ok, exists_const, decide_eq_true_eq] at h
  obtain ⟨-, -, -, -, -, -, hlane, hunits, -, wave, hwave, hknown, -⟩ := h
  exact ⟨hunits, hlane, wave, hknown, hwave⟩

end Flowness.OssHarness
