import Mathlib.Data.List.Nodup

/-! The string enumerations of the event schema: members in declaration order, each with the
value it is written as. -/

namespace Flowness.Schemas

/-- A closed enumeration of distinct string values. -/
class StrEnum (α : Type) where
  members : List α
  value : α → String
  mem_members : ∀ member, member ∈ members := by
    intro member
    cases member <;> decide
  value_injective : (members.map value).Nodup := by decide +kernel

namespace StrEnum

variable {α : Type} [StrEnum α]

/-- The member written as `text`; `none` is the validation error. -/
def ofValue (text : String) : Option α := (members : List α).find? (fun m => value m == text)

theorem value_inj {a b : α} (h : value a = value b) : a = b :=
  List.inj_on_of_nodup_map value_injective (mem_members a) (mem_members b) h

@[simp] theorem ofValue_value (member : α) : ofValue (value member) = some member := by
  unfold ofValue
  cases hfind : (members : List α).find? (fun m => value m == value member) with
  | none =>
    have habsent := List.find?_eq_none.mp hfind member (mem_members member)
    simp at habsent
  | some found =>
    have hvalue : value found = value member := by simpa using List.find?_some hfind
    rw [value_inj hvalue]

end StrEnum

inductive EventCategory where
  | stateTransition | semanticJudgment | snapshot | consolidation | capsule | envelope | commit
  | finding | detectionRule | obligation
deriving DecidableEq, Repr

def EventCategory.value : EventCategory → String
  | .stateTransition => "state_transition"
  | .semanticJudgment => "semantic_judgment"
  | .snapshot => "snapshot"
  | .consolidation => "consolidation"
  | .capsule => "capsule"
  | .envelope => "envelope"
  | .commit => "commit"
  | .finding => "finding"
  | .detectionRule => "detection_rule"
  | .obligation => "obligation"

instance : StrEnum EventCategory where
  members :=
    [.stateTransition, .semanticJudgment, .snapshot, .consolidation, .capsule, .envelope,
      .commit, .finding, .detectionRule, .obligation]
  value := EventCategory.value

inductive BaseClassification where
  | immutableTruth | abstractableProcess | discardableNoise
deriving DecidableEq, Repr

def BaseClassification.value : BaseClassification → String
  | .immutableTruth => "immutable_truth"
  | .abstractableProcess => "abstractable_process"
  | .discardableNoise => "discardable_noise"

instance : StrEnum BaseClassification where
  members :=
    [.immutableTruth, .abstractableProcess, .discardableNoise]
  value := BaseClassification.value

inductive SupersedeNoveltyType where
  | newEvidence | correctedError | scopeChange | natureOverride
deriving DecidableEq, Repr

def SupersedeNoveltyType.value : SupersedeNoveltyType → String
  | .newEvidence => "new_evidence"
  | .correctedError => "corrected_error"
  | .scopeChange => "scope_change"
  | .natureOverride => "nature_override"

instance : StrEnum SupersedeNoveltyType where
  members :=
    [.newEvidence, .correctedError, .scopeChange, .natureOverride]
  value := SupersedeNoveltyType.value

inductive EventType where
  | conceptCreated | conceptEdgeAdded | conceptEdgeRemoved | conceptStateTransition
  | conceptGraphProposal | taskNodeCreated | taskDependencyEdgeAdded | taskDependencyEdgeRemoved
  | taskNodeClosed | taskNodeOwnerGateCleared | taskReadSetClaimed | taskWriteSetClaimed
  | taskModelTierAssigned | taskPackagePublished | taskRunCompleted | informationNeedCreated
  | informationNeedStatusChanged | atReferenceAdded | atReferenceRemoved | atReferenceAutoUpdated
  | atReferenceTargetSuperseded | patchProposed | fixProposed | fixCompleted
  | consumerListPublished | engineeringConsensusFreezed | invalidationCascade
  | daemonRunCompleted | orchestratorDispatchFailed | execClaimReaped | reconcileCyclePublished
  | sentinelPassCompleted | sentinelPassFailed | projectInitialized | obligationRetireCandidate
  | historicalPatternSurfaceCandidate | escalationTriaged | escalationResolved | escalationRaised
  | lockReleased | sessionSpawned | lockAcquired | goalSessionStarted | goalSessionTerminated
  | goalEscalationRaised | escalationAnswerApplied | interviewBriefPublished
  | interviewSessionStarted | engineeringConsensusSessionStarted | plannerSessionStarted
  | subSkillInvocationSkipped | planFreezed | planningUncertainty | planSessionLockReaped
  | conceptStateMachineDefined | mismatchDetected | mismatchResolutionDecided
  | advisorConsultRequested | advisorVerdictDelivered | rePlanTriggered | natureJudgmentCaptured
  | semanticUpgradeDeclaration | resolverDecisionMade | obligationScopeJudged
  | riskSurfaceAssigned | impactAssessmentMade | consistencyJudgmentMade | criticalPathIdentified
  | auditTriggered | auditVerdictReceived | escalationDecisionMade | escalationLearningCaptured
  | semanticConflictDetected | debtRegistered | debtResolved | judgmentCaseEnriched
  | judgmentRegressionEvaluated | capabilityBaselineIngested | capabilityStatusAdvanced
  | snapshotCreated | snapshotSuperseded | runStarted | runDigestPublished | runFailed
  | crossRunConsolidationCommitted | archiveSegmentMoved | digestSuperseded
  | retentionPolicyChanged | capsuleCompiled | capsuleInjectionFailed | capsuleAssemblyFailed
  | transactionEnvelopeSubmitted | nodeTouched | commitAccepted | commitRejected | driftDetected
  | ownerGuardViolation | guardAdminBypassGranted | guardAdminBypassRevoked
  | ownerConfirmationGranted | irreversibleActionBlocked | findingCreated | findingVerified
  | findingDisputed | findingResolved | findingAccepted | findingClosureContractAmended
  | reviewPlanCreated | reviewDimensionExercised | detectionRuleProposed | detectionRuleShadowing
  | detectionRulePromoted | detectionRuleRetired | obligationCaptured | obligationActivated
  | obligationChecked | obligationViolated | obligationEvolved | obligationRetired
  | validationScenarioRun | migrationRunStarted | migrationStepRecorded | migrationBatchSubmitted
  | migrationRunCompleted
deriving DecidableEq, Repr

def EventType.value : EventType → String
  | .conceptCreated => "ConceptCreated"
  | .conceptEdgeAdded => "ConceptEdgeAdded"
  | .conceptEdgeRemoved => "ConceptEdgeRemoved"
  | .conceptStateTransition => "ConceptStateTransition"
  | .conceptGraphProposal => "ConceptGraphProposal"
  | .taskNodeCreated => "TaskNodeCreated"
  | .taskDependencyEdgeAdded => "TaskDependencyEdgeAdded"
  | .taskDependencyEdgeRemoved => "TaskDependencyEdgeRemoved"
  | .taskNodeClosed => "TaskNodeClosed"
  | .taskNodeOwnerGateCleared => "TaskNodeOwnerGateCleared"
  | .taskReadSetClaimed => "TaskReadSetClaimed"
  | .taskWriteSetClaimed => "TaskWriteSetClaimed"
  | .taskModelTierAssigned => "TaskModelTierAssigned"
  | .taskPackagePublished => "TaskPackagePublished"
  | .taskRunCompleted => "TaskRunCompleted"
  | .informationNeedCreated => "InformationNeedCreated"
  | .informationNeedStatusChanged => "InformationNeedStatusChanged"
  | .atReferenceAdded => "AtReferenceAdded"
  | .atReferenceRemoved => "AtReferenceRemoved"
  | .atReferenceAutoUpdated => "AtReferenceAutoUpdated"
  | .atReferenceTargetSuperseded => "AtReferenceTargetSuperseded"
  | .patchProposed => "PatchProposed"
  | .fixProposed => "FixProposed"
  | .fixCompleted => "FixCompleted"
  | .consumerListPublished => "ConsumerListPublished"
  | .engineeringConsensusFreezed => "EngineeringConsensusFreezed"
  | .invalidationCascade => "InvalidationCascade"
  | .daemonRunCompleted => "DaemonRunCompleted"
  | .orchestratorDispatchFailed => "OrchestratorDispatchFailed"
  | .execClaimReaped => "ExecClaimReaped"
  | .reconcileCyclePublished => "ReconcileCyclePublished"
  | .sentinelPassCompleted => "SentinelPassCompleted"
  | .sentinelPassFailed => "SentinelPassFailed"
  | .projectInitialized => "ProjectInitialized"
  | .obligationRetireCandidate => "ObligationRetireCandidate"
  | .historicalPatternSurfaceCandidate => "HistoricalPatternSurfaceCandidate"
  | .escalationTriaged => "EscalationTriaged"
  | .escalationResolved => "EscalationResolved"
  | .escalationRaised => "EscalationRaised"
  | .lockReleased => "LockReleased"
  | .sessionSpawned => "SessionSpawned"
  | .lockAcquired => "LockAcquired"
  | .goalSessionStarted => "GoalSessionStarted"
  | .goalSessionTerminated => "GoalSessionTerminated"
  | .goalEscalationRaised => "GoalEscalationRaised"
  | .escalationAnswerApplied => "EscalationAnswerApplied"
  | .interviewBriefPublished => "InterviewBriefPublished"
  | .interviewSessionStarted => "InterviewSessionStarted"
  | .engineeringConsensusSessionStarted => "EngineeringConsensusSessionStarted"
  | .plannerSessionStarted => "PlannerSessionStarted"
  | .subSkillInvocationSkipped => "SubSkillInvocationSkipped"
  | .planFreezed => "PlanFreezed"
  | .planningUncertainty => "PlanningUncertainty"
  | .planSessionLockReaped => "PlanSessionLockReaped"
  | .conceptStateMachineDefined => "ConceptStateMachineDefined"
  | .mismatchDetected => "MismatchDetected"
  | .mismatchResolutionDecided => "MismatchResolutionDecided"
  | .advisorConsultRequested => "AdvisorConsultRequested"
  | .advisorVerdictDelivered => "AdvisorVerdictDelivered"
  | .rePlanTriggered => "RePlanTriggered"
  | .natureJudgmentCaptured => "NatureJudgmentCaptured"
  | .semanticUpgradeDeclaration => "SemanticUpgradeDeclaration"
  | .resolverDecisionMade => "ResolverDecisionMade"
  | .obligationScopeJudged => "ObligationScopeJudged"
  | .riskSurfaceAssigned => "RiskSurfaceAssigned"
  | .impactAssessmentMade => "ImpactAssessmentMade"
  | .consistencyJudgmentMade => "ConsistencyJudgmentMade"
  | .criticalPathIdentified => "CriticalPathIdentified"
  | .auditTriggered => "AuditTriggered"
  | .auditVerdictReceived => "AuditVerdictReceived"
  | .escalationDecisionMade => "EscalationDecisionMade"
  | .escalationLearningCaptured => "EscalationLearningCaptured"
  | .semanticConflictDetected => "SemanticConflictDetected"
  | .debtRegistered => "DebtRegistered"
  | .debtResolved => "DebtResolved"
  | .judgmentCaseEnriched => "JudgmentCaseEnriched"
  | .judgmentRegressionEvaluated => "JudgmentRegressionEvaluated"
  | .capabilityBaselineIngested => "CapabilityBaselineIngested"
  | .capabilityStatusAdvanced => "CapabilityStatusAdvanced"
  | .snapshotCreated => "SnapshotCreated"
  | .snapshotSuperseded => "SnapshotSuperseded"
  | .runStarted => "RunStarted"
  | .runDigestPublished => "RunDigestPublished"
  | .runFailed => "RunFailed"
  | .crossRunConsolidationCommitted => "CrossRunConsolidationCommitted"
  | .archiveSegmentMoved => "ArchiveSegmentMoved"
  | .digestSuperseded => "DigestSuperseded"
  | .retentionPolicyChanged => "RetentionPolicyChanged"
  | .capsuleCompiled => "CapsuleCompiled"
  | .capsuleInjectionFailed => "CapsuleInjectionFailed"
  | .capsuleAssemblyFailed => "CapsuleAssemblyFailed"
  | .transactionEnvelopeSubmitted => "TransactionEnvelopeSubmitted"
  | .nodeTouched => "NodeTouched"
  | .commitAccepted => "CommitAccepted"
  | .commitRejected => "CommitRejected"
  | .driftDetected => "DriftDetected"
  | .ownerGuardViolation => "OwnerGuardViolation"
  | .guardAdminBypassGranted => "GuardAdminBypassGranted"
  | .guardAdminBypassRevoked => "GuardAdminBypassRevoked"
  | .ownerConfirmationGranted => "OwnerConfirmationGranted"
  | .irreversibleActionBlocked => "IrreversibleActionBlocked"
  | .findingCreated => "FindingCreated"
  | .findingVerified => "FindingVerified"
  | .findingDisputed => "FindingDisputed"
  | .findingResolved => "FindingResolved"
  | .findingAccepted => "FindingAccepted"
  | .findingClosureContractAmended => "FindingClosureContractAmended"
  | .reviewPlanCreated => "ReviewPlanCreated"
  | .reviewDimensionExercised => "ReviewDimensionExercised"
  | .detectionRuleProposed => "DetectionRuleProposed"
  | .detectionRuleShadowing => "DetectionRuleShadowing"
  | .detectionRulePromoted => "DetectionRulePromoted"
  | .detectionRuleRetired => "DetectionRuleRetired"
  | .obligationCaptured => "ObligationCaptured"
  | .obligationActivated => "ObligationActivated"
  | .obligationChecked => "ObligationChecked"
  | .obligationViolated => "ObligationViolated"
  | .obligationEvolved => "ObligationEvolved"
  | .obligationRetired => "ObligationRetired"
  | .validationScenarioRun => "ValidationScenarioRun"
  | .migrationRunStarted => "MigrationRunStarted"
  | .migrationStepRecorded => "MigrationStepRecorded"
  | .migrationBatchSubmitted => "MigrationBatchSubmitted"
  | .migrationRunCompleted => "MigrationRunCompleted"

instance : StrEnum EventType where
  members := (List.range 124).map EventType.ofNat
  value := EventType.value

inductive SubjectEntityType where
  | concept | conceptEdge | task | taskEdge | obligation | file | finding | reviewPlan | patch
  | rule | snapshot | capsule | atReference | informationNeed | mismatch | advisorConsult
deriving DecidableEq, Repr

def SubjectEntityType.value : SubjectEntityType → String
  | .concept => "concept"
  | .conceptEdge => "concept_edge"
  | .task => "task"
  | .taskEdge => "task_edge"
  | .obligation => "obligation"
  | .file => "file"
  | .finding => "finding"
  | .reviewPlan => "review_plan"
  | .patch => "patch"
  | .rule => "rule"
  | .snapshot => "snapshot"
  | .capsule => "capsule"
  | .atReference => "at_reference"
  | .informationNeed => "information_need"
  | .mismatch => "mismatch"
  | .advisorConsult => "advisor_consult"

instance : StrEnum SubjectEntityType where
  members :=
    [.concept, .conceptEdge, .task, .taskEdge, .obligation, .file, .finding, .reviewPlan,
      .patch, .rule, .snapshot, .capsule, .atReference, .informationNeed, .mismatch,
      .advisorConsult]
  value := SubjectEntityType.value

inductive SubjectRole where
  | primary | affected | evidence | parent | child | superseded | related
deriving DecidableEq, Repr

def SubjectRole.value : SubjectRole → String
  | .primary => "primary"
  | .affected => "affected"
  | .evidence => "evidence"
  | .parent => "parent"
  | .child => "child"
  | .superseded => "superseded"
  | .related => "related"

instance : StrEnum SubjectRole where
  members :=
    [.primary, .affected, .evidence, .parent, .child, .superseded, .related]
  value := SubjectRole.value

end Flowness.Schemas
