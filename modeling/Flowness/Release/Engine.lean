import Mathlib.Data.String.Basic
import Flowness.Library.Checked
import Flowness.Library.SortedSet
import Flowness.Release.Jury

/-!
The evaluation of a release: every required check of every mandatory gate is decided from the counted
verdicts of the first pass, and the engine passes a candidate that nothing blocks.
-/

namespace Flowness.Release

open Library

def RoleDemand.roleId : RoleDemand → String
  | .role roleId => roleId
  | .counted roleId _ => roleId

def RoleDemand.minCount : RoleDemand → Int
  | .role _ => 1
  | .counted _ minCount => minCount

def addRoleDemand (requirements : Dict String Int) (item : RoleDemand) :
    Option (Dict String Int) :=
  if item.roleId = "" ∨ item.minCount < 1 ∨ Dict.contains requirements item.roleId then none
  else some (Dict.set requirements item.roleId item.minCount)

/-- `_role_requirements`: one bad item leaves no requirement at all. -/
def roleRequirements (value : List RoleDemand) : Dict String Int :=
  (value.foldlM addRoleDemand []).getD []

def roleAuthorized (policy : Policy) (gateId : String) (required : RequiredCheck)
    (roleId : String) : Prop :=
  ∃ role ∈ Dict.get policy.roleIndex.1 roleId,
    role.kind = .judge ∧ required.dimension ∈ role.dimensions ∧ gateId ∈ role.gates ∧
      required.checkId ∈ role.checks

instance (policy : Policy) (gateId : String) (required : RequiredCheck) (roleId : String) :
    Decidable (roleAuthorized policy gateId required roleId) :=
  inferInstanceAs (Decidable (∃ role ∈ _, _ ∧ _))

def policyCheckValid (policy : Policy) (gateId : String) (required : RequiredCheck) : Prop :=
  required.checkId ≠ "" ∧ required.dimension ≠ "" ∧
    (roleRequirements required.requiredRoles).length = 2 ∧
    (∀ roleId ∈ (roleRequirements required.requiredRoles).keys, roleId ∈ required.allowedRoles) ∧
    (∀ roleId ∈ required.allowedRoles, roleId ∈ (roleRequirements required.requiredRoles).keys) ∧
    ∀ roleId ∈ required.allowedRoles, roleAuthorized policy gateId required roleId

instance (policy : Policy) (gateId : String) (required : RequiredCheck) :
    Decidable (policyCheckValid policy gateId required) := inferInstanceAs (Decidable (_ ∧ _))

/-- `judges_per_check`, never below two. -/
def Policy.minJudges (policy : Policy) : Int := max 2 policy.judgesPerCheck

abbrev Entry : Type := Report × Check

def Entry.agent (entry : Entry) : String := entry.1.judge.agentInstanceId

def Entry.role (entry : Entry) : String := entry.1.judge.roleId

def firstPassChecks (reports : List Report) (checkId : String) : List Entry :=
  (reports.filter (·.phase = .firstPass)).flatMap fun report =>
    (report.checks.filter (·.checkId = checkId)).map fun check => (report, check)

def counted (gateId : String) (required : RequiredCheck) (entry : Entry) : Prop :=
  entry.role ∈ required.allowedRoles ∧ entry.2.gateId = gateId ∧
    entry.2.dimension = required.dimension ∧ entry.2.critical = required.critical

instance (gateId : String) (required : RequiredCheck) (entry : Entry) :
    Decidable (counted gateId required entry) := inferInstanceAs (Decidable (_ ∧ _))

def agentsOf (entries : List Entry) : List String := (entries.map Entry.agent).dedup

def roleAgents (entries : List Entry) (roleId : String) : List String :=
  agentsOf (entries.filter (·.role = roleId))

inductive CheckVerdict where
  | fail | blockedMissingEvidence | pending | pass
deriving DecidableEq

def CheckVerdict.value : CheckVerdict → String
  | .fail => "fail"
  | .blockedMissingEvidence => "blocked_missing_evidence"
  | .pending => "pending"
  | .pass => "pass"

structure CheckResult where
  checkId : String
  verdict : CheckVerdict
  judgeStates : List Verdict
deriving DecidableEq

section Checks

variable (candidate : Candidate) (policy : Policy) (required : RequiredCheck) (entries : List Entry)

def states : List Verdict := entries.map (·.2.verdict)

def missingRoles : Prop :=
  ∃ demand ∈ roleRequirements required.requiredRoles,
    ((roleAgents entries demand.1).length : Int) < demand.2

instance : Decidable (missingRoles required entries) := List.decidableBEx _ _

def unknownBlockers : List String :=
  (entries.filter (·.2.verdict = .unknown)).filterMap fun entry =>
    entry.2.blockerId.filter (· ≠ "")

def trustedFailBlockers : List String :=
  (entries.filter (trustedFail candidate ·.2)).map (·.2.blockerId.getD "")

def decideCheck : CheckVerdict × List String :=
  if ∃ entry ∈ entries, trustedFail candidate entry.2 then
    (.fail, trustedFailBlockers candidate entries)
  else if required.critical ∧ .unknown ∈ states entries then
    (.blockedMissingEvidence,
      if unknownBlockers entries = [] then
        [systemBlocker ("MISSING-CRITICAL-UNKNOWN-BLOCKER-" ++ required.checkId)]
      else sortedSet (unknownBlockers entries))
  else if ∃ entry ∈ entries, entry.2.verdict = .fail ∧ ¬ trustedFail candidate entry.2 then
    (.pending, [systemBlocker ("UNTRUSTED-FAIL-" ++ required.checkId)])
  else if ((agentsOf entries).length : Int) < policy.minJudges ∨ missingRoles required entries then
    (.pending, ["JURY-COVERAGE-" ++ required.checkId])
  else if states entries ≠ [] ∧ ∀ state ∈ states entries, state = .pass then
    (.pass, [])
  else if required.allowNa ∧ states entries ≠ [] ∧ ∀ state ∈ states entries, state = .na then
    (.pass, [])
  else (.pending, ["CHECK-" ++ required.checkId])

end Checks

/-- What a required check adds to its gate: a check that the policy does not define as it must has
no result and counts no entry. -/
structure CheckOutcome where
  result : Option CheckResult := none
  entries : List Entry := []
  reasons : List String := []
  blockers : List String := []

section Evaluation

variable (candidate : Candidate) (policy : Policy) (reports : List Report)

def evaluateCheck (gateId : String) (required : RequiredCheck) : CheckOutcome :=
  if policyCheckValid policy gateId required then
    let all := firstPassChecks reports required.checkId
    let entries := all.filter (counted gateId required ·)
    let unauthorized :=
      if entries.length ≠ all.length then
        [systemBlocker ("UNAUTHORIZED-CHECK-" ++ required.checkId)] else []
    let (verdict, blockers) := decideCheck candidate policy required entries
    { result := some
        { checkId := required.checkId
          verdict := verdict
          judgeStates := if states entries = [] then [.unknown] else states entries }
      entries := entries
      reasons := if verdict ≠ .pass then [required.checkId ++ ": " ++ verdict.value] else []
      blockers := unauthorized ++ blockers }
  else
    { reasons := [required.checkId ++ ": invalid policy check"]
      blockers := [systemBlocker ("INVALID-POLICY-CHECK-" ++ required.checkId)] }

structure GateResult where
  gateId : String
  mandatory : Bool := true
  checkResults : List CheckResult
  roleCoverage : List (String × Nat)
  verdict : Outcome
  reasons : List String
deriving DecidableEq

def roleCoverage (entries : List Entry) : List (String × Nat) :=
  (sortedSet (entries.map Entry.role)).map fun roleId => (roleId, (roleAgents entries roleId).length)

def gateResult (gateId : String) (outcomes : List CheckOutcome) : GateResult :=
  { gateId := gateId
    checkResults := outcomes.filterMap (·.result)
    roleCoverage := roleCoverage (outcomes.flatMap (·.entries))
    verdict := if outcomes.flatMap (·.reasons) = [] then .pass else .blocked
    reasons := outcomes.flatMap (·.reasons) }

def evaluateGate (gateId : String) : Option GateResult × List String :=
  match Dict.get policy.gateIndex.1 gateId with
  | none => (none, ["MISSING-GATE-" ++ gateId])
  | some gate =>
    let outcomes := gate.requiredChecks.map (evaluateCheck candidate policy reports gateId)
    (some (gateResult gateId outcomes), outcomes.flatMap (·.blockers))

def Policy.profile (policy : Policy) (stage : String) : Option StageProfile :=
  policy.stageProfiles.lookup stage

def profileOf : StageProfile :=
  (policy.profile candidate.targetStage).getD { moduleRequirements := [], mandatoryGates := [] }

def gateEvaluations (validReports : List Report) : List (Option GateResult × List String) :=
  (profileOf candidate policy).mandatoryGates.map (evaluateGate candidate policy validReports)

def candidateBlockers : List String :=
  (if candidate.snapshot.snapshotId = "" ∨ candidate.snapshot.dirty then
    [systemBlocker "UNSEALED-SNAPSHOT"] else []) ++
  (if policy.policyVersion = none then [systemBlocker "MISSING-POLICY-VERSION"] else []) ++
  candidate.evidenceIndex.2 ++ candidate.moduleIndex.2 ++ candidate.claimIndex.2 ++
  candidate.claimBlockers ++
  (if policy.profile candidate.targetStage = none then [systemBlocker "UNKNOWN-STAGE"] else []) ++
  (moduleResults candidate policy (profileOf candidate policy).moduleRequirements).2 ++
  policy.roleIndex.2 ++ policy.gateIndex.2 ++
  (if policy.judgesPerCheck < 2 then [systemBlocker "INVALID-JUDGES-PER-CHECK"] else [])

def openBlockers : List String :=
  let intake := intakeOf candidate policy reports
  sortedSet (candidateBlockers candidate policy ++ intake.blockers ++
    (lifecycleOf intake.validReports).blockers ++
    (gateEvaluations candidate policy intake.validReports).flatMap (·.2))

def engineVerdict : Outcome :=
  if openBlockers candidate policy reports = [] then .pass else .blocked

structure JuryBundle where
  bundleId : String
  bundleHash : String
deriving DecidableEq

structure EngineResult where
  candidateId : String
  snapshotId : String
  policyVersion : Option String
  targetStage : String
  computedAt : String
  moduleResults : List ModuleResult
  gateResults : List GateResult
  openBlockers : List String
  engineVerdict : Outcome
  juryBundle : Option JuryBundle
deriving DecidableEq

structure OwnerApproval where
  candidateHash : String
  snapshotId : String
  policyHash : String
  decisionHash : String
  decision : String

/-- What the evaluation takes from outside: the instants that texts with a time zone stand for, the
clock's text, the canonical hashes, and the checks of an approval's shape, key and signature. -/
structure ReleaseEnv where
  instant : String → Option Int
  instant_empty : instant "" = none
  isoformat : Int → String
  utcNow : String
  hashResult : EngineResult → String
  hashCandidate : Candidate → String
  hashPolicy : Policy → String
  approvalShape : OwnerApproval → Except String Unit
  approvalKey : OwnerApproval → Except String Unit

section Release

variable (env : ReleaseEnv)

/-- `_latest_timestamp`: values that are no instant are skipped. -/
def latestTimestamp (values : List String) : String :=
  match (values.filterMap env.instant).max? with
  | none => env.utcNow
  | some instant => env.isoformat instant

def engineResult (juryBundle : Option JuryBundle) : EngineResult :=
  let validReports := (intakeOf candidate policy reports).validReports
  { candidateId := candidate.candidateId
    snapshotId := candidate.snapshot.snapshotId
    policyVersion := policy.policyVersion
    targetStage := candidate.targetStage
    computedAt := latestTimestamp env
      ((candidate.createdAt :: validReports.map Report.finishedAt).filter (· ≠ ""))
    moduleResults :=
      (moduleResults candidate policy (profileOf candidate policy).moduleRequirements).1
    gateResults := (gateEvaluations candidate policy validReports).filterMap (·.1)
    openBlockers := openBlockers candidate policy reports
    engineVerdict := engineVerdict candidate policy reports
    juryBundle := juryBundle }

def decisionHash (juryBundle : Option JuryBundle) : String :=
  env.hashResult (engineResult candidate policy reports env juryBundle)

def validateOwnerApproval (approval : OwnerApproval) (policyHash decisionHash : String) :
    Except String String := do
  env.approvalShape approval
  require (approval.candidateHash = env.hashCandidate candidate)
    "owner approval candidate hash mismatch"
  require (approval.snapshotId = candidate.snapshot.snapshotId) "owner approval snapshot mismatch"
  require (approval.policyHash = policyHash) "owner approval policy hash mismatch"
  require (approval.decisionHash = decisionHash) "owner approval decision hash mismatch"
  env.approvalKey approval
  return approval.decision

structure ReleaseResult where
  engineResult : EngineResult
  ownerDecision : Option String
  releaseAuthorized : Bool
  decisionHash : String
deriving DecidableEq

def evaluateRelease (ownerApproval : Option OwnerApproval) (policyHash : Option String)
    (juryBundle : Option JuryBundle) : Except String ReleaseResult := do
  let result := engineResult candidate policy reports env juryBundle
  let hash := env.hashResult result
  let effectivePolicyHash := (policyHash.filter (· ≠ "")).getD (env.hashPolicy policy)
  let ownerDecision ← ownerApproval.mapM
    (validateOwnerApproval candidate env · effectivePolicyHash hash)
  require (result.engineVerdict = .pass ∨ ownerDecision ≠ some "approve")
    "owner approval cannot override release blockers"
  .ok
    { engineResult := result
      ownerDecision := ownerDecision
      releaseAuthorized := result.engineVerdict = .pass ∧ ownerDecision = some "approve"
      decisionHash := hash }

end Release

end Evaluation

end Flowness.Release
