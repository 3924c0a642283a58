import Flowness.Release.Maturity

/-!
The reports of the jury as the evaluation takes them in: which of them are valid, which are kept
of several under one id or by one agent, and what the adjudications among them dispute.
-/

namespace Flowness.Release

open Library

section Checks

variable (candidate : Candidate) (check : Check)

/-- `_check_has_trusted_evidence`. -/
def trustedEvidence : Prop :=
  check.evidenceIds ≠ [] ∧ ∀ evidenceId ∈ check.evidenceIds,
    ∃ row ∈ Dict.get candidate.evidenceIndex.1 evidenceId,
      row.snapshotId = candidate.snapshot.snapshotId

instance : Decidable (trustedEvidence candidate check) := inferInstanceAs (Decidable (_ ∧ _))

def trustedFail : Prop :=
  check.verdict = .fail ∧ check.blockerId.getD "" ≠ "" ∧ trustedEvidence candidate check ∧
    check.observed ≠ "" ∧ check.reproduction.isSome ∧ check.retestCondition ≠ ""

instance : Decidable (trustedFail candidate check) := inferInstanceAs (Decidable (_ ∧ _))

def criticalUnknown : Prop := check.verdict = .unknown ∧ check.critical

instance : Decidable (criticalUnknown check) := inferInstanceAs (Decidable (_ ∧ _))

def blockingCheck : Prop := check.verdict = .fail ∨ criticalUnknown check

instance : Decidable (blockingCheck check) := inferInstanceAs (Decidable (_ ∨ _))

end Checks

def Attestations.hold (attestations : Attestations) : Bool :=
  attestations.blindFirstPass ∧ attestations.noSharedVerdicts ∧ attestations.notCandidateAuthor

/-- What a report of a phase asks of its role, and of its attestations. -/
def Report.phaseAllows (report : Report) (role : Role) : Prop :=
  match report.phase with
  | .adjudication => role.kind = .adjudicator ∧ report.adjudication.isSome
  | .firstPass => role.kind = .judge ∧ report.judge.attestations.hold
  | .retest => role.kind = .judge

instance (report : Report) (role : Role) : Decidable (report.phaseAllows role) := by
  unfold Report.phaseAllows
  split <;> infer_instance

/-- An adjudicator answers for every dimension and check of its gates. -/
def Role.answers (role : Role) (phase : Phase) (check : Check) : Prop :=
  check.gateId ∈ role.gates ∧
    (phase = .adjudication ∨ (check.dimension ∈ role.dimensions ∧ check.checkId ∈ role.checks))

instance (role : Role) (phase : Phase) (check : Check) : Decidable (role.answers phase check) :=
  inferInstanceAs (Decidable (_ ∧ _))

/-- `_report_is_structurally_valid`. -/
def structurallyValid (candidate : Candidate) (policy : Policy) (report : Report) : Prop :=
  ∃ role ∈ Dict.get policy.roleIndex.1 report.judge.roleId,
    report.reportId ≠ "" ∧ report.candidateId = candidate.candidateId ∧
    report.snapshotId = candidate.snapshot.snapshotId ∧
    report.policyVersion = policy.policyVersion ∧ report.judge.agentInstanceId ≠ "" ∧
    report.judge.organization = .independent ∧ report.judge.conflicts = [] ∧
    (∀ check ∈ report.checks, check.checkId ≠ "") ∧ (report.checks.map Check.checkId).Nodup ∧
    report.phaseAllows role ∧ ∀ check ∈ report.checks, role.answers report.phase check

instance (candidate : Candidate) (policy : Policy) (report : Report) :
    Decidable (structurallyValid candidate policy report) :=
  inferInstanceAs (Decidable (∃ role ∈ _, _ ∧ _))

structure Intake where
  validReports : List Report := []
  seenReportIds : List String := []
  firstPassAgents : Dict String String := []
  firstPassRoleAgents : List (String × String) := []
  blockers : List String := []

/-- The agent has reported before, in this role or another. -/
def Intake.dependent (intake : Intake) (report : Report) : Prop :=
  (report.judge.roleId, report.judge.agentInstanceId) ∈ intake.firstPassRoleAgents ∨
    ∃ roleId ∈ Dict.get intake.firstPassAgents report.judge.agentInstanceId,
      roleId ≠ report.judge.roleId

instance (intake : Intake) (report : Report) : Decidable (intake.dependent report) :=
  inferInstanceAs (Decidable (_ ∨ _))

def Intake.takeIn (candidate : Candidate) (policy : Policy) (intake : Intake) (report : Report) :
    Intake :=
  if report.reportId ∈ intake.seenReportIds ∨ ¬ structurallyValid candidate policy report then
    let reportId := if report.reportId = "" then "unknown" else report.reportId
    { intake with blockers := intake.blockers ++ [systemBlocker ("INVALID-REPORT-" ++ reportId)] }
  else
    let intake := { intake with seenReportIds := intake.seenReportIds ++ [report.reportId] }
    if report.phase ≠ .firstPass then
      { intake with validReports := intake.validReports ++ [report] }
    else if intake.dependent report then
      { intake with
        blockers :=
          intake.blockers ++ [systemBlocker ("NONINDEPENDENT-JUDGE-" ++ report.judge.roleId)] }
    else
      { intake with
        validReports := intake.validReports ++ [report]
        firstPassAgents :=
          Dict.set intake.firstPassAgents report.judge.agentInstanceId report.judge.roleId
        firstPassRoleAgents :=
          intake.firstPassRoleAgents ++ [(report.judge.roleId, report.judge.agentInstanceId)] }

def intakeOf (candidate : Candidate) (policy : Policy) (reports : List Report) : Intake :=
  reports.foldl (Intake.takeIn candidate policy) {}

section Lifecycle

variable (reports : List Report)

def reportById (reportId : String) : Option Report :=
  reports.reverse.find? (·.reportId = reportId)

def judgeAgents : List String :=
  (reports.filter (·.phase ≠ .adjudication)).map (·.judge.agentInstanceId)

def disputedReport (reportId : String) : Option Report :=
  (reportById reports reportId).filter (·.phase = .firstPass)

def disputedChecks (report : Report) : List (String × String) :=
  (report.checks.filter (blockingCheck ·)).map fun check => (report.reportId, check.checkId)

def admissible (adjudicator : Report) : Option (Resolution × List (String × String)) :=
  adjudicator.adjudication.bind fun adjudication =>
    if adjudicator.judge.agentInstanceId ∈ judgeAgents reports ∨
        adjudication.disputedReportIds = [] then none
    else
      (adjudication.disputedReportIds.mapM (disputedReport reports)).bind fun disputed =>
        let originals := disputed.flatMap disputedChecks
        if originals = [] then none else some (adjudication.resolution, originals)

structure Lifecycle where
  decisions : Dict (String × String) Resolution := []
  blockers : List String := []

def Lifecycle.decide (reportId : String) (resolution : Resolution) (lifecycle : Lifecycle)
    (original : String × String) : Lifecycle :=
  match Dict.get lifecycle.decisions original with
  | none => { lifecycle with decisions := Dict.set lifecycle.decisions original resolution }
  | some prior =>
    let suffix :=
      if prior ≠ resolution then "CONFLICTING-ADJUDICATION" else "DUPLICATE-ADJUDICATION"
    { lifecycle with
      blockers := lifecycle.blockers ++ [systemBlocker (suffix ++ "-" ++ reportId)] }

/-- A retest of the same candidate clears nothing: such an adjudication is refused before it
decides on a check. -/
def Lifecycle.adjudicate (lifecycle : Lifecycle) (adjudicator : Report) : Lifecycle :=
  let refused (reason : String) : Lifecycle :=
    { lifecycle with
      blockers := lifecycle.blockers ++ [systemBlocker (reason ++ "-" ++ adjudicator.reportId)] }
  match admissible reports adjudicator with
  | none => refused "INVALID-ADJUDICATION"
  | some (.clearAfterRetest, _) => refused "SAME-CANDIDATE-RETEST-FORBIDDEN"
  | some (.upholdFail, originals) =>
    originals.foldl (Lifecycle.decide adjudicator.reportId .upholdFail) lifecycle

def adjudications : List Report := reports.filter (·.phase = .adjudication)

/-- `_validate_lifecycle`: its blockers. The table of cleared checks it returns is always empty. -/
def lifecycleOf : Lifecycle :=
  (adjudications reports).foldl (Lifecycle.adjudicate reports) {}

end Lifecycle

end Flowness.Release
