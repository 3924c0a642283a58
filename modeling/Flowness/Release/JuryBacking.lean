import Flowness.Release.Passing

/-!
What stands behind a passed candidate: the judges of every required check, their roles and verdicts,
and what the other reports say of it.
-/

namespace Flowness.Release

open Library

variable {candidate : Candidate} {policy : Policy} {reports : List Report}

/-- The report blocks the check, with a credible fail or a critical unknown. -/
def Objects (candidate : Candidate) (report : Report) (checkId : String) : Prop :=
  ∃ check ∈ report.checks, check.checkId = checkId ∧
    (trustedFail candidate check ∨ criticalUnknown check)

def countedEntries (candidate : Candidate) (policy : Policy) (reports : List Report)
    (gateId : String) (required : RequiredCheck) : List Entry :=
  (firstPassChecks (intakeOf candidate policy reports).validReports required.checkId).filter
    (counted gateId required ·)

structure CheckBacked (candidate : Candidate) (policy : Policy) (reports : List Report)
    (gateId : String) (required : RequiredCheck) : Prop where
  judges : max 2 policy.judgesPerCheck ≤
    (agentsOf (countedEntries candidate policy reports gateId required)).length
  twoRoles : (roleRequirements required.requiredRoles).length = 2
  roles : ∀ demand ∈ roleRequirements required.requiredRoles,
    demand.2 ≤ (roleAgents (countedEntries candidate policy reports gateId required) demand.1).length
  unanimous : Unanimous required (countedEntries candidate policy reports gateId required)
  unopposed : ∀ report ∈ reports, structurallyValid candidate policy report →
    ¬ Objects candidate report required.checkId

/-- A required check of a mandatory gate of the candidate's stage. -/
def RequiredAt (candidate : Candidate) (policy : Policy) (gateId : String)
    (required : RequiredCheck) : Prop :=
  gateId ∈ (profileOf candidate policy).mandatoryGates ∧
    ∃ gate, Dict.get policy.gateIndex.1 gateId = some gate ∧ required ∈ gate.requiredChecks

/-- The jury stands behind the candidate: behind every mandatory check, and no judge in two roles. -/
structure Backed (candidate : Candidate) (policy : Policy) (reports : List Report) : Prop where
  gates : ∀ gateId ∈ (profileOf candidate policy).mandatoryGates,
    (Dict.get policy.gateIndex.1 gateId).isSome
  checks : ∀ gateId required, RequiredAt candidate policy gateId required →
    CheckBacked candidate policy reports gateId required
  oneRole : ∀ report ∈ firstPassReports reports, ∀ other ∈ firstPassReports reports,
    report.judge.agentInstanceId = other.judge.agentInstanceId →
      report.judge.roleId = other.judge.roleId

/-- No retest and no adjudication objects to a mandatory check. -/
def LaterUnopposed (candidate : Candidate) (policy : Policy) (reports : List Report) : Prop :=
  ∀ report ∈ reports, report.phase ≠ .firstPass → structurallyValid candidate policy report →
    ∀ gateId required, RequiredAt candidate policy gateId required →
      ¬ Objects candidate report required.checkId

section

variable (h : Passing candidate policy reports) {gateId : String} {required : RequiredCheck}
    (hrequired : RequiredAt candidate policy gateId required)
include h hrequired

theorem Passing.checkPassed : CheckPassed policy reports gateId required := by
  obtain ⟨hgateId, gate, hgate, hmem⟩ := hrequired
  obtain ⟨gate', hgate', hpassed⟩ := h.gates gateId hgateId
  cases hgate.symm.trans hgate'
  exact hpassed required hmem

theorem Passing.countedEntries_eq : countedEntries candidate policy reports gateId required =
      firstPassChecks reports required.checkId := by
  rw [countedEntries, validReports_of_clean h.clean]
  exact (h.checkPassed hrequired).entries

end

theorem CheckPassed.not_objects {gateId : String} {required : RequiredCheck}
    (h : CheckPassed policy reports gateId required) {report : Report} (hreport : report ∈ reports)
    (hphase : report.phase = .firstPass) : ¬ Objects candidate report required.checkId := by
  rintro ⟨check, hcheck, hid, hobjects⟩
  have hentry : (report, check) ∈ firstPassChecks reports required.checkId := by
    rw [firstPassChecks, List.mem_flatMap]
    refine ⟨report, List.mem_filter.mpr ⟨hreport, decide_eq_true hphase⟩, ?_⟩
    exact List.mem_map_of_mem (List.mem_filter.mpr ⟨hcheck, decide_eq_true hid⟩)
  rcases hobjects with hfail | hunknown
  · exact h.passable.unanimous.ne_fail hentry hfail.1
  · exact h.passable.unanimous.ne_unknown hentry hunknown.1

theorem Passing.oneRole (h : Passing candidate policy reports) :
    ∀ report ∈ firstPassReports reports, ∀ other ∈ firstPassReports reports,
      report.judge.agentInstanceId = other.judge.agentInstanceId →
        report.judge.roleId = other.judge.roleId := by
  intro report hreport other hother hagent
  rw [List.inj_on_of_nodup_map h.clean.agents hreport hother hagent]

/-- Where the engine passes, the jury stands behind the candidate exactly if no retest and no
adjudication objects to a mandatory check: the vote never sees what these report. -/
theorem backed_iff_laterUnopposed (candidate : Candidate) (policy : Policy) (reports : List Report)
    (hpass : engineVerdict candidate policy reports = .pass) :
    Backed candidate policy reports ↔ LaterUnopposed candidate policy reports := by
  have h := engineVerdict_eq_pass_iff.mp hpass
  constructor
  · intro hbacked report hreport _ hvalid gateId required hrequired
    exact (hbacked.checks gateId required hrequired).unopposed report hreport hvalid
  · intro hlater
    refine ⟨fun gateId hgateId => ?_, fun gateId required hrequired => ?_, h.oneRole⟩
    · obtain ⟨gate, hgate, -⟩ := h.gates gateId hgateId
      exact Option.isSome_of_mem hgate
    · have hcheck := h.checkPassed hrequired
      have hentries := h.countedEntries_eq hrequired
      constructor
      · rw [hentries]
        exact hcheck.passable.judges
      · exact hcheck.policyValid.2.2.1
      · rw [hentries]
        exact hcheck.passable.roles
      · rw [hentries]
        exact hcheck.passable.unanimous
      · intro report hreport hvalid
        by_cases hphase : report.phase = .firstPass
        · exact hcheck.not_objects hreport hphase
        · exact hlater report hreport hphase hvalid gateId required hrequired

theorem sampleReports_backed : Backed sampleCandidate samplePolicy sampleReports := by
  have hpass : engineVerdict sampleCandidate samplePolicy sampleReports = .pass := by
    decide +kernel
  refine (backed_iff_laterUnopposed _ _ _ hpass).mpr fun report hreport hphase => ?_
  have hfirst : ∀ report ∈ sampleReports, report.phase = .firstPass := by decide
  exact absurd (hfirst report hreport) hphase

def sampleRetest : Report := sampleReport "r3" .retest "judge.a" "agent.3" .fail

theorem failed_retest_passes :
    engineVerdict sampleCandidate samplePolicy (sampleReports ++ [sampleRetest]) = .pass ∧
      ¬ Backed sampleCandidate samplePolicy (sampleReports ++ [sampleRetest]) := by
  refine ⟨by decide +kernel, fun hbacked => ?_⟩
  have hrequired : ∃ required, RequiredAt sampleCandidate samplePolicy "G0" required ∧
      required.checkId = "G0.secrets" := by
    refine ⟨_, ⟨by decide +kernel, _, rfl, List.mem_cons_self⟩, rfl⟩
  obtain ⟨required, hrequired, hid⟩ := hrequired
  have hvalid : structurallyValid sampleCandidate samplePolicy sampleRetest := by decide +kernel
  apply (hbacked.checks "G0" required hrequired).unopposed sampleRetest (by simp) hvalid
  rw [hid]
  exact ⟨_, List.mem_cons_self, rfl, Or.inl (by decide +kernel)⟩

end Flowness.Release
