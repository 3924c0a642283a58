import Flowness.Release.Passing

/-!
The order in which the reports are given does not reach the decision: neither the engine's verdict
nor, for a candidate that passes, anything that the owner signs.
-/

namespace Flowness.Release

open List Library

variable {candidate : Candidate} {policy : Policy} {reports others : List Report}

theorem firstPassChecks_perm (hperm : reports.Perm others) (checkId : String) :
    (firstPassChecks reports checkId).Perm (firstPassChecks others checkId) :=
  (hperm.filter _).flatMap_right _

theorem agentsOf_perm (hperm : entries.Perm entries') :
    (agentsOf entries).length = (agentsOf entries').length :=
  ((hperm.map Entry.agent).dedup).length_eq

theorem roleAgents_perm (hperm : entries.Perm entries') (roleId : String) :
    (roleAgents entries roleId).length = (roleAgents entries' roleId).length :=
  agentsOf_perm (hperm.filter _)

theorem Passable.perm (h : Passable policy required entries) (hperm : entries.Perm entries') :
    Passable policy required entries' where
  judges := by
    rw [← agentsOf_perm hperm]
    exact h.judges
  roles demand hdemand := by
    rw [← roleAgents_perm hperm]
    exact h.roles demand hdemand
  unanimous := by
    simpa only [Unanimous, hperm.mem_iff] using h.unanimous

theorem CheckPassed.perm (h : CheckPassed policy reports gateId required)
    (hperm : reports.Perm others) : CheckPassed policy others gateId required where
  policyValid := h.policyValid
  authorized entry hentry :=
    h.authorized entry ((firstPassChecks_perm hperm required.checkId).mem_iff.mpr hentry)
  passable := h.passable.perm (firstPassChecks_perm hperm required.checkId)

theorem GatePassed.perm (h : GatePassed policy reports gateId) (hperm : reports.Perm others) :
    GatePassed policy others gateId := by
  obtain ⟨gate, hgate, hpassed⟩ := h
  exact ⟨gate, hgate, fun required hrequired => (hpassed required hrequired).perm hperm⟩

theorem Passing.perm (h : Passing candidate policy reports) (hperm : reports.Perm others) :
    Passing candidate policy others where
  unblocked := h.unblocked
  clean := h.clean.perm hperm
  settled := h.settled.perm h.clean.ids hperm
  gates gateId hgate := (h.gates gateId hgate).perm hperm

theorem engineVerdict_perm (hperm : reports.Perm others) :
    engineVerdict candidate policy reports = engineVerdict candidate policy others := by
  have hiff : engineVerdict candidate policy reports = .pass ↔
      engineVerdict candidate policy others = .pass := by
    rw [engineVerdict_eq_pass_iff, engineVerdict_eq_pass_iff]
    exact ⟨fun h => h.perm hperm, fun h => h.perm hperm.symm⟩
  cases hreports : engineVerdict candidate policy reports <;>
    cases hothers : engineVerdict candidate policy others <;> simp_all

theorem Unanimous.states_perm (h : Unanimous required entries) (hperm : entries.Perm entries') :
    states entries = states entries' := by
  have hconstant : ∃ verdict, ∀ entry ∈ entries, entry.2.verdict = verdict := by
    rcases h with hpass | ⟨-, hna⟩
    · exact ⟨.pass, hpass⟩
    · exact ⟨.na, hna⟩
  obtain ⟨verdict, hverdict⟩ := hconstant
  have hleft := eq_replicate_of_mem (forall_states.mpr hverdict)
  have hright : states entries' = List.replicate (states entries').length verdict := by
    apply eq_replicate_of_mem
    rw [forall_states]
    exact fun entry hentry => hverdict entry (hperm.mem_iff.mpr hentry)
  have hlength : (states entries).length = (states entries').length := (hperm.map _).length_eq
  rw [hleft, hright, hlength]

theorem roleCoverage_perm (hperm : entries.Perm entries') :
    roleCoverage entries = roleCoverage entries' := by
  have hroles : sortedSet (entries.map Entry.role) = sortedSet (entries'.map Entry.role) :=
    sortedSet_congr fun roleId => (hperm.map Entry.role).mem_iff
  rw [roleCoverage, hroles]
  apply map_congr_left
  intro roleId _
  rw [roleAgents_perm hperm]

theorem gateResult_congr {requiredChecks : List RequiredCheck}
    {outcome outcome' : RequiredCheck → CheckOutcome}
    (h : ∀ required ∈ requiredChecks, (outcome required).result = (outcome' required).result ∧
      (outcome required).reasons = (outcome' required).reasons ∧
      (outcome required).entries.Perm (outcome' required).entries) :
    gateResult gateId (requiredChecks.map outcome) =
      gateResult gateId (requiredChecks.map outcome') := by
  have hresults : (requiredChecks.map outcome).filterMap (·.result) =
      (requiredChecks.map outcome').filterMap (·.result) := by
    rw [filterMap_map, filterMap_map]
    exact filterMap_congr fun required hrequired => (h required hrequired).1
  have hreasons : (requiredChecks.map outcome).flatMap (·.reasons) =
      (requiredChecks.map outcome').flatMap (·.reasons) := by
    rw [flatMap_map, flatMap_map]
    exact flatMap_congr fun required hrequired => (h required hrequired).2.1
  have hentries : ((requiredChecks.map outcome).flatMap (·.entries)).Perm
      ((requiredChecks.map outcome').flatMap (·.entries)) := by
    rw [flatMap_map, flatMap_map]
    exact List.Perm.flatMap_left _ fun required hrequired => (h required hrequired).2.2
  rw [gateResult, gateResult, hresults, hreasons, roleCoverage_perm hentries]

theorem evaluateGate_perm (h : GatePassed policy reports gateId) (hperm : reports.Perm others) :
    evaluateGate candidate policy reports gateId = evaluateGate candidate policy others gateId := by
  have hblockers : (evaluateGate candidate policy reports gateId).2 = [] :=
    evaluateGate_blockers_iff.mpr h
  have hblockers' : (evaluateGate candidate policy others gateId).2 = [] :=
    evaluateGate_blockers_iff.mpr (h.perm hperm)
  obtain ⟨gate, hgate, hpassed⟩ := h
  apply Prod.ext
  · simp only [evaluateGate, hgate]
    congr 1
    apply gateResult_congr
    intro required hrequired
    have hcheck := hpassed required hrequired
    rw [hcheck.evaluateCheck_eq, (hcheck.perm hperm).evaluateCheck_eq]
    have hentries := firstPassChecks_perm hperm required.checkId
    exact ⟨by rw [hcheck.passable.unanimous.states_perm hentries], rfl, hentries⟩
  · rw [hblockers, hblockers']

section Decision

variable {env : ReleaseEnv}

theorem max?_perm {values values' : List Int} (hperm : values.Perm values') :
    values.max? = values'.max? := by
  apply Option.ext
  intro value
  rw [List.max?_eq_some_iff, List.max?_eq_some_iff]
  simp only [hperm.mem_iff]

theorem latestTimestamp_perm (hperm : values.Perm values') {value : String}
    (hvalue : value ∈ values) (hinstant : (env.instant value).isSome) (utcNow : String) :
    latestTimestamp env values = latestTimestamp { env with utcNow := utcNow } values' := by
  have hmax := max?_perm (hperm.filterMap env.instant)
  obtain ⟨instant, hinstant⟩ := Option.isSome_iff_exists.mp hinstant
  have hmem : instant ∈ values.filterMap env.instant :=
    mem_filterMap.mpr ⟨value, hvalue, hinstant⟩
  obtain ⟨latest, hlatest⟩ := Option.isSome_iff_exists.mp
    (isSome_max?_of_mem hmem)
  simp only [latestTimestamp, ← hmax, hlatest]

theorem engineResult_perm (hperm : reports.Perm others)
    (hpass : engineVerdict candidate policy reports = .pass)
    (hcreated : (env.instant candidate.createdAt).isSome) (utcNow : String)
    (juryBundle : Option JuryBundle) :
    engineResult candidate policy reports env juryBundle =
      engineResult candidate policy others { env with utcNow := utcNow } juryBundle := by
  have h := engineVerdict_eq_pass_iff.mp hpass
  have hothers := h.perm hperm
  have hgates : gateEvaluations candidate policy reports = gateEvaluations candidate policy others :=
    map_congr_left fun gateId hgate => evaluateGate_perm (h.gates gateId hgate) hperm
  have hblockers : openBlockers candidate policy reports = openBlockers candidate policy others := by
    rw [openBlockers_eq_nil_iff.mpr h, openBlockers_eq_nil_iff.mpr hothers]
  have hne : candidate.createdAt ≠ "" := by
    intro hempty
    rw [hempty, env.instant_empty] at hcreated
    cases hcreated
  have hlatest : latestTimestamp env
      ((candidate.createdAt :: reports.map Report.finishedAt).filter (· ≠ "")) =
      latestTimestamp { env with utcNow := utcNow }
        ((candidate.createdAt :: others.map Report.finishedAt).filter (· ≠ "")) :=
    latestTimestamp_perm (((hperm.map _).cons _).filter _)
      (mem_filter.mpr ⟨mem_cons_self, decide_eq_true hne⟩) hcreated utcNow
  simp only [engineResult, validReports_of_clean h.clean, validReports_of_clean hothers.clean,
    hgates, hblockers, hlatest, engineVerdict_perm hperm]

theorem engineResult_engineVerdict :
    (engineResult candidate policy reports env juryBundle).engineVerdict =
      engineVerdict candidate policy reports := by
  rw [engineResult]

theorem evaluateRelease_engineResult
    (h : evaluateRelease candidate policy reports env ownerApproval policyHash juryBundle =
      .ok result) :
    result.engineResult = engineResult candidate policy reports env juryBundle := by
  simp only [evaluateRelease, bind_ok] at h
  obtain ⟨ownerDecision, -, done, -, hresult⟩ := h
  cases hresult
  rfl

/-- Reports given in another order, and evaluated at another time, bring the same verdict. Where it
is a pass they bring the same decision under the same hash, so that an owner's approval of the one
is an approval of the other. -/
theorem verdict_ignores_report_order (env : ReleaseEnv) (candidate : Candidate) (policy : Policy)
    (juryBundle : Option JuryBundle) (reports others : List Report) (utcNow : String)
    (hcreated : (env.instant candidate.createdAt).isSome) (hperm : reports.Perm others) :
    engineVerdict candidate policy reports = engineVerdict candidate policy others ∧
    (∀ ownerApproval policyHash result result',
      evaluateRelease candidate policy reports env ownerApproval policyHash juryBundle =
          .ok result →
        evaluateRelease candidate policy others { env with utcNow := utcNow } ownerApproval
            policyHash juryBundle = .ok result' →
          result.engineResult.engineVerdict = result'.engineResult.engineVerdict) ∧
    (engineVerdict candidate policy reports = .pass →
      decisionHash candidate policy reports env juryBundle =
          decisionHash candidate policy others { env with utcNow := utcNow } juryBundle ∧
        ∀ ownerApproval policyHash,
          evaluateRelease candidate policy reports env ownerApproval policyHash juryBundle =
            evaluateRelease candidate policy others { env with utcNow := utcNow } ownerApproval
              policyHash juryBundle) := by
  refine ⟨engineVerdict_perm hperm, ?_, ?_⟩
  · intro ownerApproval policyHash result result' hresult hresult'
    rw [evaluateRelease_engineResult hresult, evaluateRelease_engineResult hresult',
      engineResult_engineVerdict, engineResult_engineVerdict]
    exact engineVerdict_perm hperm
  · intro hpass
    have hsame := engineResult_perm hperm hpass hcreated utcNow juryBundle
    constructor
    · rw [decisionHash, decisionHash, ← hsame]
    · intro ownerApproval policyHash
      simp only [evaluateRelease, ← hsame]
      rfl

def sampleEnv : ReleaseEnv :=
  { instant := fun text => if text = "" then none else some text.length
    instant_empty := rfl
    isoformat := toString
    utcNow := "2026-02-01T00:00:00+00:00"
    hashResult := fun result => result.computedAt
    hashCandidate := Candidate.candidateId
    hashPolicy := fun policy => policy.policyVersion.getD ""
    approvalShape := fun _ => .ok ()
    approvalKey := fun _ => .ok () }

theorem sampleReports_reversed :
    engineVerdict sampleCandidate samplePolicy sampleReports =
        engineVerdict sampleCandidate samplePolicy sampleReports.reverse ∧
      decisionHash sampleCandidate samplePolicy sampleReports sampleEnv none =
        decisionHash sampleCandidate samplePolicy sampleReports.reverse
          { sampleEnv with utcNow := "" } none := by
  have hcreated : (sampleEnv.instant sampleCandidate.createdAt).isSome := by decide
  have h := verdict_ignores_report_order sampleEnv sampleCandidate samplePolicy none sampleReports
    sampleReports.reverse "" hcreated sampleReports.reverse_perm.symm
  have hpass : engineVerdict sampleCandidate samplePolicy sampleReports = .pass := by
    decide +kernel
  exact ⟨h.1, (h.2.2 hpass).1⟩

end Decision

end Flowness.Release
