import Flowness.Release.Engine

/-!
What it takes to pass: the reports that are taken in without a blocker, the adjudications that leave
none, and the entries on which a required check is passed.
-/

namespace Flowness.Release

open List Library

variable {others reports : List Report} {report : Report} {gateId : String}

section Intake

variable {candidate : Candidate} {policy : Policy}

def firstPassReports (reports : List Report) : List Report :=
  reports.filter (·.phase = .firstPass)

theorem firstPassReports_snoc (h : report.phase = .firstPass) :
    firstPassReports (reports ++ [report]) = firstPassReports reports ++ [report] := by
  simp [firstPassReports, h]

theorem firstPassReports_snoc_of_ne (h : report.phase ≠ .firstPass) :
    firstPassReports (reports ++ [report]) = firstPassReports reports := by
  simp [firstPassReports, h]

/-- Reports that are taken in one and all: a first pass has an agent for each of its reports. -/
structure Clean (candidate : Candidate) (policy : Policy) (reports : List Report) : Prop where
  valid : ∀ report ∈ reports, structurallyValid candidate policy report
  ids : (reports.map Report.reportId).Nodup
  agents : ((firstPassReports reports).map (·.judge.agentInstanceId)).Nodup

theorem Clean.perm (h : Clean candidate policy reports) (hperm : reports.Perm others) :
    Clean candidate policy others where
  valid report hreport := h.valid report (hperm.mem_iff.mpr hreport)
  ids := (hperm.map _).nodup_iff.mp h.ids
  agents := ((hperm.filter _).map _).nodup_iff.mp h.agents

/-- The intake holds every report, and its two tables of agents agree. -/
structure Taken (intake : Intake) (reports : List Report) : Prop where
  validReports : intake.validReports = reports
  seen : intake.seenReportIds = reports.map Report.reportId
  agents : ∀ agent, Dict.get intake.firstPassAgents agent ≠ none ↔
    agent ∈ (firstPassReports reports).map (·.judge.agentInstanceId)
  roles : ∀ roleId agent, (roleId, agent) ∈ intake.firstPassRoleAgents ↔
    Dict.get intake.firstPassAgents agent = some roleId

variable {intake : Intake}

theorem Taken.dependent_iff (h : Taken intake reports) (report : Report) :
    intake.dependent report ↔ report.judge.agentInstanceId ∈
      (firstPassReports reports).map (·.judge.agentInstanceId) := by
  rw [← h.agents, Intake.dependent, h.roles]
  cases hagent : Dict.get intake.firstPassAgents report.judge.agentInstanceId with
  | none => simp
  | some roleId => simp [em]

structure Accepts (candidate : Candidate) (policy : Policy) (intake : Intake) (report : Report) :
    Prop where
  valid : structurallyValid candidate policy report
  unseen : report.reportId ∉ intake.seenReportIds
  independent : report.phase = .firstPass → ¬ intake.dependent report

theorem takeIn_blockers :
    (intake.takeIn candidate policy report).blockers = [] ↔
      intake.blockers = [] ∧ Accepts candidate policy intake report := by
  unfold Intake.takeIn
  split
  next hinvalid =>
    simp only [append_eq_nil_iff, cons_ne_self, and_false, false_iff, not_and]
    intro _ haccepts
    rcases hinvalid with hseen | hinvalid
    · exact haccepts.unseen hseen
    · exact hinvalid haccepts.valid
  next hvalid =>
    rw [not_or, not_not] at hvalid
    simp only
    split
    next hphase =>
      exact (and_iff_left ⟨hvalid.2, hvalid.1, fun h => absurd h hphase⟩).symm
    next hphase =>
      rw [not_not] at hphase
      split
      next hdependent =>
        simp only [append_eq_nil_iff, cons_ne_self, and_false, false_iff, not_and]
        exact fun _ haccepts => haccepts.independent hphase hdependent
      next hindependent =>
        exact (and_iff_left ⟨hvalid.2, hvalid.1, fun _ => hindependent⟩).symm

theorem Taken.takeIn (h : Taken intake reports) (haccepts : Accepts candidate policy intake report) :
    Taken (intake.takeIn candidate policy report) (reports ++ [report]) := by
  have hvalid : ¬ (report.reportId ∈ intake.seenReportIds ∨
      ¬ structurallyValid candidate policy report) := by
    rw [not_or, not_not]
    exact ⟨haccepts.unseen, haccepts.valid⟩
  unfold Intake.takeIn
  rw [if_neg hvalid]
  by_cases hphase : report.phase = .firstPass
  · have hindependent := haccepts.independent hphase
    have hnone : Dict.get intake.firstPassAgents report.judge.agentInstanceId = none := by
      by_contra hsome
      exact hindependent ((h.dependent_iff report).mpr ((h.agents _).mp hsome))
    rw [if_neg (not_not.mpr hphase)]
    split
    next hdependent =>
      exact absurd hdependent hindependent
    refine ⟨by rw [h.validReports], by rw [h.seen, map_append]; rfl, fun agent => ?_,
      fun roleId agent => ?_⟩
    · rw [firstPassReports_snoc hphase, map_append, mem_append, ← h.agents]
      by_cases hagent : agent = report.judge.agentInstanceId
      · simp [hagent]
      · simp [Dict.get_set_of_ne _ _ hagent, hagent]
    · rw [mem_append, h.roles, mem_singleton, Prod.mk.injEq]
      by_cases hagent : agent = report.judge.agentInstanceId
      · simp [hagent, hnone, eq_comm]
      · simp [Dict.get_set_of_ne _ _ hagent, hagent]
  · rw [if_pos hphase]
    exact ⟨by rw [h.validReports], by rw [h.seen, map_append]; rfl,
      by rw [firstPassReports_snoc_of_ne hphase]; exact h.agents, h.roles⟩

structure Fresh (candidate : Candidate) (policy : Policy) (reports : List Report)
    (report : Report) : Prop where
  valid : structurallyValid candidate policy report
  unseen : report.reportId ∉ reports.map Report.reportId
  independent : report.phase = .firstPass →
    report.judge.agentInstanceId ∉ (firstPassReports reports).map (·.judge.agentInstanceId)

theorem Taken.accepts_iff (h : Taken intake reports) :
    Accepts candidate policy intake report ↔ Fresh candidate policy reports report := by
  constructor
  · intro haccepts
    exact ⟨haccepts.valid, h.seen ▸ haccepts.unseen, fun hphase hmem =>
      haccepts.independent hphase ((h.dependent_iff report).mpr hmem)⟩
  · intro hfresh
    exact ⟨hfresh.valid, h.seen ▸ hfresh.unseen, fun hphase hdependent =>
      hfresh.independent hphase ((h.dependent_iff report).mp hdependent)⟩

theorem nodup_map_snoc {α β : Type} {f : α → β} {values : List α} {value : α} :
    ((values ++ [value]).map f).Nodup ↔ f value ∉ values.map f ∧ (values.map f).Nodup := by
  rw [map_append, map_singleton, ← concat_eq_append, nodup_concat]

theorem clean_snoc :
    Clean candidate policy (reports ++ [report]) ↔
      Clean candidate policy reports ∧ Fresh candidate policy reports report := by
  have hagents : ((firstPassReports (reports ++ [report])).map (·.judge.agentInstanceId)).Nodup ↔
      ((firstPassReports reports).map (·.judge.agentInstanceId)).Nodup ∧
        (report.phase = .firstPass → report.judge.agentInstanceId ∉
          (firstPassReports reports).map (·.judge.agentInstanceId)) := by
    by_cases hphase : report.phase = .firstPass
    · rw [firstPassReports_snoc hphase, nodup_map_snoc, and_comm, forall_prop_of_true hphase]
    · rw [firstPassReports_snoc_of_ne hphase]
      exact (and_iff_left fun h => absurd h hphase).symm
  constructor
  · intro h
    obtain ⟨hunseen, hids⟩ := nodup_map_snoc.mp h.ids
    obtain ⟨hnodup, hindependent⟩ := hagents.mp h.agents
    have hvalid := forall_mem_append.mp h.valid
    exact ⟨⟨hvalid.1, hids, hnodup⟩, ⟨forall_mem_singleton.mp hvalid.2, hunseen, hindependent⟩⟩
  · intro ⟨hclean, hfresh⟩
    exact ⟨forall_mem_append.mpr
        ⟨hclean.valid, forall_mem_singleton.mpr hfresh.valid⟩,
      nodup_map_snoc.mpr ⟨hfresh.unseen, hclean.ids⟩,
      hagents.mpr ⟨hclean.agents, hfresh.independent⟩⟩

theorem intakeOf_snoc (reports : List Report) (report : Report) :
    intakeOf candidate policy (reports ++ [report]) =
      (intakeOf candidate policy reports).takeIn candidate policy report :=
  foldl_concat ..

theorem intakeOf_taken (h : (intakeOf candidate policy reports).blockers = []) :
    Taken (intakeOf candidate policy reports) reports := by
  induction reports using List.reverseRecOn with
  | nil => exact ⟨rfl, rfl, by simp [intakeOf, firstPassReports], by simp [intakeOf]⟩
  | append_singleton reports report ih =>
    rw [intakeOf_snoc] at h ⊢
    obtain ⟨hbefore, haccepts⟩ := takeIn_blockers.mp h
    exact (ih hbefore).takeIn haccepts

theorem intakeOf_blockers_iff :
    (intakeOf candidate policy reports).blockers = [] ↔ Clean candidate policy reports := by
  induction reports using List.reverseRecOn with
  | nil => exact ⟨fun _ => ⟨by simp, nodup_nil, nodup_nil⟩, fun _ => rfl⟩
  | append_singleton reports report ih =>
    rw [intakeOf_snoc, takeIn_blockers, clean_snoc, ih]
    apply and_congr_right
    intro hclean
    exact (intakeOf_taken (ih.mpr hclean)).accepts_iff

end Intake

section Lifecycle

variable {reports : List Report}

def originalsOf (reports : List Report) (adjudicator : Report) : List (String × String) :=
  ((admissible reports adjudicator).map Prod.snd).getD []

/-- Every adjudication upholds a failure, and no check is disputed twice. -/
structure Settled (reports : List Report) : Prop where
  upheld : ∀ adjudicator ∈ adjudications reports, ∃ originals,
    admissible reports adjudicator = some (.upholdFail, originals)
  originals : ((adjudications reports).flatMap (originalsOf reports)).Nodup

variable {reportId : String}

theorem Lifecycle.get_decisions_decide {lifecycle : Lifecycle} :
    Dict.get (lifecycle.decide reportId resolution original).decisions other = none ↔
      Dict.get lifecycle.decisions other = none ∧ other ≠ original := by
  unfold Lifecycle.decide
  cases hprior : Dict.get lifecycle.decisions original with
  | some prior =>
    apply (and_iff_left_of_imp _).symm
    rintro hother rfl
    rw [hprior] at hother
    cases hother
  | none =>
    by_cases hother : other = original
    · simp [hother]
    · simp [Dict.get_set_of_ne _ _ hother, hother]

theorem Lifecycle.blockers_decide {lifecycle : Lifecycle} :
    (lifecycle.decide reportId resolution original).blockers = [] ↔
      lifecycle.blockers = [] ∧ Dict.get lifecycle.decisions original = none := by
  unfold Lifecycle.decide
  cases hprior : Dict.get lifecycle.decisions original with
  | some prior => simp
  | none => simp

theorem Lifecycle.decideAll {originals : List (String × String)} {lifecycle : Lifecycle} :
    ((originals.foldl (Lifecycle.decide reportId resolution) lifecycle).blockers = [] ↔
      lifecycle.blockers = [] ∧ originals.Nodup ∧
        ∀ original ∈ originals, Dict.get lifecycle.decisions original = none) ∧
    ∀ other, Dict.get (originals.foldl (Lifecycle.decide reportId resolution)
      lifecycle).decisions other = none ↔
        Dict.get lifecycle.decisions other = none ∧ other ∉ originals := by
  induction originals generalizing lifecycle with
  | nil => simp
  | cons original originals ih =>
    rw [foldl_cons]
    obtain ⟨hblockers, hdecisions⟩ := @ih (lifecycle.decide reportId resolution original)
    constructor
    · rw [hblockers, Lifecycle.blockers_decide, nodup_cons, forall_mem_cons]
      simp only [Lifecycle.get_decisions_decide]
      constructor
      · rintro ⟨⟨hempty, hnone⟩, hnodup, hrest⟩
        exact ⟨hempty, ⟨fun hmem => (hrest original hmem).2 rfl, hnodup⟩, hnone,
          fun other hother => (hrest other hother).1⟩
      · rintro ⟨hempty, ⟨hnew, hnodup⟩, hnone, hrest⟩
        exact ⟨⟨hempty, hnone⟩, hnodup, fun other hother =>
          ⟨hrest other hother, fun heq => hnew (heq ▸ hother)⟩⟩
    · intro other
      rw [hdecisions, Lifecycle.get_decisions_decide, mem_cons, not_or, and_assoc]

theorem Lifecycle.adjudicateAll {adjudicators : List Report} {lifecycle : Lifecycle} :
    (adjudicators.foldl (Lifecycle.adjudicate reports) lifecycle).blockers = [] ↔
      lifecycle.blockers = [] ∧
      (∀ adjudicator ∈ adjudicators, ∃ originals,
        admissible reports adjudicator = some (.upholdFail, originals)) ∧
      (adjudicators.flatMap (originalsOf reports)).Nodup ∧
      ∀ original ∈ adjudicators.flatMap (originalsOf reports),
        Dict.get lifecycle.decisions original = none := by
  induction adjudicators generalizing lifecycle with
  | nil => simp
  | cons adjudicator adjudicators ih =>
    rw [foldl_cons, ih, forall_mem_cons, flatMap_cons]
    cases hadmissible : admissible reports adjudicator with
    | none => simp [Lifecycle.adjudicate, hadmissible]
    | some admitted =>
      obtain ⟨resolution, originals⟩ := admitted
      cases resolution with
      | clearAfterRetest => simp [Lifecycle.adjudicate, hadmissible]
      | upholdFail =>
        obtain ⟨hblockers, hdecisions⟩ := @Lifecycle.decideAll adjudicator.reportId .upholdFail
          originals lifecycle
        have horiginals : originalsOf reports adjudicator = originals := by
          rw [originalsOf, hadmissible]
          rfl
        have hstep : Lifecycle.adjudicate reports lifecycle adjudicator =
            originals.foldl (Lifecycle.decide adjudicator.reportId .upholdFail) lifecycle := by
          rw [Lifecycle.adjudicate, hadmissible]
        simp only [hstep, hblockers, hdecisions, horiginals, nodup_append',
          forall_mem_append, disjoint_right]
        constructor
        · rintro ⟨⟨hempty, hnodup, hnone⟩, hupheld, hrest, hapart⟩
          exact ⟨hempty, ⟨⟨originals, rfl⟩, hupheld⟩, ⟨hnodup, hrest, fun original h =>
            (hapart original h).2⟩, hnone, fun original h => (hapart original h).1⟩
        · rintro ⟨hempty, ⟨-, hupheld⟩, ⟨hnodup, hrest, hapart⟩, hnone, hothers⟩
          exact ⟨⟨hempty, hnodup, hnone⟩, hupheld, hrest, fun original h =>
            ⟨hothers original h, hapart h⟩⟩

theorem lifecycleOf_blockers_iff : (lifecycleOf reports).blockers = [] ↔ Settled reports := by
  rw [lifecycleOf, Lifecycle.adjudicateAll]
  constructor
  · rintro ⟨-, hupheld, hnodup, -⟩
    exact ⟨hupheld, hnodup⟩
  · intro h
    exact ⟨rfl, h.upheld, h.originals, fun _ _ => rfl⟩

section

variable (hids : (reports.map Report.reportId).Nodup)
include hids

theorem reportById_eq_some_iff :
    reportById reports reportId = some report ↔ report ∈ reports ∧ report.reportId = reportId := by
  unfold reportById
  constructor
  · intro h
    exact ⟨mem_reverse.mp (mem_of_find?_eq_some h), by
      simpa using List.find?_some h⟩
  · rintro ⟨hmem, rfl⟩
    have hfound : (reports.reverse.find? (·.reportId = report.reportId)).isSome := by
      rw [List.find?_isSome]
      exact ⟨report, mem_reverse.mpr hmem, by simp⟩
    obtain ⟨found, hfound⟩ := Option.isSome_iff_exists.mp hfound
    have hmem' := mem_reverse.mp (mem_of_find?_eq_some hfound)
    have hid : found.reportId = report.reportId := by simpa using List.find?_some hfound
    rw [hfound, inj_on_of_nodup_map hids hmem' hmem hid]

theorem reportById_perm (hperm : reports.Perm others) : reportById reports = reportById others := by
  funext reportId
  apply Option.ext
  intro report
  rw [reportById_eq_some_iff hids,
    reportById_eq_some_iff ((hperm.map _).nodup_iff.mp hids), hperm.mem_iff]

theorem admissible_perm (hperm : reports.Perm others) : admissible reports = admissible others := by
  have hdisputed : disputedReport reports = disputedReport others := by
    funext reportId
    rw [disputedReport, disputedReport, reportById_perm hids hperm]
  have hagents : ∀ agent, agent ∈ judgeAgents reports ↔ agent ∈ judgeAgents others :=
    fun agent => ((hperm.filter _).map _).mem_iff
  funext adjudicator
  unfold admissible
  simp only [hdisputed, hagents]

end

theorem Settled.perm (h : Settled reports) (hids : (reports.map Report.reportId).Nodup)
    (hperm : reports.Perm others) : Settled others := by
  have hadjudications : (adjudications reports).Perm (adjudications others) := hperm.filter _
  have hadmissible := admissible_perm hids hperm
  constructor
  · intro adjudicator hmem
    rw [← hadmissible]
    exact h.upheld adjudicator (hadjudications.mem_iff.mpr hmem)
  · have horiginals : originalsOf reports = originalsOf others := by
      funext adjudicator
      rw [originalsOf, originalsOf, hadmissible]
    rw [← horiginals]
    exact (hadjudications.flatMap_right _).nodup_iff.mp h.originals

end Lifecycle

section Checks

variable {candidate : Candidate} {policy : Policy} {required : RequiredCheck}

/-- The verdicts of the entries are those of a passed check. -/
def Unanimous (required : RequiredCheck) (entries : List Entry) : Prop :=
  (∀ entry ∈ entries, entry.2.verdict = .pass) ∨
    required.allowNa ∧ ∀ entry ∈ entries, entry.2.verdict = .na

section

variable {entries : List Entry} (h : Unanimous required entries) {entry : Entry}
    (hentry : entry ∈ entries)
include h hentry

theorem Unanimous.ne_fail : entry.2.verdict ≠ .fail := by
  rcases h with hpass | ⟨-, hna⟩
  · rw [hpass entry hentry]
    decide
  · rw [hna entry hentry]
    decide

theorem Unanimous.ne_unknown : entry.2.verdict ≠ .unknown := by
  rcases h with hpass | ⟨-, hna⟩
  · rw [hpass entry hentry]
    decide
  · rw [hna entry hentry]
    decide

end

structure Passable (policy : Policy) (required : RequiredCheck) (entries : List Entry) : Prop where
  judges : policy.minJudges ≤ (agentsOf entries).length
  roles : ∀ demand ∈ roleRequirements required.requiredRoles,
    demand.2 ≤ (roleAgents entries demand.1).length
  unanimous : Unanimous required entries

section

variable {entries : List Entry}

theorem Passable.ne_nil (h : Passable policy required entries) : entries ≠ [] := by
  rintro rfl
  have hjudges := h.judges
  have hmin : 2 ≤ policy.minJudges := le_max_left _ _
  simp [agentsOf] at hjudges
  omega

theorem forall_states :
    (∀ state ∈ states entries, state = verdict) ↔ ∀ entry ∈ entries, entry.2.verdict = verdict :=
  forall_mem_map

theorem decideCheck_of_passable (h : Passable policy required entries) :
    decideCheck candidate policy required entries = (.pass, []) := by
  have hfail : ∀ entry ∈ entries, ¬ trustedFail candidate entry.2 :=
    fun entry hentry htrusted => h.unanimous.ne_fail hentry htrusted.1
  have hunknown : ¬ (required.critical ∧ .unknown ∈ states entries) := by
    rintro ⟨-, hstate⟩
    obtain ⟨entry, hentry, hverdict⟩ := mem_map.mp hstate
    exact h.unanimous.ne_unknown hentry hverdict
  have huntrusted : ¬ ∃ entry ∈ entries,
      entry.2.verdict = .fail ∧ ¬ trustedFail candidate entry.2 := by
    rintro ⟨entry, hentry, hverdict, -⟩
    exact h.unanimous.ne_fail hentry hverdict
  have hcovered : ¬ (((agentsOf entries).length : Int) < policy.minJudges ∨
      missingRoles required entries) := by
    rintro (hfew | ⟨demand, hdemand, hless⟩)
    · exact absurd h.judges (not_le.mpr hfew)
    · exact absurd (h.roles demand hdemand) (not_le.mpr hless)
  have hstates : states entries ≠ [] := by
    rw [states, ne_eq, map_eq_nil_iff]
    exact h.ne_nil
  rw [decideCheck, if_neg (by simpa using hfail), if_neg hunknown, if_neg huntrusted,
    if_neg hcovered]
  rcases h.unanimous with hpass | ⟨hallow, hna⟩
  · rw [if_pos ⟨hstates, forall_states.mpr hpass⟩]
  · split
    · rfl
    · rw [if_pos ⟨hallow, hstates, forall_states.mpr hna⟩]

theorem passable_of_decideCheck (h : (decideCheck candidate policy required entries).2 = []) :
    Passable policy required entries := by
  unfold decideCheck at h
  split at h
  next htrusted =>
    obtain ⟨entry, hentry, htrusted⟩ := htrusted
    rw [trustedFailBlockers, map_eq_nil_iff, filter_eq_nil_iff] at h
    exact absurd (decide_eq_true htrusted) (h entry hentry)
  split at h
  · simp only at h
    split at h
    · cases h
    next hnone =>
      exact absurd (sortedSet_eq_nil.mp h) hnone
  split at h
  · cases h
  split at h
  · cases h
  rename_i hcovered
  rw [not_or, not_lt] at hcovered
  have hroles : ∀ demand ∈ roleRequirements required.requiredRoles,
      demand.2 ≤ (roleAgents entries demand.1).length := by
    intro demand hdemand
    by_contra hless
    exact hcovered.2 ⟨demand, hdemand, not_le.mp hless⟩
  split at h
  next hpass =>
    exact ⟨hcovered.1, hroles, .inl (forall_states.mp hpass.2)⟩
  split at h
  next hna =>
    exact ⟨hcovered.1, hroles, .inr ⟨hna.1, forall_states.mp hna.2.2⟩⟩
  · cases h

end

/-- A required check that is passed: every entry under its id counts, and together they pass it. -/
structure CheckPassed (policy : Policy) (reports : List Report) (gateId : String)
    (required : RequiredCheck) : Prop where
  policyValid : policyCheckValid policy gateId required
  authorized : ∀ entry ∈ firstPassChecks reports required.checkId, counted gateId required entry
  passable : Passable policy required (firstPassChecks reports required.checkId)

theorem CheckPassed.entries (h : CheckPassed policy reports gateId required) :
    (firstPassChecks reports required.checkId).filter (counted gateId required ·) =
      firstPassChecks reports required.checkId :=
  filter_eq_self.mpr fun entry hentry => decide_eq_true (h.authorized entry hentry)

theorem CheckPassed.evaluateCheck_eq (h : CheckPassed policy reports gateId required) :
    evaluateCheck candidate policy reports gateId required =
      { result := some
          { checkId := required.checkId
            verdict := .pass
            judgeStates := states (firstPassChecks reports required.checkId) }
        entries := firstPassChecks reports required.checkId } := by
  have hstates : states (firstPassChecks reports required.checkId) ≠ [] := by
    rw [states, ne_eq, map_eq_nil_iff]
    exact h.passable.ne_nil
  unfold evaluateCheck
  rw [if_pos h.policyValid]
  simp [h.entries, decideCheck_of_passable h.passable, hstates]

theorem evaluateCheck_blockers_iff :
    (evaluateCheck candidate policy reports gateId required).blockers = [] ↔
      CheckPassed policy reports gateId required := by
  constructor
  · intro h
    unfold evaluateCheck at h
    split at h
    next hvalid =>
      simp only [append_eq_nil_iff] at h
      obtain ⟨hunauthorized, hblockers⟩ := h
      have hauthorized : ∀ entry ∈ firstPassChecks reports required.checkId,
          counted gateId required entry := by
        split at hunauthorized
        · cases hunauthorized
        next hlength =>
          intro entry hentry
          have heq := filter_eq_self.mp
            ((filter_sublist).eq_of_length (not_not.mp hlength))
          exact of_decide_eq_true (heq entry hentry)
      have hentries : (firstPassChecks reports required.checkId).filter
          (counted gateId required ·) = firstPassChecks reports required.checkId :=
        filter_eq_self.mpr fun entry hentry => decide_eq_true (hauthorized entry hentry)
      rw [hentries] at hblockers
      exact ⟨hvalid, hauthorized, passable_of_decideCheck hblockers⟩
    · cases h
  · intro h
    rw [h.evaluateCheck_eq]

end Checks

section Engine

variable {candidate : Candidate} {policy : Policy} {reports : List Report}

/-- A gate that the policy defines, with all its required checks passed. -/
def GatePassed (policy : Policy) (reports : List Report) (gateId : String) : Prop :=
  ∃ gate, Dict.get policy.gateIndex.1 gateId = some gate ∧
    ∀ required ∈ gate.requiredChecks, CheckPassed policy reports gateId required

theorem evaluateGate_blockers_iff :
    (evaluateGate candidate policy reports gateId).2 = [] ↔ GatePassed policy reports gateId := by
  unfold evaluateGate GatePassed
  cases hgate : Dict.get policy.gateIndex.1 gateId with
  | none => simp
  | some gate => simp [evaluateCheck_blockers_iff]

/-- What the engine passes: a candidate that blocks nothing itself, over reports that are taken in
one and all, with their adjudications settled and the checks of every mandatory gate passed. -/
structure Passing (candidate : Candidate) (policy : Policy) (reports : List Report) : Prop where
  unblocked : candidateBlockers candidate policy = []
  clean : Clean candidate policy reports
  settled : Settled reports
  gates : ∀ gateId ∈ (profileOf candidate policy).mandatoryGates, GatePassed policy reports gateId

theorem validReports_of_clean (h : Clean candidate policy reports) :
    (intakeOf candidate policy reports).validReports = reports :=
  (intakeOf_taken (intakeOf_blockers_iff.mpr h)).validReports

theorem openBlockers_eq_nil_iff :
    openBlockers candidate policy reports = [] ↔ Passing candidate policy reports := by
  simp only [openBlockers, sortedSet_eq_nil, append_eq_nil_iff, intakeOf_blockers_iff,
    lifecycleOf_blockers_iff]
  have hgates : ∀ validReports, (gateEvaluations candidate policy validReports).flatMap (·.2) = [] ↔
      ∀ gateId ∈ (profileOf candidate policy).mandatoryGates,
        GatePassed policy validReports gateId := by
    intro validReports
    simp [gateEvaluations, evaluateGate_blockers_iff]
  rw [hgates]
  constructor
  · rintro ⟨⟨⟨hcandidate, hclean⟩, hsettled⟩, hpassed⟩
    rw [validReports_of_clean hclean] at hsettled hpassed
    exact ⟨hcandidate, hclean, hsettled, hpassed⟩
  · intro h
    rw [validReports_of_clean h.clean]
    exact ⟨⟨⟨h.unblocked, h.clean⟩, h.settled⟩, h.gates⟩

theorem engineVerdict_eq_pass_iff :
    engineVerdict candidate policy reports = .pass ↔ Passing candidate policy reports := by
  rw [← openBlockers_eq_nil_iff, engineVerdict]
  split <;> simp_all

end Engine

def sampleChecked : List Role :=
  ["judge.a", "judge.b"].map fun roleId =>
    { roleId := roleId, kind := .judge, dimensions := ["security"], gates := ["G0"]
      checks := ["G0.secrets"] }

def samplePolicy : Policy :=
  { policyVersion := some "1"
    maturityLevels := [(0, []), (1, ["definition"]), (2, ["prototype"])]
    levels_nodup := by decide
    stageProfiles :=
      [("alpha", { moduleRequirements := [.explicit "core" 1], mandatoryGates := ["G0"] })]
    gates :=
      [{ gateId := "G0"
         requiredChecks :=
           [{ checkId := "G0.secrets", dimension := "security", critical := true, allowNa := false
              requiredRoles := [.role "judge.a", .role "judge.b"]
              allowedRoles := ["judge.a", "judge.b"] }] }]
    roles := sampleChecked }

def sampleCandidate : Candidate :=
  { candidateId := "candidate"
    snapshot := { snapshotId := "sha", dirty := false }
    targetStage := "alpha"
    createdAt := "2026-01-01T00:00:00Z"
    modules :=
      [{ moduleId := "core", layer := "L0", critical := true, declaredMaturity := 2
         dependencies := [], evidenceIds := ["e1"] }]
    claims := [{ claimId := "claim", evidenceIds := ["e1"] }]
    evidence := [{ evidenceId := "e1", type := "definition", snapshotId := "sha" }] }

def sampleReport (reportId : String) (phase : Phase) (roleId agent : String) (verdict : Verdict) :
    Report :=
  { reportId := reportId
    candidateId := "candidate"
    snapshotId := "sha"
    policyVersion := some "1"
    phase := phase
    judge :=
      { roleId := roleId, agentInstanceId := agent, organization := .independent, conflicts := []
        attestations :=
          { blindFirstPass := true, noSharedVerdicts := true, notCandidateAuthor := true } }
    finishedAt := "2026-01-02T00:00:00Z"
    checks :=
      [{ checkId := "G0.secrets", gateId := "G0", dimension := "security", critical := true
         verdict := verdict, evidenceIds := ["e1"]
         reproduction := some
           { commandTemplate := "scan", environmentHash := "env", attempts := 1 }
         observed := "a key in the history", blockerId := some "BLK-secrets"
         retestCondition := "no key found" }]
    adjudication := none }

def sampleReports : List Report :=
  [sampleReport "r1" .firstPass "judge.a" "agent.1" .pass,
   sampleReport "r2" .firstPass "judge.b" "agent.2" .pass]

example : engineVerdict sampleCandidate samplePolicy sampleReports = .pass := by decide +kernel

end Flowness.Release
