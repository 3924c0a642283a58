import Flowness.Reflow.Bounds

/-!
Recovery closes: a worktree with a terminal event gets no further finding where no round detects it,
and a closing round resolves the findings that the stranded and the conflict path minted for it.
-/

namespace Flowness.Reflow

open Option List Library Planning Dict

section

variable {env : ReflowEnv} {strip : String → String} {path : RecoveryPath} {now : Int}
  {drawn : String → Drawn} {state next : ReflowState} {worktreeId other : String}

theorem mem_candidates : worktreeId ∈ candidates env strip path state.disk ↔
    Detected env strip state.disk worktreeId path := by
  cases path with
  | conflict => simp [candidates, blockedWorktrees, Detected, Blocked]
  | stranded => exact mem_scanStrandedWorktrees
  | triage => exact mem_scanStrandedWorktrees

theorem mint_spared (path : RecoveryPath) (drawn : String → Drawn)
    (h : Spared env state.disk worktreeId now) :
    mintedFor worktreeId (mint env path now drawn state worktreeId) = mintedFor worktreeId state ∧
      Spared env (mint env path now drawn state worktreeId).disk worktreeId now := by
  obtain hsame | ⟨-, hcap, -, hmint⟩ | ⟨hfresh, hcap, -⟩ :=
    mint_cases env path now drawn state worktreeId
  · rw [hsame]
    exact ⟨rfl, h⟩
  · rw [hmint]
    refine ⟨by simp [mintedFor, emittedFor], .inr ?_⟩
    exact hcap
  · obtain h | h := h
    · rw [h] at hfresh
      contradiction
    · omega

theorem detect_spared
    (h : Detected env strip state.disk worktreeId path → Spared env state.disk worktreeId now) :
    mintedFor worktreeId (detectRound env strip path now drawn state) =
      mintedFor worktreeId state := by
  rw [← mem_candidates] at h
  unfold detectRound
  generalize candidates env strip path state.disk = worktrees at h
  induction worktrees generalizing state with
  | nil => rfl
  | cons other worktrees ih =>
    rw [foldl_cons]
    by_cases hother : other = worktreeId
    · subst hother
      obtain ⟨hminted, hspared⟩ := mint_spared path drawn (h mem_cons_self)
      rw [ih fun _ => hspared, hminted]
    · have hsame := mint_other env path now drawn state hother
      rw [ih fun hmem => hsame.spared.mpr (h (mem_cons_of_mem _ hmem)), hsame.minted]

theorem step_keeps_minted (hkeeps : KeepsDone env strip state action)
    (hended : worktreeId ∈ endedWorktrees state.disk.log)
    (h : reflowStep env strip state action = some next) :
    mintedFor worktreeId next = mintedFor worktreeId state := by
  cases action with
  | detect path now drawn =>
    cases h
    exact detect_spared (hkeeps worktreeId hended)
  | close drawn =>
    cases h
    rfl
  | commit record =>
    cases h
    rfl
  | change stamps worktrees reachable conflicts =>
    cases h
    rfl

/-- Every finding that was minted is created in the log under its identifier, once. -/
structure Recorded (state : ReflowState) : Prop where
  created : ∀ emission ∈ state.emitted, ∀ path findingId,
    emission.finding = some (path, findingId) → findingId ≠ "" ∧
      (∃ eventId, recoveryFinding path emission.worktreeId ⟨findingId, eventId⟩ ∈ state.disk.log) ∧
      ∀ record ∈ state.disk.log, createdFinding record = some findingId →
        ∃ eventId, record = recoveryFinding path emission.worktreeId ⟨findingId, eventId⟩

theorem createdFinding_recovery (path : RecoveryPath) (worktreeId : String)
    (h : given.findingId ≠ "") :
    createdFinding (recoveryFinding path worktreeId given) = some given.findingId := by
  simp [createdFinding, recoveryFinding, ReflowRecord.src, afterOrSelf, Json.nonBlank, Json.lookup,
    Json.text?, get_cons, h]

theorem closableFinding_recovery {path : RecoveryPath} {given : Drawn} (h : given.findingId ≠ "")
    (hid : worktreeId ≠ "") (hpath : path ≠ .triage) :
    closableFinding (recoveryFinding path worktreeId given) = some (given.findingId, worktreeId) := by
  have hsurface : path.riskSurface ∈ recoveryFindingRiskSurfaces := by
    cases path with
    | triage => exact absurd rfl hpath
    | stranded => decide
    | conflict => decide
  unfold closableFinding
  rw [createdFinding_recovery path worktreeId h]
  simp [recoveryFinding, ReflowRecord.src, afterOrSelf, Json.nonBlank, Json.lookup, Json.text?,
    Json.asDict, get_cons, artifact, hsurface, hid]

theorem Recorded.snoc (h : Recorded state)
    (hnew : ∀ findingId ∈ mintedIds state, createdFinding record ≠ some findingId) :
    Recorded { state with disk := { state.disk with log := state.disk.log ++ [record] } } := by
  refine ⟨fun emission hmem path findingId hfinding => ?_⟩
  obtain ⟨hne, ⟨eventId, hlogged⟩, hunique⟩ := h.created emission hmem path findingId hfinding
  refine ⟨hne, ⟨eventId, mem_append_left _ hlogged⟩, fun other hother hcreated => ?_⟩
  obtain hother | hother := mem_append.mp hother
  · exact hunique other hother hcreated
  · rw [mem_singleton.mp hother] at hcreated
    refine absurd hcreated (hnew findingId ?_)
    exact mem_filterMap.mpr ⟨emission, hmem, by simp [hfinding]⟩

theorem Recorded.logged (h : Recorded state) (hmem : findingId ∈ mintedIds state) :
    findingId ∈ state.disk.log.filterMap createdFinding := by
  obtain ⟨emission, hemission, hnamed⟩ := mem_filterMap.mp hmem
  obtain ⟨⟨path, other⟩, hfinding, hother⟩ := map_eq_some_iff.mp hnamed
  cases hother
  obtain ⟨hne, ⟨eventId, hlogged⟩, -⟩ := h.created emission hemission path other hfinding
  exact mem_filterMap.mpr ⟨_, hlogged, createdFinding_recovery path emission.worktreeId hne⟩

def StillNew (env : ReflowEnv) (now : Int) (drawn : String → Drawn) (state : ReflowState) : Prop :=
  ∀ worktreeId, (drawn worktreeId).findingId ∉ state.disk.log.filterMap createdFinding ∨
    recoveryMarkerFresh env state.disk worktreeId now = true

theorem Recorded.mint (h : Recorded state) (path : RecoveryPath) (hne : ∀ worktreeId,
    (drawn worktreeId).findingId ≠ "")
    (hdistinct : ∀ worktreeId other, (drawn worktreeId).findingId = (drawn other).findingId →
      worktreeId = other) (hnew : StillNew env now drawn state) (worktreeId : String) :
    Recorded (mint env path now drawn state worktreeId) ∧
      StillNew env now drawn (mint env path now drawn state worktreeId) := by
  obtain hsame | ⟨-, -, -, hmint⟩ | ⟨hfresh, -, hmint⟩ :=
    mint_cases env path now drawn state worktreeId
  · rw [hsame]
    exact ⟨h, hnew⟩
  · have hnone : createdFinding (mintCapEscalation worktreeId (drawn worktreeId).eventId) = none := by
      simp [createdFinding, mintCapEscalation]
    constructor
    · refine ⟨fun emission hmem path findingId hfinding => ?_⟩
      rw [hmint] at hmem ⊢
      have hmem : emission ∈ state.emitted := by
        obtain hmem | hmem := mem_append.mp hmem
        · exact hmem
        · rw [mem_singleton.mp hmem] at hfinding
          cases hfinding
      exact (h.snoc fun _ _ => by simp [hnone]).created emission hmem path findingId hfinding
    · intro other
      rw [hmint]
      refine (hnew other).imp (fun hfresh => ?_) id
      simpa [hnone] using hfresh
  · have hcreated := createdFinding_recovery path worktreeId (hne worktreeId)
    have hunused : (drawn worktreeId).findingId ∉ state.disk.log.filterMap createdFinding := by
      obtain hunused | hin := hnew worktreeId
      · exact hunused
      · rw [hfresh] at hin
        contradiction
    constructor
    · refine ⟨fun emission hmem path' findingId hfinding => ?_⟩
      rw [hmint] at hmem ⊢
      obtain hmem | hmem := mem_append.mp hmem
      · refine (h.snoc fun minted hminted hsame => ?_).created emission hmem path' findingId hfinding
        rw [hcreated] at hsame
        exact hunused (some.inj hsame ▸ h.logged hminted)
      · rw [mem_singleton.mp hmem] at hfinding ⊢
        cases hfinding
        refine ⟨hne worktreeId, ⟨(drawn worktreeId).eventId, by simp⟩, fun record hrecord hid => ?_⟩
        obtain hrecord | hrecord := mem_append.mp hrecord
        · exact absurd (mem_filterMap.mpr ⟨record, hrecord, hid⟩) hunused
        · exact ⟨_, mem_singleton.mp hrecord⟩
    · intro other
      rw [hmint]
      by_cases hother : other = worktreeId
      · subst hother
        refine .inr ?_
        simpa [recoveryMarkerFresh] using env.staleAfter_pos
      · refine (hnew other).imp (fun hunused hin => ?_) (fun hin => ?_)
        · rw [filterMap_append, mem_append] at hin
          obtain hin | hin := hin
          · exact hunused hin
          · simp only [filterMap_cons, hcreated, filterMap_nil, mem_singleton] at hin
            exact hother (hdistinct other worktreeId hin)
        · simpa [recoveryMarkerFresh, get_set_of_ne _ _ hother] using hin

theorem Recorded.detect (h : Recorded state) (hne : ∀ worktreeId, (drawn worktreeId).findingId ≠ "")
    (hdistinct : ∀ worktreeId other, (drawn worktreeId).findingId = (drawn other).findingId →
      worktreeId = other) (hnew : StillNew env now drawn state) :
    Recorded (detectRound env strip path now drawn state) := by
  unfold detectRound
  generalize candidates env strip path state.disk = worktrees
  induction worktrees generalizing state with
  | nil => exact h
  | cons worktreeId worktrees ih =>
    rw [foldl_cons]
    obtain ⟨hrecorded, hnew⟩ := h.mint path hne hdistinct hnew worktreeId
    exact ih hrecorded hnew

theorem Recorded.close (h : Recorded state) {drawn : String → String} :
    Recorded (closeRound drawn state) := by
  obtain ⟨disk, emitted⟩ := state
  unfold closeRound
  dsimp only
  generalize disposedFindings disk.log = findings
  induction findings generalizing disk with
  | nil => exact h
  | cons finding findings ih =>
    rw [foldl_cons]
    apply ih
    have hnone : createdFinding (recoveryFindingResolved finding.1 (drawn finding.1)) = none := by
      simp [createdFinding, recoveryFindingResolved]
    exact ⟨(h.snoc fun _ _ => by simp [hnone]).created⟩

theorem Recorded.step (h : Recorded state) (hnew : DrawnNew state action)
    (hstep : reflowStep env strip state action = some next) : Recorded next := by
  cases action with
  | detect path now drawn =>
    cases hstep
    exact h.detect (fun worktreeId => (hnew.1 worktreeId).1) hnew.2
      fun worktreeId => .inl (hnew.1 worktreeId).2
  | close drawn =>
    cases hstep
    exact h.close
  | commit record =>
    cases hstep
    exact h.snoc hnew
  | change stamps worktrees reachable conflicts =>
    cases hstep
    exact ⟨h.created⟩

theorem get_latest {ν : Type} {log : List ReflowRecord} {entry : ReflowRecord → Option (String × ν)}
    {key : String} {value : ν} (hmem : ∃ record ∈ log, entry record = some (key, value))
    (hagree : ∀ record ∈ log, ∀ found, entry record = some (key, found) → found = value) :
    (latest log entry).get key = some value := by
  unfold latest
  have hmem : (key, value) ∈ log.filterMap entry := mem_filterMap.mpr hmem
  have hagree : ∀ found, (key, found) ∈ log.filterMap entry → found = value := by
    intro found hfound
    obtain ⟨record, hrecord, hentry⟩ := mem_filterMap.mp hfound
    exact hagree record hrecord found hentry
  generalize log.filterMap entry = entries at hmem hagree
  induction entries using List.reverseRecOn with
  | nil => exact absurd hmem not_mem_nil
  | append_singleton entries last ih =>
    obtain ⟨lastKey, lastValue⟩ := last
    rw [foldl_append, foldl_cons, foldl_nil]
    by_cases hkey : key = lastKey
    · subst hkey
      rw [get_set_self, hagree lastValue (by simp)]
    · rw [get_set_of_ne _ _ hkey]
      apply ih
      · obtain hmem | hmem := mem_append.mp hmem
        · exact hmem
        · simp [hkey] at hmem
      · exact fun found hfound => hagree found (mem_append_left _ hfound)

theorem closeFindings_resolves (drawn : String → String) {findings : List (String × String)}
    (disk : ReflowDisk) (finding : String × String) (hmem : finding ∈ findings)
    (hne : finding.1 ≠ "") :
    finding.1 ∈ resolvedFindings (findings.foldl (closeFinding drawn) disk).log := by
  induction findings generalizing disk with
  | nil => exact absurd hmem not_mem_nil
  | cons first findings ih =>
    rw [foldl_cons]
    obtain rfl | hmem := mem_cons.mp hmem
    · refine resolvedFindings_mono (close_log drawn findings _) ?_
      refine mem_filterMap.mpr
        ⟨recoveryFindingResolved finding.1 (drawn finding.1), mem_append_right _ (by simp), ?_⟩
      simp [resolvedFinding, recoveryFindingResolved, ReflowRecord.src, afterOrSelf, Json.nonBlank,
        Json.lookup, Json.text?, get_cons, hne]
    · exact ih _ hmem

theorem ne_of_ended {log : List ReflowRecord} (h : worktreeId ∈ endedWorktrees log) :
    worktreeId ≠ "" := by
  obtain ⟨record, -, hended⟩ := mem_filterMap.mp h
  unfold endedWorktree at hended
  split at hended
  · simpa using (filter_eq_some_iff.mp hended).2
  · split at hended
    · simpa using (filter_eq_some_iff.mp hended).2
    · cases hended

theorem Recorded.closes (h : Recorded state) {drawn : String → String}
    (hkeeps : KeepsDone env strip state (.close drawn))
    (hended : worktreeId ∈ endedWorktrees state.disk.log) :
    AllClosed worktreeId (closeRound drawn state) := by
  intro emission hmem path findingId hfinding
  have hmem : emission ∈ mintedFor worktreeId state := hmem
  obtain ⟨hemitted, hid⟩ := mem_filter.mp (mem_filter.mp hmem).1
  have hid : emission.worktreeId = worktreeId := by simpa using hid
  have hgrows := resolvedFindings_mono (close_log drawn (disposedFindings state.disk.log) state.disk)
  by_cases hpath : path = .triage
  · subst hpath
    exact hgrows (hkeeps emission hemitted findingId hfinding (hid ▸ hended))
  · by_cases hresolved : findingId ∈ resolvedFindings state.disk.log
    · exact hgrows hresolved
    · obtain ⟨hne, ⟨eventId, hlogged⟩, hunique⟩ := h.created emission hemitted path findingId hfinding
      rw [hid] at hlogged hunique
      have hget : (latest state.disk.log closableFinding).get findingId = some worktreeId := by
        refine get_latest ⟨_, hlogged, closableFinding_recovery hne (ne_of_ended hended) hpath⟩ ?_
        intro record hrecord found hclosable
        have hcreated : createdFinding record = some findingId := by
          unfold closableFinding at hclosable
          split at hclosable
          · obtain ⟨other, hother, hclosable⟩ := bind_eq_some_iff.mp hclosable
            obtain ⟨target, -, hpair⟩ := map_eq_some_iff.mp hclosable
            rw [hother, (Prod.mk.inj hpair).1]
          · cases hclosable
        obtain ⟨otherEvent, rfl⟩ := hunique record hrecord hcreated
        rw [closableFinding_recovery hne (ne_of_ended hended) hpath] at hclosable
        exact (Prod.mk.inj (some.inj hclosable)).2.symm
      refine closeFindings_resolves drawn state.disk (findingId, worktreeId) ?_ hne
      exact mem_filter.mpr ⟨mem_of_get hget, by simp [hresolved, hended]⟩

/-- A step under new identifiers that finds no worktree with a terminal event to recover. -/
def Guarded (env : ReflowEnv) (strip : String → String) (state : ReflowState) (action : ReflowAction) :
    Prop :=
  DrawnNew state action ∧ KeepsDone env strip state action

theorem recorded_of_run (hstart : Recorded start)
    (hrun : Run (reflowStep env strip) (Guarded env strip) start actions state) : Recorded state :=
  hrun.invariant hstart fun _ _ _ hrecorded hguard hstep => hrecorded.step hguard.1 hstep

theorem done_of_run (hrecorded : Recorded middle)
    (hended : worktreeId ∈ endedWorktrees middle.disk.log)
    (hrun : Run (reflowStep env strip) (Guarded env strip) middle actions state) :
    worktreeId ∈ endedWorktrees state.disk.log ∧
      mintedFor worktreeId state = mintedFor worktreeId middle ∧
      ((∃ drawn, .close drawn ∈ actions) → AllClosed worktreeId state) := by
  induction hrun with
  | nil => exact ⟨hended, rfl, fun h => by simp at h⟩
  | @snoc actions state next action hrun hguard hstep ih =>
    obtain ⟨hstill, hminted, hclosed⟩ := ih
    have hgrows := reflowStep_log hstep
    have hkept := step_keeps_minted hguard.2 hstill hstep
    refine ⟨endedWorktrees_mono hgrows hstill, hkept.trans hminted, fun h => ?_⟩
    obtain ⟨drawn, hmem⟩ := h
    obtain hmem | hmem := mem_append.mp hmem
    · have hclosed := hclosed ⟨drawn, hmem⟩
      intro emission hemission path findingId hfinding
      rw [hkept] at hemission
      exact resolvedFindings_mono hgrows (hclosed emission hemission path findingId hfinding)
    · obtain rfl := mem_singleton.mp hmem
      cases hstep
      exact (recorded_of_run hrecorded hrun).closes hguard.2 hstill

/-- No round detects a promoted worktree that has no conflict and belongs to no closed fix. -/
theorem keepsDone_of_promoted (h : ∀ worktreeId ∈ endedWorktrees state.disk.log,
    worktreeId ∈ promotedIds state.disk.log ∧ worktreeId ∉ state.disk.conflicts ∧
      worktreeId ∉ (closedFixWorktrees env strip state.disk).map (·.1.worktreeId)) :
    KeepsDone env strip state (.detect path now drawn) := by
  intro worktreeId hended hdetected
  obtain ⟨hpromoted, hclear, hfix⟩ := h worktreeId hended
  cases path with
  | conflict => exact absurd hdetected.1 hclear
  | _ =>
    obtain hcompleted | ⟨entry, hentry, rfl, -⟩ := hdetected
    · exact absurd hpromoted hcompleted.2.1
    · exact absurd (mem_map_of_mem hentry) hfix

/-- In every run recovery is bounded as long as there is no terminal event; in every run that finds
no worktree with one to recover, recovery closes. -/
theorem reflow_bounded_and_closes {start : ReflowState} (hstart : Unminted start)
    (worktreeId : String) :
    (∀ actions state, Run (reflowStep env strip) (fun _ _ => True) start actions state →
      worktreeId ∉ endedWorktrees state.disk.log → Bounded env worktreeId state) ∧
      ∀ before middle after last, Run (reflowStep env strip) (Guarded env strip) start before middle →
        Run (reflowStep env strip) (Guarded env strip) middle after last →
          worktreeId ∈ endedWorktrees middle.disk.log →
            mintedFor worktreeId last = mintedFor worktreeId middle ∧
              ((∃ drawn, .close drawn ∈ after) → AllClosed worktreeId last) := by
  have hrecorded : Recorded start := ⟨by simp [hstart.emitted]⟩
  constructor
  · exact fun actions state hrun hopen => (budget_of_run hstart hrun hopen).bounded
  · exact fun before middle after last hbefore hafter hended =>
      (done_of_run (recorded_of_run hrecorded hbefore) hended hafter).2

end

def sampleReflow : ReflowEnv :=
  { fixWorktreeId := fun key => "fix__" ++ key, mintCap := 3, staleAfter := 7200
    staleAfter_pos := by decide }

/-- The task `T` completed in the worktree `wt`, which is still there. -/
def sampleStart : ReflowState where
  disk :=
    { log := [⟨"evt-1", "TaskRunCompleted", [("task_id", .str "T"), ("outcome", .str "success")]⟩]
      stamps := [("T", "wt")], worktrees := ["wt"], reachable := [], conflicts := [], markers := []
      mintCounts := [], escalated := [] }
  emitted := []

def drawnFrom (start : String) (worktreeId : String) : Drawn :=
  ⟨start ++ worktreeId, "evt-" ++ start ++ worktreeId⟩

def promotion : ReflowRecord := ⟨"evt-2", "WorktreePromoted", [("task_id", .str "wt")]⟩

def disposal : ReflowRecord := ⟨"evt-2", "WorktreeClosed", [("worktree_id", .str "wt")]⟩

def reflowAfter (actions : List ReflowAction) : ReflowState :=
  (actions.foldlM (reflowStep sampleReflow id) sampleStart).getD sampleStart

def triagedThenPromoted : List ReflowAction :=
  [.detect .triage 0 (drawnFrom "f-"), .commit promotion, .close fun findingId => "evt-" ++ findingId]

def disposedThenScanned : List ReflowAction :=
  [.detect .stranded 0 (drawnFrom "f-"), .commit disposal,
    .close fun findingId => "evt-" ++ findingId, .detect .stranded 7200 (drawnFrom "g-")]

theorem drawnFrom_new {log : List String} (hne : start ≠ "")
    (hnew : ∀ worktreeId, start ++ worktreeId ∉ log) :
    (∀ worktreeId, (drawnFrom start worktreeId).findingId ≠ "" ∧
      (drawnFrom start worktreeId).findingId ∉ log) ∧
    ∀ worktreeId other, (drawnFrom start worktreeId).findingId = (drawnFrom start other).findingId →
      worktreeId = other := by
  refine ⟨fun worktreeId => ⟨?_, hnew worktreeId⟩, fun worktreeId other h => ?_⟩
  · simp [drawnFrom, hne]
  · simpa [drawnFrom] using h

private theorem drawnFrom_apart (hlogged : state.disk.log.filterMap createdFinding = ["f-wt"]) :
    DrawnNew state (.detect path now (drawnFrom "g-")) := by
  refine drawnFrom_new (by decide) fun worktreeId hmem => ?_
  rw [hlogged] at hmem
  have hchars := congrArg String.toList (mem_singleton.mp hmem)
  simp at hchars

def promotedThenScanned : List ReflowAction :=
  [.detect .stranded 0 (drawnFrom "f-"), .commit promotion, .detect .stranded 7200 (drawnFrom "g-"),
    .close fun findingId => "evt-" ++ findingId]

theorem promoted_worktree_closes :
    (mintedFor "wt" (reflowAfter promotedThenScanned)).length = 1 ∧
      AllClosed "wt" (reflowAfter promotedThenScanned) := by
  have hstart : Unminted sampleStart := ⟨rfl, rfl, rfl, rfl⟩
  have hfirst : Guarded sampleReflow id sampleStart (.detect .stranded 0 (drawnFrom "f-")) := by
    have hnone : sampleStart.disk.log.filterMap createdFinding = [] := by decide +kernel
    have hopen : endedWorktrees sampleStart.disk.log = [] := by decide +kernel
    exact ⟨drawnFrom_new (by decide) (by simp [hnone]), keepsDone_of_promoted (by simp [hopen])⟩
  have hcommit : Guarded sampleReflow id (reflowAfter (promotedThenScanned.take 1))
      (.commit promotion) := by
    refine ⟨fun findingId _ => ?_, trivial⟩
    simp [createdFinding, promotion]
  have hsecond : Guarded sampleReflow id (reflowAfter (promotedThenScanned.take 2))
      (.detect .stranded 7200 (drawnFrom "g-")) := by
    have hlogged : (reflowAfter (promotedThenScanned.take 2)).disk.log.filterMap createdFinding =
        ["f-wt"] := by decide +kernel
    refine ⟨drawnFrom_apart hlogged, keepsDone_of_promoted ?_⟩
    decide +kernel
  have hclose : Guarded sampleReflow id (reflowAfter (promotedThenScanned.take 3))
      (.close fun findingId => "evt-" ++ findingId) := by
    have hemitted : (reflowAfter (promotedThenScanned.take 3)).emitted =
        [⟨"wt", 0, some (.stranded, "f-wt")⟩] := by decide +kernel
    refine ⟨trivial, ?_⟩
    simp [KeepsDone, hemitted]
  have hbefore : Run (reflowStep sampleReflow id) (Guarded sampleReflow id) sampleStart
      (promotedThenScanned.take 2) (reflowAfter (promotedThenScanned.take 2)) :=
    Run.snoc (Run.snoc Run.nil hfirst rfl) hcommit rfl
  have hafter : Run (reflowStep sampleReflow id) (Guarded sampleReflow id)
      (reflowAfter (promotedThenScanned.take 2)) (promotedThenScanned.drop 2)
      (reflowAfter promotedThenScanned) := Run.snoc (Run.snoc Run.nil hsecond rfl) hclose rfl
  obtain ⟨hminted, hclosed⟩ :=
    (reflow_bounded_and_closes hstart "wt").2 _ _ _ _ hbefore hafter (by decide +kernel)
  refine ⟨?_, hclosed ⟨_, mem_cons_of_mem _ (mem_singleton_self _)⟩⟩
  rw [hminted]
  decide +kernel

/-- A finding that triage minted stays open after its worktree was promoted and a closing round ran; and
a worktree that was closed without its directory gets a second finding. -/
theorem done_worktree_left_open :
    Run (reflowStep sampleReflow id) DrawnNew sampleStart triagedThenPromoted
        (reflowAfter triagedThenPromoted) ∧
      "wt" ∈ endedWorktrees (reflowAfter (triagedThenPromoted.take 2)).disk.log ∧
      ¬AllClosed "wt" (reflowAfter triagedThenPromoted) ∧
      Run (reflowStep sampleReflow id) DrawnNew sampleStart disposedThenScanned
        (reflowAfter disposedThenScanned) ∧
      "wt" ∈ endedWorktrees (reflowAfter (disposedThenScanned.take 2)).disk.log ∧
      (mintedFor "wt" (reflowAfter (disposedThenScanned.take 2))).length = 1 ∧
      (mintedFor "wt" (reflowAfter disposedThenScanned)).length = 2 := by
  have hnone : sampleStart.disk.log.filterMap createdFinding = [] := by decide +kernel
  have hfirst : ∀ path, DrawnNew sampleStart (.detect path 0 (drawnFrom "f-")) :=
    fun path => drawnFrom_new (by decide) (by simp [hnone])
  refine ⟨?_, by decide +kernel, ?_, ?_, by decide +kernel, by decide +kernel, by decide +kernel⟩
  · refine Run.snoc (Run.snoc (Run.snoc Run.nil (hfirst .triage) rfl) ?_ rfl) trivial rfl
    exact fun findingId _ => by simp [createdFinding, promotion]
  · intro hclosed
    have hresolved := hclosed ⟨"wt", 0, some (.triage, "f-wt")⟩ (by decide +kernel) .triage "f-wt" rfl
    revert hresolved
    decide +kernel
  · have hlogged : (reflowAfter (disposedThenScanned.take 3)).disk.log.filterMap createdFinding =
        ["f-wt"] := by decide +kernel
    have hcommit : DrawnNew (reflowAfter (disposedThenScanned.take 1)) (.commit disposal) :=
      fun findingId _ => by simp [createdFinding, disposal]
    have hclose : DrawnNew (reflowAfter (disposedThenScanned.take 2))
        (.close fun findingId => "evt-" ++ findingId) := trivial
    have hdone : Run (reflowStep sampleReflow id) DrawnNew sampleStart (disposedThenScanned.take 3)
        (reflowAfter (disposedThenScanned.take 3)) :=
      Run.snoc (Run.snoc (Run.snoc Run.nil (hfirst .stranded) rfl) hcommit rfl) hclose rfl
    exact Run.snoc hdone (drawnFrom_apart hlogged) rfl

end Flowness.Reflow
