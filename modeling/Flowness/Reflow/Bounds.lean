import Flowness.Reflow.Rounds

/-!
Recovery is bounded: while a worktree has no terminal event its counter counts the findings minted for
it, its marker holds the last of their times, and its escalation ends the minting.
-/

namespace Flowness.Reflow

open List Library Planning

section

variable {env : ReflowEnv} {strip : String → String} {path : RecoveryPath} {now : Int}
  {drawn : String → Drawn} {state next : ReflowState} {worktreeId other : String}

theorem mint_cases (env : ReflowEnv) (path : RecoveryPath) (now : Int) (drawn : String → Drawn)
    (state : ReflowState) (worktreeId : String) :
    mint env path now drawn state worktreeId = state ∨
    (recoveryMarkerFresh env state.disk worktreeId now = false ∧
      env.mintCap ≤ mintCount state.disk worktreeId ∧ worktreeId ∉ state.disk.escalated ∧
      mint env path now drawn state worktreeId =
        { disk := { state.disk with
            log := state.disk.log ++ [mintCapEscalation worktreeId (drawn worktreeId).eventId]
            escalated := state.disk.escalated ++ [worktreeId] }
          emitted := state.emitted ++ [⟨worktreeId, now, none⟩] }) ∨
    (recoveryMarkerFresh env state.disk worktreeId now = false ∧
      mintCount state.disk worktreeId < env.mintCap ∧
      mint env path now drawn state worktreeId =
        { disk := { state.disk with
            log := state.disk.log ++ [recoveryFinding path worktreeId (drawn worktreeId)]
            markers := state.disk.markers.set worktreeId now
            mintCounts :=
              state.disk.mintCounts.set worktreeId (mintCount state.disk worktreeId + 1) }
          emitted := state.emitted ++
            [⟨worktreeId, now, some (path, (drawn worktreeId).findingId)⟩] }) := by
  unfold mint
  by_cases hfresh : recoveryMarkerFresh env state.disk worktreeId now = true
  · simp [hfresh]
  · by_cases hcap : env.mintCap ≤ mintCount state.disk worktreeId
    · by_cases hescalated : worktreeId ∈ state.disk.escalated
      · simp [hfresh, hcap, hescalated]
      · simp [hfresh, hcap, hescalated]
    · simp [hfresh, hcap, Nat.lt_of_not_le hcap]

/-- The marker, the counter, the escalation and the emissions of a worktree are as before. -/
structure SameFor (worktreeId : String) (state next : ReflowState) : Prop where
  marker : next.disk.markers.get worktreeId = state.disk.markers.get worktreeId
  count : mintCount next.disk worktreeId = mintCount state.disk worktreeId
  escalated : worktreeId ∈ next.disk.escalated ↔ worktreeId ∈ state.disk.escalated
  emitted : emittedFor worktreeId next = emittedFor worktreeId state

theorem SameFor.refl (worktreeId : String) (state : ReflowState) : SameFor worktreeId state state :=
  ⟨rfl, rfl, Iff.rfl, rfl⟩

theorem mint_other (env : ReflowEnv) (path : RecoveryPath) (now : Int) (drawn : String → Drawn)
    (state : ReflowState) (hother : other ≠ worktreeId) :
    SameFor worktreeId state (mint env path now drawn state other) := by
  have hne : worktreeId ≠ other := fun h => hother h.symm
  obtain h | ⟨-, -, -, h⟩ | ⟨-, -, h⟩ := mint_cases env path now drawn state other
  · rw [h]
    exact SameFor.refl worktreeId state
  · rw [h]
    refine ⟨rfl, rfl, ?_, ?_⟩
    · simp [hne]
    · simp [emittedFor, hother]
  · rw [h]
    refine ⟨?_, ?_, Iff.rfl, ?_⟩
    · exact Dict.get_set_of_ne _ _ hne
    · simp only [mintCount, Dict.get_set_of_ne _ _ hne]
    · simp [emittedFor, hother]

theorem SameFor.minted (h : SameFor worktreeId state next) :
    mintedFor worktreeId next = mintedFor worktreeId state := by
  simp only [mintedFor, h.emitted]

theorem SameFor.spared (h : SameFor worktreeId state next) :
    Spared env next.disk worktreeId now ↔ Spared env state.disk worktreeId now := by
  simp only [Spared, recoveryMarkerFresh, h.marker, h.count]

/-- While nothing clears it, the counter of a worktree counts its findings, its marker is not older than
any of them, and its escalation stands for a spent budget. -/
structure Budget (env : ReflowEnv) (worktreeId : String) (state : ReflowState) : Prop where
  counted : mintCount state.disk worktreeId = (mintedFor worktreeId state).length
  within : mintCount state.disk worktreeId ≤ env.mintCap
  marked : ∀ emission ∈ mintedFor worktreeId state, ∃ written,
    state.disk.markers.get worktreeId = some written ∧ emission.emittedAt ≤ written
  spaced : (emittedFor worktreeId state).Pairwise fun earlier later =>
    earlier.emittedAt + (env.staleAfter : Int) ≤ later.emittedAt
  unescalated : worktreeId ∉ state.disk.escalated → escalatedFor worktreeId state = []
  once : (escalatedFor worktreeId state).length ≤ 1
  spent : worktreeId ∈ state.disk.escalated → env.mintCap ≤ mintCount state.disk worktreeId

theorem Budget.bounded (h : Budget env worktreeId state) : Bounded env worktreeId state where
  findings := h.counted ▸ h.within
  escalations := h.once
  spaced := h.spaced

theorem Budget.same (h : Budget env worktreeId state) (hsame : SameFor worktreeId state next) :
    Budget env worktreeId next where
  counted := by rw [hsame.count, hsame.minted, h.counted]
  within := by rw [hsame.count]; exact h.within
  marked := by rw [hsame.minted, hsame.marker]; exact h.marked
  spaced := by rw [hsame.emitted]; exact h.spaced
  unescalated := by
    intro hnot
    rw [escalatedFor, hsame.emitted]
    exact h.unescalated fun hin => hnot (hsame.escalated.mpr hin)
  once := by rw [escalatedFor, hsame.emitted]; exact h.once
  spent := by
    intro hin
    rw [hsame.count]
    exact h.spent (hsame.escalated.mp hin)

theorem Budget.unminted (h : Unminted state) : Budget env worktreeId state where
  counted := by simp [mintCount, h.mintCounts, mintedFor, emittedFor, h.emitted]
  within := by simp [mintCount, h.mintCounts]
  marked := by simp [mintedFor, emittedFor, h.emitted]
  spaced := by simp [emittedFor, h.emitted]
  unescalated := by simp [escalatedFor, emittedFor, h.emitted]
  once := by simp [escalatedFor, emittedFor, h.emitted]
  spent := by simp [h.escalated]

section

variable (h : Budget env worktreeId state)
include h

theorem Budget.earlier (hfresh : recoveryMarkerFresh env state.disk worktreeId now = false)
    (hnot : worktreeId ∉ state.disk.escalated) :
    ∀ emission ∈ emittedFor worktreeId state, emission.emittedAt + (env.staleAfter : Int) ≤ now := by
  intro emission hmem
  have hfinding : emission.finding.isSome = true := by
    by_contra hnone
    have hescalation : emission ∈ escalatedFor worktreeId state :=
      mem_filter.mpr ⟨hmem, by simpa using hnone⟩
    rw [h.unescalated hnot] at hescalation
    exact absurd hescalation not_mem_nil
  obtain ⟨written, hmarker, hle⟩ := h.marked emission (mem_filter.mpr ⟨hmem, hfinding⟩)
  simp only [recoveryMarkerFresh, hmarker, Option.any_some, decide_eq_false_iff_not] at hfresh
  omega

theorem Budget.mint_self : Budget env worktreeId (mint env path now drawn state worktreeId) := by
  obtain hsame | ⟨hfresh, hcap, hnot, hmint⟩ | ⟨hfresh, hcap, hmint⟩ :=
    mint_cases env path now drawn state worktreeId
  · rw [hsame]
    exact h
  · -- the one escalation
    have hminted : mintedFor worktreeId (mint env path now drawn state worktreeId) =
        mintedFor worktreeId state := by
      simp [hmint, mintedFor, emittedFor]
    have hemitted : emittedFor worktreeId (mint env path now drawn state worktreeId) =
        emittedFor worktreeId state ++ [⟨worktreeId, now, none⟩] := by
      simp [hmint, emittedFor]
    have hcount : mintCount (mint env path now drawn state worktreeId).disk worktreeId =
        mintCount state.disk worktreeId := by rw [hmint]; rfl
    refine ⟨?_, ?_, ?_, ?_, ?_, ?_, ?_⟩
    · rw [hcount, hminted, h.counted]
    · rw [hcount]
      exact h.within
    · rw [hminted, hmint]
      exact h.marked
    · rw [hemitted, pairwise_append]
      refine ⟨h.spaced, pairwise_singleton _ _, fun emission hmem last hlast => ?_⟩
      rw [mem_singleton.mp hlast]
      exact h.earlier hfresh hnot emission hmem
    · intro hout
      exact absurd (by simp [hmint]) hout
    · simp [escalatedFor, hemitted, show (emittedFor worktreeId state).filter
        (fun emission => emission.finding.isNone) = [] from h.unescalated hnot]
    · intro _
      rw [hcount]
      exact hcap
  · -- one more finding
    have hnot : worktreeId ∉ state.disk.escalated := fun hin => by
      have := h.spent hin
      omega
    have hemitted : emittedFor worktreeId (mint env path now drawn state worktreeId) =
        emittedFor worktreeId state ++
          [⟨worktreeId, now, some (path, (drawn worktreeId).findingId)⟩] := by
      simp [hmint, emittedFor]
    have hminted : mintedFor worktreeId (mint env path now drawn state worktreeId) =
        mintedFor worktreeId state ++
          [⟨worktreeId, now, some (path, (drawn worktreeId).findingId)⟩] := by
      simp [mintedFor, hemitted]
    have hcount : mintCount (mint env path now drawn state worktreeId).disk worktreeId =
        mintCount state.disk worktreeId + 1 := by simp [hmint, mintCount]
    have hescalated : escalatedFor worktreeId (mint env path now drawn state worktreeId) = [] := by
      simp [escalatedFor, hemitted, show (emittedFor worktreeId state).filter
        (fun emission => emission.finding.isNone) = [] from h.unescalated hnot]
    refine ⟨?_, ?_, ?_, ?_, ?_, ?_, ?_⟩
    · rw [hcount, hminted, h.counted]
      simp
    · rw [hcount]
      omega
    · rw [hminted]
      intro emission hmem
      refine ⟨now, by simp [hmint], ?_⟩
      obtain hmem | hmem := mem_append.mp hmem
      · have hearlier := h.earlier hfresh hnot emission (mem_filter.mp hmem).1
        omega
      · rw [mem_singleton.mp hmem]
    · rw [hemitted, pairwise_append]
      refine ⟨h.spaced, pairwise_singleton _ _, fun emission hmem last hlast => ?_⟩
      rw [mem_singleton.mp hlast]
      exact h.earlier hfresh hnot emission hmem
    · exact fun _ => hescalated
    · simp [hescalated]
    · intro hin
      rw [hmint] at hin
      exact absurd hin hnot

theorem Budget.detect : Budget env worktreeId (detectRound env strip path now drawn state) := by
  unfold detectRound
  generalize candidates env strip path state.disk = worktrees
  induction worktrees generalizing state with
  | nil => exact h
  | cons other worktrees ih =>
    apply ih
    by_cases hother : other = worktreeId
    · rw [hother]
      exact h.mint_self
    · exact h.same (mint_other env path now drawn _ hother)

end

theorem mint_log (env : ReflowEnv) (path : RecoveryPath) (now : Int) (drawn : String → Drawn)
    (state : ReflowState) (worktreeId : String) :
    state.disk.log ⊆ (mint env path now drawn state worktreeId).disk.log := by
  obtain h | ⟨-, -, -, h⟩ | ⟨-, -, h⟩ := mint_cases env path now drawn state worktreeId
  · rw [h]
    exact List.Subset.refl _
  · rw [h]
    exact subset_append_left _ _
  · rw [h]
    exact subset_append_left _ _

theorem detect_log (env : ReflowEnv) (strip : String → String) (path : RecoveryPath) (now : Int)
    (drawn : String → Drawn) (state : ReflowState) :
    state.disk.log ⊆ (detectRound env strip path now drawn state).disk.log := by
  unfold detectRound
  generalize candidates env strip path state.disk = worktrees
  induction worktrees generalizing state with
  | nil => exact List.Subset.refl _
  | cons worktreeId worktrees ih =>
    exact List.Subset.trans (mint_log env path now drawn state worktreeId) (ih _)

theorem close_log (drawn : String → String) (findings : List (String × String)) (disk : ReflowDisk) :
    disk.log ⊆ (findings.foldl (closeFinding drawn) disk).log := by
  induction findings generalizing disk with
  | nil => exact List.Subset.refl _
  | cons finding findings ih =>
    exact List.Subset.trans (subset_append_left _ _) (ih (closeFinding drawn disk finding))

theorem reflowStep_log (h : reflowStep env strip state action = some next) :
    state.disk.log ⊆ next.disk.log := by
  cases action with
  | detect path now drawn =>
    cases h
    exact detect_log env strip path now drawn state
  | close drawn =>
    cases h
    exact close_log drawn _ state.disk
  | commit record =>
    cases h
    exact subset_append_left _ _
  | change stamps worktrees reachable conflicts =>
    cases h
    exact List.Subset.refl _

theorem endedWorktrees_mono (h : log ⊆ later) : endedWorktrees log ⊆ endedWorktrees later := by
  intro worktreeId hmem
  obtain ⟨record, hrecord, hended⟩ := mem_filterMap.mp hmem
  exact mem_filterMap.mpr ⟨record, h hrecord, hended⟩

theorem resolvedFindings_mono (h : log ⊆ later) :
    resolvedFindings log ⊆ resolvedFindings later := by
  intro findingId hmem
  obtain ⟨record, hrecord, hresolved⟩ := mem_filterMap.mp hmem
  exact mem_filterMap.mpr ⟨record, h hrecord, hresolved⟩

theorem closeFinding_other {drawn : String → String} (hother : finding.2 ≠ worktreeId) :
    SameFor worktreeId ⟨disk, emitted⟩ ⟨closeFinding drawn disk finding, emitted⟩ where
  marker := rfl
  count := by
    simp only [mintCount, closeFinding, clearMintState,
      Dict.get_erase_of_ne _ (fun h : worktreeId = finding.2 => hother h.symm)]
  escalated := by
    have hne : worktreeId ≠ finding.2 := fun h => hother h.symm
    simp [closeFinding, clearMintState, hne]
  emitted := rfl

theorem Budget.close (h : Budget env worktreeId state) {drawn : String → String}
    (hopen : worktreeId ∉ endedWorktrees state.disk.log) :
    Budget env worktreeId (closeRound drawn state) := by
  have hothers : ∀ finding ∈ disposedFindings state.disk.log, finding.2 ≠ worktreeId := by
    intro finding hmem hsame
    have hended := (mem_filter.mp hmem).2
    simp only [decide_eq_true_eq] at hended
    exact hopen (hsame ▸ hended.2)
  obtain ⟨disk, emitted⟩ := state
  unfold closeRound
  generalize disposedFindings disk.log = findings at hothers
  clear hopen
  induction findings generalizing disk with
  | nil => exact h
  | cons finding findings ih =>
    exact ih _ (h.same (closeFinding_other (hothers finding mem_cons_self)))
      fun other hmem => hothers other (mem_cons_of_mem _ hmem)

theorem budget_of_run {guard : ReflowState → ReflowAction → Prop} (hstart : Unminted start)
    (hrun : Run (reflowStep env strip) guard start actions state)
    (hopen : worktreeId ∉ endedWorktrees state.disk.log) : Budget env worktreeId state := by
  have hkept : worktreeId ∉ endedWorktrees state.disk.log → Budget env worktreeId state := by
    refine hrun.invariant (I := fun state => worktreeId ∉ endedWorktrees state.disk.log →
      Budget env worktreeId state) (fun _ => Budget.unminted hstart) ?_
    intro state action next hbudget _ hstep hopen
    have hbefore : worktreeId ∉ endedWorktrees state.disk.log :=
      fun hin => hopen (endedWorktrees_mono (reflowStep_log hstep) hin)
    have hbudget := hbudget hbefore
    cases action with
    | detect path now drawn =>
      cases hstep
      exact hbudget.detect
    | close drawn =>
      cases hstep
      exact hbudget.close hbefore
    | commit record =>
      cases hstep
      exact hbudget.same ⟨rfl, rfl, Iff.rfl, rfl⟩
    | change stamps worktrees reachable conflicts =>
      cases hstep
      exact hbudget.same ⟨rfl, rfl, Iff.rfl, rfl⟩
  exact hkept hopen

end

end Flowness.Reflow
