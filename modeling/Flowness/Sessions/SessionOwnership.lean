import Flowness.Library.Alternation
import Flowness.Sessions.SessionLocks

/-!
Whose lock a session's file is. No operation holds the directory: a write and an unlink act by path on
what was read before. While they find it so, a session has one owner at a time, a sweep removes only
stale and malformed locks, and what was removed stays away until it is acquired again.
-/

namespace Flowness.Sessions

open Library Function

def SessionState.held (state : SessionState) (sessionId : String) : Option Bool :=
  standing (SessionEvent.acquires sessionId) (SessionEvent.removes sessionId) state.history

/-- One owner at a time, no removal of a live lock, and no return of a removed one. -/
structure LocksHold (state : SessionState) : Prop where
  oneOwner : ∀ sessionId,
    Alternates (SessionEvent.acquires sessionId) (SessionEvent.removes sessionId) state.history
  reapedStale : ∀ call name text, .reaped call name text ∈ state.history → call.mayRemove text = true
  gone : ∀ sessionId before event after, state.history = before ++ event :: after →
    event.removes sessionId = true → (∀ later ∈ after, later.acquires sessionId = false) →
      state.files sessionId = none

/-- What the history, the files and the processes in the middle of a sweep have to do with each
other. -/
structure LocksSound (state : SessionState) : Prop where
  oneOwner : ∀ sessionId,
    Alternates (SessionEvent.acquires sessionId) (SessionEvent.removes sessionId) state.history
  reapedStale : ∀ call name text, .reaped call name text ∈ state.history → call.mayRemove text = true
  readable : ∀ sessionId, state.held sessionId = some true → readLock (state.files sessionId) ≠ none
  absent : ∀ sessionId, state.held sessionId = some false → state.files sessionId = none
  unlinking : ∀ pid call purpose read name names,
    state.stages pid = .unlinking call purpose read name names →
      ∀ text, read = some text → call.mayRemove text = true

section

variable {state next : SessionState} {pid : Nat} {label : SessionLabel} {sessionId other : String}

theorem SessionEvent.not_acquires_of_removes {event : SessionEvent}
    (h : event.removes sessionId = true) : event.acquires sessionId = false := by
  cases event <;> first | rfl | cases h

@[simp] theorem held_setFile :
    (state.setFile other text).held sessionId = state.held sessionId := rfl

@[simp] theorem held_setStage :
    (state.setStage pid stage).held sessionId = state.held sessionId := rfl

theorem held_note : (state.note event).held sessionId =
    if event.acquires sessionId then some true else if event.removes sessionId then some false
    else state.held sessionId :=
  standing_snoc

theorem LocksSound.holds (h : LocksSound state) : LocksHold state where
  oneOwner := h.oneOwner
  reapedStale := h.reapedStale
  gone := by
    intro sessionId before event after hhistory hremoves hlater
    apply h.absent sessionId
    unfold SessionState.held
    rw [hhistory]
    exact standing_of_freed (SessionEvent.not_acquires_of_removes hremoves) hremoves hlater

theorem locksSound_initial (files : String → Option LockText) : LocksSound (.initial files) where
  oneOwner _ := alternates_nil
  reapedStale := by simp [SessionState.initial]
  readable := by simp [SessionState.held, SessionState.initial, standing]
  absent := by simp [SessionState.held, SessionState.initial, standing]
  unlinking := by simp [SessionState.initial]

section

variable (h : LocksSound state)
include h

theorem LocksSound.setStage
    (hunlinking : ∀ call purpose read name names, stage = .unlinking call purpose read name names →
      ∀ text, read = some text → call.mayRemove text = true) :
    LocksSound (state.setStage pid stage) := by
  refine { h with unlinking := fun other call purpose read name names hstage => ?_ }
  have hupdate : Function.update state.stages pid stage other = .unlinking call purpose read name names :=
    hstage
  by_cases hpid : other = pid
  · subst hpid
    rw [update_self] at hupdate
    exact hunlinking call purpose read name names hupdate
  · rw [update_of_ne hpid] at hupdate
    exact h.unlinking other call purpose read name names hupdate

theorem LocksSound.idle : LocksSound (state.setStage pid .idle) :=
  h.setStage (by simp)

theorem LocksSound.rewrite (hfile : state.files sessionId ≠ none) :
    LocksSound (state.setFile sessionId (some (.lock info))) := by
  refine { h with readable := fun other hheld => ?_, absent := fun other hheld => ?_ }
  · have hkept : readLock (state.files other) ≠ none := h.readable other hheld
    by_cases hname : other = sessionId
    · subst hname
      simp [readLock]
    · simpa [update_of_ne hname] using hkept
  · have hkept : state.files other = none := h.absent other hheld
    by_cases hname : other = sessionId
    · exact absurd (hname ▸ hkept) hfile
    · simpa [update_of_ne hname] using hkept

theorem LocksSound.acquired (hfile : readLock (state.files sessionId) = none) :
    LocksSound ((state.setFile sessionId (some (.lock info))).note (.acquired sessionId)) := by
  constructor
  · intro other
    refine (h.oneOwner other).snoc fun htakes hheld => ?_
    obtain rfl : sessionId = other := by simpa [SessionEvent.acquires] using htakes
    exact h.readable sessionId hheld hfile
  · intro call name text hmem
    exact h.reapedStale call name text (by simpa using hmem)
  · intro other hheld
    by_cases hname : other = sessionId
    · subst hname
      simp [readLock]
    · have hkept : state.held other = some true := by
        simpa [held_note, SessionEvent.acquires, SessionEvent.removes, Ne.symm hname] using hheld
      simpa [update_of_ne hname] using h.readable other hkept
  · intro other hheld
    by_cases hname : other = sessionId
    · subst hname
      simp [held_note, SessionEvent.acquires] at hheld
    · have hkept : state.held other = some false := by
        simpa [held_note, SessionEvent.acquires, SessionEvent.removes, Ne.symm hname] using hheld
      simpa [update_of_ne hname] using h.absent other hkept
  · exact h.unlinking

theorem LocksSound.refused : LocksSound (state.note (.refused sessionId)) where
  oneOwner other := (h.oneOwner other).snoc (by simp [SessionEvent.acquires])
  reapedStale call name text hmem := h.reapedStale call name text (by simpa using hmem)
  readable other hheld :=
    h.readable other (by simpa [held_note, SessionEvent.acquires, SessionEvent.removes] using hheld)
  absent other hheld :=
    h.absent other (by simpa [held_note, SessionEvent.acquires, SessionEvent.removes] using hheld)
  unlinking := h.unlinking

theorem LocksSound.removed (hacquires : ∀ text other, (event text).acquires other = false)
    (hremoves : ∀ text other, (event text).removes other = decide (sessionId = other))
    (hreaped : ∀ text, state.files sessionId = some text → ∀ call name told, event text =
      .reaped call name told → call.mayRemove told = true) :
    LocksSound (noteRemoved state sessionId event) := by
  unfold noteRemoved
  split
  next text htext =>
    have hheld : ∀ other, ((state.setFile sessionId none).note (event text)).held other =
        if sessionId = other then some false else state.held other := by
      intro other
      simp [held_note, hacquires, hremoves]
    constructor
    · intro other
      refine (h.oneOwner other).snoc fun htakes => ?_
      rw [hacquires] at htakes
      cases htakes
    · intro call name told hmem
      obtain hmem | hmem := List.mem_append.mp hmem
      · exact h.reapedStale call name told hmem
      · exact hreaped text htext call name told (List.mem_singleton.mp hmem).symm
    · intro other hother
      rw [hheld] at hother
      split at hother
      · cases hother
      next hname =>
        simpa [update_of_ne (Ne.symm hname)] using h.readable other hother
    · intro other hother
      rw [hheld] at hother
      by_cases hname : sessionId = other
      · simp [hname]
      · rw [if_neg hname] at hother
        simpa [update_of_ne (Ne.symm hname)] using h.absent other hother
    · exact h.unlinking
  · exact h

theorem LocksSound.step (hacts : actsOnRead state label = true)
    (hstep : sessionStep state label = some next) : LocksSound next := by
  obtain ⟨pid, action⟩ := label
  cases sessionStep_move hstep with
  | moved hunlinking => exact h.setStage hunlinking
  | refused hstage => exact h.refused.idle
  | acquired hstage =>
    simp only [actsOnRead, hstage, decide_eq_true_eq] at hacts
    exact (h.acquired hacts).idle
  | unlinked hstage =>
    rename_i call purpose read name names
    simp only [actsOnRead, hstage, decide_eq_true_eq] at hacts
    have hremoved : LocksSound (noteRemoved state name (.reaped call name)) := by
      refine h.removed (fun _ _ => rfl) (fun _ _ => rfl) fun text htext swept other told heq => ?_
      cases heq
      obtain hnone | hsame := hacts
      · rw [hnone] at htext
        cases htext
      · exact h.unlinking pid call purpose read name names hstage text (hsame ▸ htext)
    exact hremoved.setStage fun _ _ _ _ _ heq => absurd heq sweepNext_ne_unlinking
  | refreshed hstage =>
    simp only [actsOnRead, hstage, decide_eq_true_eq] at hacts
    exact (h.rewrite hacts).idle
  | notReleasing hfile => exact h
  | released hstage =>
    rename_i sessionId
    have hremoved : LocksSound (noteRemoved state sessionId fun _ => .released sessionId) :=
      h.removed (fun _ _ => rfl) (fun _ _ => rfl) (by simp)
    exact hremoved.idle

end

/-- While every write and unlink finds what was read before it, no interleaving of the calls breaks the
locks. -/
theorem sessionLocks_hold {files : String → Option LockText} {labels : List SessionLabel}
    (h : Run sessionStep (fun state label => actsOnRead state label = true) (.initial files) labels state) :
    LocksHold state :=
  (h.invariant (locksSound_initial files) fun _ _ _ hsound => hsound.step).holds

end

def sampleLock : SessionLockInfo :=
  { sessionId := "s-1", actorId := "actor-1", skillId := "plan", pid := 0, startedAtUnix := 0 }

def sampleCall (now : Int) : ReapCall :=
  { kind := "plan", now, staleAfter? := none, pidAlive := fun _ => true }

def sampleAcquire (pid : Nat) : List SessionLabel :=
  [⟨pid, .startSweep (sampleCall 0) (.acquire sampleLock) []⟩, ⟨pid, .acquireRead⟩]

def sampleHeartbeat (pid : Nat) (now : Int) : List SessionLabel :=
  [⟨pid, .startSweep (sampleCall 0) (.resolve none now) []⟩, ⟨pid, .listNames ["s-1"]⟩,
    ⟨pid, .readLive⟩, ⟨pid, .touchRead⟩]

def sampleSweep (pid : Nat) (now : Int) : List SessionLabel :=
  [⟨pid, .startSweep (sampleCall now) .reapStale ["s-1"]⟩, ⟨pid, .sweepRead⟩]

def runState (labels : List SessionLabel) : SessionState :=
  (labels.foldlM sessionStep (.initial fun _ => none)).getD (.initial fun _ => none)

/-- A session is acquired, refused to a second process, kept alive, released, and acquired and reaped
once more. -/
def sampleLife : List SessionLabel :=
  sampleAcquire 1 ++ [⟨1, .acquireWrite⟩] ++ sampleHeartbeat 1 50000 ++ [⟨1, .touchWrite⟩] ++
    sampleAcquire 2 ++ sampleSweep 3 50000 ++ [⟨1, .startRelease "s-1"⟩, ⟨1, .releaseUnlink⟩] ++
    sampleAcquire 2 ++ [⟨2, .acquireWrite⟩] ++ sampleSweep 3 50000 ++ [⟨3, .sweepUnlink⟩]

theorem sessionLocks_hold_over_sampleLife :
    LocksHold (runState sampleLife) ∧ (runState sampleLife).history =
      [.acquired "s-1", .refused "s-1", .released "s-1", .acquired "s-1",
        .reaped (sampleCall 50000) "s-1" (.lock sampleLock)] :=
  ⟨sessionLocks_hold (Run.of_check_isSome (fun _ _ h => h) (by decide +kernel)), by rfl⟩

/-- Two acquires read before either writes; a heartbeat refreshes the lock that a sweep has judged,
and another comes back with it after the sweep. -/
def lateWrites : List SessionLabel :=
  sampleAcquire 1 ++ sampleAcquire 2 ++ [⟨1, .acquireWrite⟩, ⟨2, .acquireWrite⟩] ++
    sampleSweep 3 50000 ++ sampleHeartbeat 1 50000 ++ sampleHeartbeat 2 50000 ++
    [⟨1, .touchWrite⟩, ⟨3, .sweepUnlink⟩, ⟨2, .touchWrite⟩]

theorem lateWrites_history : (runState lateWrites).history =
    [.acquired "s-1", .acquired "s-1",
      .reaped (sampleCall 50000) "s-1" (.lock { sampleLock with startedAtUnix := 50000 })] := by
  rfl

/-- Two owners at a time, a live lock reaped, and a reaped lock that is back. -/
theorem lateWrites_break_locks :
    Run sessionStep (fun _ _ => True) (.initial fun _ => none) lateWrites (runState lateWrites) ∧
      ¬ Alternates (SessionEvent.acquires "s-1") (SessionEvent.removes "s-1")
        (runState lateWrites).history ∧
      (∃ call name text, .reaped call name text ∈ (runState lateWrites).history ∧
        call.mayRemove text = false) ∧
      (∃ before event, (runState lateWrites).history = before ++ [event] ∧
        event.removes "s-1" = true ∧ (runState lateWrites).files "s-1" ≠ none) := by
  have hrun : Run sessionStep (fun _ _ => True) (.initial fun _ => none) lateWrites
      (runState lateWrites) := Run.of_steps rfl
  refine ⟨hrun, fun halternates => ?_, ?_, ?_⟩
  · obtain ⟨event, hmem, _⟩ := halternates [] (.acquired "s-1") [] (.acquired "s-1") _
      lateWrites_history rfl rfl
    cases hmem
  · rw [lateWrites_history]
    exact ⟨sampleCall 50000, "s-1", _, List.mem_cons_of_mem _ (List.mem_cons_of_mem _
      List.mem_cons_self), by decide⟩
  · rw [lateWrites_history]
    exact ⟨[.acquired "s-1", .acquired "s-1"], _, rfl, by decide, by decide +kernel⟩

end Flowness.Sessions
