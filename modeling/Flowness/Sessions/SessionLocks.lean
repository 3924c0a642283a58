import Flowness.Library.Transition
import Mathlib.Data.List.Sort
import Mathlib.Logic.Function.Basic
import Mathlib.Tactic.Simps.Basic

/-!
The session locks of one kind, at the grain of single file operations: `acquire`, `resolve` with its
heartbeat, `live_sessions`, `reap_stale` and `release` of any number of processes. A lock file is
replaced whole; a process may die before any operation.
-/

namespace Flowness.Sessions

structure SessionLockInfo where
  sessionId : String
  actorId : String
  skillId : String
  pid : Int
  startedAtUnix : Int
  parentSessionId : Option String := none
  forkId : Option String := none
deriving DecidableEq, Repr

/-- The text of a lock file, as `_read_lock` takes it; it raises over one that does not decode. -/
inductive LockText where
  | undecodable
  | malformed
  | lock (info : SessionLockInfo)
deriving DecidableEq, Repr

/-- `_read_lock` of a file that is there with this text, or is not there. -/
def readLock : Option LockText → Option SessionLockInfo
  | some (.lock info) => some info
  | _ => none

def SessionLockInfo.written (info : SessionLockInfo) : LockText :=
  .lock { info with parentSessionId := info.parentSessionId.filter (· ≠ "")
                    forkId := info.forkId.filter (· ≠ "") }

/-- `validate_session_id`. -/
def validSessionId (sessionId : String) : Bool :=
  sessionId ≠ "" ∧ sessionId.toList.all fun c => c.isAlphanum || c = '_' || c = '-'

/-- `_default_stale_after_s`: half an hour for executions, twelve hours for what people drive. -/
def defaultStaleAfter (kind : String) : Int := if kind = "execution" then 30 * 60 else 12 * 60 * 60

structure ReapCall where
  kind : String
  now : Int
  staleAfter? : Option Int
  pidAlive : Int → Bool

def ReapCall.staleAfter (call : ReapCall) : Int := call.staleAfter?.getD (defaultStaleAfter call.kind)

/-- `_is_stale`: the process behind the lock is dead, or its last sign of life too long ago. -/
def ReapCall.isStale (call : ReapCall) (info : SessionLockInfo) : Bool :=
  (0 < info.pid ∧ call.pidAlive info.pid = false) ∨ call.staleAfter < call.now - info.startedAtUnix

def ReapCall.mayRemove (call : ReapCall) : LockText → Bool
  | .undecodable => false
  | .malformed => true
  | .lock info => call.isStale info

inductive Purpose where
  | reapStale
  | acquire (info : SessionLockInfo)
  | liveSessions
  | resolve (explicitSessionId : Option String) (touchNow : Int)
deriving DecidableEq, Repr

inductive SessionStage where
  | idle
  | sweeping (call : ReapCall) (purpose : Purpose) (names : List String)
  /-- The first name could not be read and is read once more. -/
  | rereading (call : ReapCall) (purpose : Purpose) (name : String) (names : List String)
  /-- About to unlink a name over what was read there. -/
  | unlinking (call : ReapCall) (purpose : Purpose) (read : Option LockText) (name : String)
      (names : List String)
  | acquiring (info : SessionLockInfo)
  /-- No lock was read; about to write one. -/
  | writing (info : SessionLockInfo)
  | listing (purpose : Purpose)
  | reading (purpose : Purpose) (names : List String) (live : List SessionLockInfo)
  | touching (sessionId : String) (now : Int)
  /-- About to write back the lock that was read, with a new time. -/
  | refreshing (sessionId : String) (now : Int) (info : SessionLockInfo)
  | releasing (sessionId : String)

inductive SessionEvent where
  | acquired (sessionId : String)
  /-- `DuplicateSessionError`. -/
  | refused (sessionId : String)
  | released (sessionId : String)
  /-- A sweep has removed a lock file with this text. -/
  | reaped (call : ReapCall) (name : String) (text : LockText)

def SessionStage.readsNext : SessionStage → Option String
  | .sweeping _ _ names | .reading _ names _ => names.head?
  | .rereading _ _ name _ => some name
  | .acquiring info => some info.sessionId
  | .touching sessionId _ => some sessionId
  | _ => none

def SessionEvent.acquires (sessionId : String) : SessionEvent → Bool
  | .acquired other => other = sessionId
  | _ => false

def SessionEvent.removes (sessionId : String) : SessionEvent → Bool
  | .released other => other = sessionId
  | .reaped _ name _ => name = sessionId
  | _ => false

structure SessionState where
  files : String → Option LockText
  stages : Nat → SessionStage
  history : List SessionEvent

def SessionState.initial (files : String → Option LockText) : SessionState :=
  { files, stages := fun _ => .idle, history := [] }

namespace SessionState

variable (state : SessionState)

@[simps] def setStage (pid : Nat) (stage : SessionStage) : SessionState :=
  { state with stages := Function.update state.stages pid stage }

@[simps] def note (event : SessionEvent) : SessionState :=
  { state with history := state.history ++ [event] }

@[simps] def setFile (name : String) (text : Option LockText) : SessionState :=
  { state with files := Function.update state.files name text }

end SessionState

def afterSweep : Purpose → SessionStage
  | .reapStale => .idle
  | .acquire info => .acquiring info
  | purpose => .listing purpose

def sweepNext (call : ReapCall) (purpose : Purpose) : List String → SessionStage
  | [] => afterSweep purpose
  | names => .sweeping call purpose names

/-- `resolve` of the live sessions: the one to touch, unless it raises or there is none. -/
def resolved (explicitSessionId : Option String) (live : List SessionLockInfo) : Option String :=
  match explicitSessionId with
  | some sessionId => if live.any (·.sessionId = sessionId) then some sessionId else none
  | none =>
    match live with
    | [info] => some info.sessionId
    | _ => none

def afterReading (purpose : Purpose) (live : List SessionLockInfo) : SessionStage :=
  match purpose with
  | .resolve explicitSessionId touchNow =>
    match resolved explicitSessionId live with
    | some sessionId => .touching sessionId touchNow
    | none => .idle
  | _ => .idle

def readNext (purpose : Purpose) (live : List SessionLockInfo) : List String → SessionStage
  | [] => afterReading purpose live
  | names => .reading purpose names live

def sweepDecide (call : ReapCall) (purpose : Purpose) (text : LockText) (info : SessionLockInfo)
    (name : String) (names : List String) : SessionStage :=
  if call.isStale info then .unlinking call purpose (some text) name names
  else sweepNext call purpose names

inductive SessionAction where
  /-- The names that the scan of the directory gave; it is no atomic operation. -/
  | startSweep (call : ReapCall) (purpose : Purpose) (names : List String)
  | sweepRead
  | sweepReread
  | sweepUnlink
  | acquireRead
  | acquireWrite
  | listNames (names : List String)
  | readLive
  | touchRead
  | touchWrite
  | startRelease (sessionId : String)
  | releaseUnlink
  /-- The process dies, or an operation raises. -/
  | die

structure SessionLabel where
  pid : Nat
  action : SessionAction

/-- `acquire` raises before it sweeps when the id is not valid. -/
def mayStart : Purpose → Bool
  | .acquire info => validSessionId info.sessionId
  | _ => true

def noteRemoved (state : SessionState) (name : String) (event : LockText → SessionEvent) : SessionState :=
  match state.files name with
  | some text => (state.setFile name none).note (event text)
  | none => state

section

variable (state : SessionState) (pid : Nat)

def sessionStageStep : SessionStage → SessionAction → Option SessionState
  | .idle, .startSweep call purpose names =>
    if mayStart purpose then some (state.setStage pid (sweepNext call purpose names)) else none
  | .sweeping call purpose (name :: names), .sweepRead =>
    match state.files name with
    | some (.lock info) =>
      some (state.setStage pid (sweepDecide call purpose (.lock info) info name names))
    | _ => some (state.setStage pid (.rereading call purpose name names))
  | .rereading call purpose name names, .sweepReread =>
    match state.files name with
    | some (.lock info) =>
      some (state.setStage pid (sweepDecide call purpose (.lock info) info name names))
    | read => some (state.setStage pid (.unlinking call purpose read name names))
  | .unlinking call purpose _ name names, .sweepUnlink =>
    some ((noteRemoved state name (.reaped call name)).setStage pid (sweepNext call purpose names))
  | .acquiring info, .acquireRead =>
    match readLock (state.files info.sessionId) with
    | some _ => some ((state.note (.refused info.sessionId)).setStage pid .idle)
    | none => some (state.setStage pid (.writing info))
  | .writing info, .acquireWrite =>
    some (((state.setFile info.sessionId (some info.written)).note
      (.acquired info.sessionId)).setStage pid .idle)
  | .listing purpose, .listNames names => some (state.setStage pid (readNext purpose [] names))
  | .reading purpose (name :: names) live, .readLive =>
    some (state.setStage pid
      (readNext purpose (live ++ (readLock (state.files name)).toList) names))
  | .touching sessionId now, .touchRead =>
    match readLock (state.files sessionId) with
    | some info => some (state.setStage pid (.refreshing sessionId now info))
    | none => some (state.setStage pid .idle)
  | .refreshing sessionId now info, .touchWrite =>
    some ((state.setFile sessionId (some (.lock { info with startedAtUnix := now }))).setStage pid .idle)
  | .idle, .startRelease sessionId =>
    if (state.files sessionId).isSome then some (state.setStage pid (.releasing sessionId)) else some state
  | .releasing sessionId, .releaseUnlink =>
    some ((noteRemoved state sessionId (fun _ => .released sessionId)).setStage pid .idle)
  | _, .die => some (state.setStage pid .idle)
  | _, _ => none

end

def readRaises (state : SessionState) (stage : SessionStage) : Bool :=
  (stage.readsNext.bind state.files) = some .undecodable

def sessionStep (state : SessionState) (label : SessionLabel) : Option SessionState :=
  let stage := state.stages label.pid
  if readRaises state stage then some (state.setStage label.pid .idle)
  else sessionStageStep state label.pid stage label.action

/-- The steps of the process `pid`: the reads, that only bring it to its next stage, and the writes. -/
inductive SessionMove (state : SessionState) (pid : Nat) : SessionAction → SessionState → Prop
  | moved {action : SessionAction} {stage : SessionStage}
      (hunlinking : ∀ call purpose read name names, stage = .unlinking call purpose read name names →
        ∀ text, read = some text → call.mayRemove text = true) :
      SessionMove state pid action (state.setStage pid stage)
  | refused {info : SessionLockInfo} (hstage : state.stages pid = .acquiring info) :
      SessionMove state pid .acquireRead
        ((state.note (.refused info.sessionId)).setStage pid .idle)
  | acquired {info : SessionLockInfo} (hstage : state.stages pid = .writing info) :
      SessionMove state pid .acquireWrite
        (((state.setFile info.sessionId (some info.written)).note
          (.acquired info.sessionId)).setStage pid .idle)
  | unlinked {call : ReapCall} {purpose : Purpose} {read : Option LockText} {name : String}
      {names : List String} (hstage : state.stages pid = .unlinking call purpose read name names) :
      SessionMove state pid .sweepUnlink
        ((noteRemoved state name (.reaped call name)).setStage pid (sweepNext call purpose names))
  | refreshed {sessionId : String} {now : Int} {info : SessionLockInfo}
      (hstage : state.stages pid = .refreshing sessionId now info) :
      SessionMove state pid .touchWrite
        ((state.setFile sessionId (some (.lock { info with startedAtUnix := now }))).setStage pid .idle)
  | notReleasing {sessionId : String} (hfile : state.files sessionId = none) :
      SessionMove state pid (.startRelease sessionId) state
  | released {sessionId : String} (hstage : state.stages pid = .releasing sessionId) :
      SessionMove state pid .releaseUnlink
        ((noteRemoved state sessionId (fun _ => .released sessionId)).setStage pid .idle)

section

variable {state next : SessionState} {pid : Nat} {action : SessionAction} {call : ReapCall}
  {purpose : Purpose} {name : String} {names : List String}

theorem afterReading_ne_unlinking {read : Option LockText} {other : Purpose} :
    afterReading purpose live ≠ .unlinking call other read name names := by
  unfold afterReading
  split
  · split <;> nofun
  · nofun

theorem afterSweep_ne_unlinking {read : Option LockText} {other : Purpose} :
    afterSweep purpose ≠ .unlinking call other read name names := by
  cases purpose <;> nofun

theorem SessionMove.quiet
    (hstage : ∀ call purpose read name names, stage ≠ .unlinking call purpose read name names) :
    SessionMove state pid action (state.setStage pid stage) :=
  .moved fun call purpose read name names heq => absurd heq (hstage call purpose read name names)

theorem sweepNext_ne_unlinking {read : Option LockText} {other : Purpose} :
    sweepNext swept purpose rest ≠ .unlinking call other read name names := by
  cases rest with
  | nil => exact afterSweep_ne_unlinking
  | cons => nofun

theorem SessionMove.judged : SessionMove state pid action
      (state.setStage pid (sweepDecide call purpose (.lock info) info name names)) := by
  unfold sweepDecide
  split
  next hstale =>
    refine .moved fun other second read third rest heq text hread => ?_
    cases heq
    cases hread
    exact hstale
  · exact .quiet fun _ _ _ _ _ => sweepNext_ne_unlinking

theorem sessionStageStep_move (hstage : state.stages pid = stage)
    (hraises : readRaises state stage = false)
    (h : sessionStageStep state pid stage action = some next) :
    SessionMove state pid action next := by
  unfold sessionStageStep at h
  split at h
  · split at h
    · cases h
      exact .quiet fun _ _ _ _ _ => sweepNext_ne_unlinking
    · cases h
  · split at h
    · cases h
      exact .judged
    · cases h
      exact .quiet (by simp)
  next call purpose name names =>
    split at h
    · cases h
      exact .judged
    next hlock =>
      cases h
      refine .moved fun other second read third rest heq text hread => ?_
      cases heq
      cases text with
      | undecodable => simp [readRaises, SessionStage.readsNext, hread] at hraises
      | malformed => rfl
      | lock info => exact absurd hread (hlock info)
  · cases h
    exact .unlinked hstage
  · split at h
    · cases h
      exact .refused hstage
    · cases h
      exact .quiet (by simp)
  · cases h
    exact .acquired hstage
  next purpose names =>
    cases h
    refine .quiet fun _ _ _ _ _ => ?_
    cases names with
    | nil => exact afterReading_ne_unlinking
    | cons => nofun
  next purpose name names live =>
    cases h
    refine .quiet fun _ _ _ _ _ => ?_
    cases names with
    | nil => exact afterReading_ne_unlinking
    | cons => nofun
  · split at h
    · cases h
      exact .quiet (by simp)
    · cases h
      exact .quiet (by simp)
  · cases h
    exact .refreshed hstage
  · split at h
    · cases h
      exact .quiet (by simp)
    next hfile =>
      cases h
      exact .notReleasing (by simpa using hfile)
  · cases h
    exact .released hstage
  · cases h
    exact .quiet (by simp)
  · cases h

theorem sessionStep_move (h : sessionStep state label = some next) :
    SessionMove state label.pid label.action next := by
  simp only [sessionStep] at h
  split at h
  · cases h
    exact .quiet (by simp)
  next hraises =>
    exact sessionStageStep_move rfl (by simpa using hraises) h

end

/-- A write or an unlink finds what the process read before it: an acquire still no lock, a sweep what
it judged or nothing, a heartbeat some file. -/
def actsOnRead (state : SessionState) (label : SessionLabel) : Bool :=
  match state.stages label.pid, label.action with
  | .writing info, .acquireWrite => readLock (state.files info.sessionId) = none
  | .unlinking _ _ read name _, .sweepUnlink => state.files name = none ∨ state.files name = read
  | .refreshing sessionId _ _, .touchWrite => state.files sessionId ≠ none
  | _, _ => true

end Flowness.Sessions
