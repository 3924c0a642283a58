import Flowness.Library.Transition
import Mathlib.Logic.Function.Basic
import Mathlib.Tactic.Simps.Basic

/-!
The claim directory, at the grain of single file operations: `claim_task`, `renew_claim`,
`release_claim` and `reap_stale_claims` of any number of processes, each of which may die between
two operations or inside a truncating write.
-/

namespace Flowness.Awareness

open Option

/-- The file name stem of `_claim_path` and `_fence_path`. -/
def fileStem (taskId : String) : String :=
  String.ofList (taskId.toList.map fun c => if c = '/' ∨ c = '\\' then '_' else c)

structure ClaimInfo where
  claimant : String
  fencingToken : Nat
  ts : Int
  taskId : String
deriving DecidableEq, Repr

/-- The text of a `.claim` file; `garbled` is one that a shorter record was written into. -/
inductive ClaimText where
  | empty
  | record (info : ClaimInfo)
  | garbled (length : Nat)
deriving DecidableEq, Repr

/-- The text of a `.fence` file; a writer that dies past its truncation leaves it empty. -/
inductive FenceText where
  | empty
  | number (highest : Nat)
deriving DecidableEq, Repr

/-- The length of `json.dumps` of a record. -/
structure ClaimEnv where
  textLength : ClaimInfo → Nat

def ClaimEnv.length (env : ClaimEnv) : ClaimText → Nat
  | .empty => 0
  | .record info => env.textLength info
  | .garbled length => length

/-- `os.write(fd, …)` at offset zero of a file with this text. -/
def ClaimEnv.overlay (env : ClaimEnv) (text : ClaimText) (info : ClaimInfo) : ClaimText :=
  if env.length text ≤ env.textLength info then .record info else .garbled (env.length text)

structure ClaimCall where
  taskId : String
  claimant : String
deriving DecidableEq, Repr

def ClaimCall.stem (call : ClaimCall) : String := fileStem call.taskId

structure ReapCall where
  now : Int
  staleAfter : Int
deriving DecidableEq, Repr

/-- `age > stale_after_s` of a claim with this timestamp. -/
def ReapCall.stale (call : ReapCall) (ts : Int) : Bool := decide (call.staleAfter < call.now - ts)

/-- What a process has done of its call. Of the file it read a process keeps the text only; its
identity is for the statements. -/
inductive ClaimStage where
  | idle
  /-- `O_CREAT|O_EXCL` has won. -/
  | created (call : ClaimCall) (file : Nat)
  | fenceRead (call : ClaimCall) (file next : Nat)
  | fenced (call : ClaimCall) (file token : Nat)
  | renewing (call : ClaimCall) (file : Nat) (info : ClaimInfo)
  | releasing (call : ClaimCall) (file : Nat)
  | reaping (call : ReapCall) (names : List String)
  /-- The reaper is about to unlink the first name over what it read there. -/
  | unlinking (call : ReapCall) (read : Option (Nat × ClaimText)) (name : String)
      (names : List String)
deriving DecidableEq, Repr

inductive ClaimEvent where
  | created (call : ClaimCall) (file : Nat)
  /-- `already_claimed`, by the file in place. -/
  | refused (call : ClaimCall) (file : Nat)
  /-- The token has become the number in the fence. -/
  | issued (taskId : String) (token : Nat)
  | claimed (call : ClaimCall) (file token : Nat)
  | released (call : ClaimCall) (file : Nat)
  /-- Reaped as stale. -/
  | reaped (file : Nat) (info : ClaimInfo)
deriving DecidableEq, Repr

structure ClaimState where
  names : String → Option Nat
  texts : Nat → ClaimText
  nextFile : Nat
  fences : String → Option FenceText
  stages : Nat → ClaimStage
  history : List ClaimEvent

def ClaimState.initial : ClaimState :=
  { names := fun _ => none, texts := fun _ => .empty, nextFile := 0, fences := fun _ => none
    stages := fun _ => .idle, history := [] }

namespace ClaimState

variable (state : ClaimState)

@[simps] def setStage (pid : Nat) (stage : ClaimStage) : ClaimState :=
  { state with stages := Function.update state.stages pid stage }

@[simps] def note (event : ClaimEvent) : ClaimState := { state with history := state.history ++ [event] }

@[simps] def createFile (name : String) (text : ClaimText) : ClaimState :=
  { state with
    names := Function.update state.names name (some state.nextFile)
    texts := Function.update state.texts state.nextFile text
    nextFile := state.nextFile + 1 }

@[simps] def setText (file : Nat) (text : ClaimText) : ClaimState :=
  { state with texts := Function.update state.texts file text }

/-- `write_text`, which creates the file when it is missing. -/
def writeText (name : String) (text : ClaimText) : ClaimState :=
  match state.names name with
  | some file => state.setText file text
  | none => state.createFile name text

@[simp] theorem writeText_history (name : String) (text : ClaimText) :
    (state.writeText name text).history = state.history := by
  unfold writeText
  split <;> rfl

/-- `unlink(missing_ok=True)`. -/
@[simps] def unlink (name : String) : ClaimState :=
  { state with names := Function.update state.names name none }

@[simps] def setFence (name : String) (text : FenceText) : ClaimState :=
  { state with fences := Function.update state.fences name (some text) }

/-- `int(fp.read_text())`, or zero for a fence that is missing or empty. -/
def fenceNumber (name : String) : Nat :=
  match state.fences name with
  | some (.number highest) => highest
  | _ => 0

def readFile (name : String) : Option (Nat × ClaimText) :=
  (state.names name).map fun file => (file, state.texts file)

end ClaimState

/-- `read_claim` for a call, when it is the claimant's own. -/
def readOwn (state : ClaimState) (call : ClaimCall) : Option (Nat × ClaimInfo) :=
  match state.readFile call.stem with
  | some (file, .record info) => if info.claimant = call.claimant then some (file, info) else none
  | _ => none

def nextName (call : ReapCall) : List String → ClaimStage
  | [] => .idle
  | names => .reaping call names

/-- The reaper spares a claim that is fresh or whose session is live; it unlinks a stale one and
what it cannot read. -/
def spares (call : ReapCall) (live : Bool) : Option (Nat × ClaimText) → Bool
  | some (_, .record info) => !call.stale info.ts || live
  | _ => false

inductive ClaimAction where
  | startClaim (call : ClaimCall)
  | readFence
  | writeFence
  /-- The write into the open file, and the return with the token. -/
  | writeClaim (ts : Int)
  | startRenew (call : ClaimCall)
  | writeRenew (ts : Int)
  | startRelease (call : ClaimCall)
  | unlinkRelease
  /-- The names that the directory scan gave; it is no atomic operation. -/
  | startReap (call : ReapCall) (names : List String)
  | reapRead (live : Bool)
  | reapUnlink
  /-- The process dies, or an operation raises. -/
  | die
  /-- The process dies past the truncation of `write_text`. -/
  | dieTruncated
deriving DecidableEq, Repr

structure ClaimLabel where
  pid : Nat
  action : ClaimAction
deriving DecidableEq, Repr

def startClaim (state : ClaimState) (pid : Nat) (call : ClaimCall) : ClaimState :=
  match state.names call.stem with
  | some file => state.note (.refused call file)
  | none => ((state.createFile call.stem .empty).setStage pid (.created call state.nextFile)).note
      (.created call state.nextFile)

def startOwn (state : ClaimState) (pid : Nat) (call : ClaimCall)
    (stage : Nat → ClaimInfo → ClaimStage) : ClaimState :=
  match readOwn state call with
  | some (file, info) => state.setStage pid (stage file info)
  | none => state

def noteReaped (state : ClaimState) : Option (Nat × ClaimText) → ClaimState
  | some (file, .record info) => state.note (.reaped file info)
  | _ => state

section

variable (env : ClaimEnv) (state : ClaimState) (pid : Nat)

def stageStep : ClaimStage → ClaimAction → Option ClaimState
  | .idle, .startClaim call => some (startClaim state pid call)
  | .created call file, .readFence =>
    some (state.setStage pid (.fenceRead call file (state.fenceNumber call.stem + 1)))
  | .fenceRead call file next, .writeFence =>
    some (((state.setFence call.stem (.number next)).setStage pid (.fenced call file next)).note
      (.issued call.taskId next))
  | .fenceRead call _ _, .dieTruncated =>
    some ((state.setFence call.stem .empty).setStage pid .idle)
  | .fenced call file token, .writeClaim ts =>
    some (((state.setText file (env.overlay (state.texts file)
      ⟨call.claimant, token, ts, call.taskId⟩)).setStage pid .idle).note (.claimed call file token))
  | .idle, .startRenew call => some (startOwn state pid call (.renewing call))
  | .renewing call _ info, .writeRenew ts =>
    some ((state.writeText call.stem
      (.record ⟨call.claimant, info.fencingToken, ts, call.taskId⟩)).setStage pid .idle)
  | .renewing call _ _, .dieTruncated =>
    some ((state.writeText call.stem .empty).setStage pid .idle)
  | .idle, .startRelease call => some (startOwn state pid call fun file _ => .releasing call file)
  | .releasing call file, .unlinkRelease =>
    some (((state.unlink call.stem).setStage pid .idle).note (.released call file))
  | .idle, .startReap call names => some (state.setStage pid (nextName call names))
  | .reaping call (name :: names), .reapRead live =>
    let read := state.readFile name
    if spares call live read then some (state.setStage pid (nextName call names))
    else some (state.setStage pid (.unlinking call read name names))
  | .unlinking call read name names, .reapUnlink =>
    some (noteReaped ((state.unlink name).setStage pid (nextName call names)) read)
  | _, .die => some (state.setStage pid .idle)
  | _, _ => none

end

def claimStep (env : ClaimEnv) (state : ClaimState) (label : ClaimLabel) : Option ClaimState :=
  stageStep env state label.pid (state.stages label.pid) label.action

/-- The steps of the process `pid`, case by case. -/
inductive ClaimMove (env : ClaimEnv) (state : ClaimState) (pid : Nat) :
    ClaimAction → ClaimState → Prop
  | refused {call : ClaimCall} {file : Nat} (hstage : state.stages pid = .idle)
      (hname : state.names call.stem = some file) :
      ClaimMove env state pid (.startClaim call) (state.note (.refused call file))
  | created {call : ClaimCall} (hstage : state.stages pid = .idle)
      (hname : state.names call.stem = none) :
      ClaimMove env state pid (.startClaim call)
        (((state.createFile call.stem .empty).setStage pid (.created call state.nextFile)).note
          (.created call state.nextFile))
  | fenceRead {call : ClaimCall} {file : Nat} (hstage : state.stages pid = .created call file) :
      ClaimMove env state pid .readFence
        (state.setStage pid (.fenceRead call file (state.fenceNumber call.stem + 1)))
  | fenced {call : ClaimCall} {file next : Nat}
      (hstage : state.stages pid = .fenceRead call file next) :
      ClaimMove env state pid .writeFence
        (((state.setFence call.stem (.number next)).setStage pid (.fenced call file next)).note
          (.issued call.taskId next))
  | fenceTruncated {call : ClaimCall} {file next : Nat}
      (hstage : state.stages pid = .fenceRead call file next) :
      ClaimMove env state pid .dieTruncated ((state.setFence call.stem .empty).setStage pid .idle)
  | claimed {call : ClaimCall} {file token : Nat} {ts : Int}
      (hstage : state.stages pid = .fenced call file token) :
      ClaimMove env state pid (.writeClaim ts)
        (((state.setText file (env.overlay (state.texts file)
          ⟨call.claimant, token, ts, call.taskId⟩)).setStage pid .idle).note
            (.claimed call file token))
  | renewing {call : ClaimCall} {file : Nat} {info : ClaimInfo} (hstage : state.stages pid = .idle)
      (hread : readOwn state call = some (file, info)) :
      ClaimMove env state pid (.startRenew call) (state.setStage pid (.renewing call file info))
  | notRenewing {call : ClaimCall} (hstage : state.stages pid = .idle) :
      ClaimMove env state pid (.startRenew call) state
  | renewed {call : ClaimCall} {file : Nat} {info : ClaimInfo} {ts : Int}
      (hstage : state.stages pid = .renewing call file info) :
      ClaimMove env state pid (.writeRenew ts)
        ((state.writeText call.stem
          (.record ⟨call.claimant, info.fencingToken, ts, call.taskId⟩)).setStage pid .idle)
  | renewTruncated {call : ClaimCall} {file : Nat} {info : ClaimInfo}
      (hstage : state.stages pid = .renewing call file info) :
      ClaimMove env state pid .dieTruncated
        ((state.writeText call.stem .empty).setStage pid .idle)
  | releasing {call : ClaimCall} {file : Nat} {info : ClaimInfo} (hstage : state.stages pid = .idle)
      (hread : readOwn state call = some (file, info)) :
      ClaimMove env state pid (.startRelease call) (state.setStage pid (.releasing call file))
  | notReleasing {call : ClaimCall} (hstage : state.stages pid = .idle) :
      ClaimMove env state pid (.startRelease call) state
  | released {call : ClaimCall} {file : Nat} (hstage : state.stages pid = .releasing call file) :
      ClaimMove env state pid .unlinkRelease
        (((state.unlink call.stem).setStage pid .idle).note (.released call file))
  | scanned {call : ReapCall} {names : List String} (hstage : state.stages pid = .idle) :
      ClaimMove env state pid (.startReap call names) (state.setStage pid (nextName call names))
  | spared {call : ReapCall} {name : String} {names : List String} {live : Bool}
      (hstage : state.stages pid = .reaping call (name :: names)) :
      ClaimMove env state pid (.reapRead live) (state.setStage pid (nextName call names))
  | doomed {call : ReapCall} {name : String} {names : List String} {live : Bool}
      (hstage : state.stages pid = .reaping call (name :: names))
      (hspares : spares call live (state.readFile name) = false) :
      ClaimMove env state pid (.reapRead live)
        (state.setStage pid (.unlinking call (state.readFile name) name names))
  | reaped {call : ReapCall} {read : Option (Nat × ClaimText)} {name : String}
      {names : List String} (hstage : state.stages pid = .unlinking call read name names) :
      ClaimMove env state pid .reapUnlink
        (noteReaped ((state.unlink name).setStage pid (nextName call names)) read)
  | died : ClaimMove env state pid .die (state.setStage pid .idle)

theorem claimStep_move {env : ClaimEnv} {state next : ClaimState} {label : ClaimLabel}
    (h : claimStep env state label = some next) : ClaimMove env state label.pid label.action next := by
  obtain ⟨pid, action⟩ := label
  replace h : stageStep env state pid (state.stages pid) action = some next := h
  generalize hstage : state.stages pid = stage at h
  unfold stageStep at h
  split at h
  next call =>
    cases hname : state.names call.stem with
    | some file =>
      simp only [startClaim, hname, some.injEq] at h
      exact h ▸ .refused hstage hname
    | none =>
      simp only [startClaim, hname, some.injEq] at h
      exact h ▸ .created hstage hname
  · exact some.inj h ▸ .fenceRead hstage
  · exact some.inj h ▸ .fenced hstage
  · exact some.inj h ▸ .fenceTruncated hstage
  · exact some.inj h ▸ .claimed hstage
  next call =>
    cases hread : readOwn state call with
    | some read =>
      simp only [startOwn, hread, some.injEq] at h
      exact h ▸ .renewing hstage hread
    | none =>
      simp only [startOwn, hread, some.injEq] at h
      exact h ▸ .notRenewing hstage
  · exact some.inj h ▸ .renewed hstage
  · exact some.inj h ▸ .renewTruncated hstage
  next call =>
    cases hread : readOwn state call with
    | some read =>
      simp only [startOwn, hread, some.injEq] at h
      exact h ▸ .releasing hstage hread
    | none =>
      simp only [startOwn, hread, some.injEq] at h
      exact h ▸ .notReleasing hstage
  · exact some.inj h ▸ .released hstage
  · exact some.inj h ▸ .scanned hstage
  next call name names live =>
    cases hspares : spares call live (state.readFile name) with
    | true =>
      simp only [hspares, if_pos, some.injEq] at h
      exact h ▸ .spared hstage
    | false =>
      simp only [hspares, Bool.false_eq_true, if_false, some.injEq] at h
      exact h ▸ .doomed hstage hspares
  · exact some.inj h ▸ .reaped hstage
  · exact some.inj h ▸ .died
  · cases h

def actsOnRead (state : ClaimState) (label : ClaimLabel) : Bool :=
  match state.stages label.pid, label.action with
  | .renewing call file _, .writeRenew _ => decide (state.names call.stem = some file)
  | .renewing call file _, .dieTruncated => decide (state.names call.stem = some file)
  | .releasing call file, .unlinkRelease =>
    decide (state.names call.stem = none ∨ state.names call.stem = some file)
  | .unlinking _ read name _, .reapUnlink =>
    decide (state.names name = none ∨ state.readFile name = read)
  | _, _ => true

end Flowness.Awareness
