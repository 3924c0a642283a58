import Flowness.Library.Transition
import Flowness.Reflow.Scan

/-!
The rounds of reflow recovery. Three paths mint recovery findings under one marker, one counter and
one escalation for each worktree; a fourth round closes the findings of worktrees that are done.
-/

namespace Flowness.Reflow

open Library Planning

inductive RecoveryPath where
  | stranded
  | conflict
  | triage
deriving DecidableEq, Repr

def RecoveryPath.riskSurface : RecoveryPath → String
  | .stranded => "autonomous-valid-reflow-loop"
  | .conflict => conflictReflowRiskSurface
  | .triage => "never-destroy-stranded-salvage"

def recoveryFindingRiskSurfaces : List String :=
  [conflictReflowRiskSurface, "autonomous-valid-reflow-loop"]

def dispositionTerminalKinds : List String :=
  ["WorktreeClosed", "StrandedWorktreeDeletedEmptyShell", "StrandedWorktreeSupersededThenRemoved"]

structure Emission where
  worktreeId : String
  emittedAt : Int
  finding : Option (RecoveryPath × String)
deriving DecidableEq, Repr

structure ReflowState where
  disk : ReflowDisk
  emitted : List Emission

structure Drawn where
  findingId : String
  eventId : String

def recoveryFinding (path : RecoveryPath) (worktreeId : String) (drawn : Drawn) : ReflowRecord :=
  { eventId := drawn.eventId
    kind := "FindingCreated"
    payload := [("finding_id", .str drawn.findingId), ("risk_surface", .str path.riskSurface),
      ("target", .obj [("artifact", .str worktreeId)])] }

/-- `_emit_reflow_mint_cap_escalation`. -/
def mintCapEscalation (worktreeId eventId : String) : ReflowRecord :=
  { eventId := eventId
    kind := "GoalEscalationRaised"
    payload := [("decision_id", .str ("reflow-mint-cap-esc-" ++ worktreeId)),
      ("worktree_id", .str worktreeId)] }

/-- `_build_recovery_finding_resolved_intent`. -/
def recoveryFindingResolved (findingId eventId : String) : ReflowRecord :=
  { eventId := eventId
    kind := "FindingResolved"
    payload := [("finding_id", .str findingId), ("lifecycle_state", .str "resolved"),
      ("resolution", .str "confirmed_and_accepted")] }

def mintCount (disk : ReflowDisk) (worktreeId : String) : Nat :=
  (disk.mintCounts.get worktreeId).getD 0

section

variable (env : ReflowEnv) (strip : String → String)

def recoveryMarkerFresh (disk : ReflowDisk) (worktreeId : String) (now : Int) : Bool :=
  (disk.markers.get worktreeId).any fun written => decide (now - written < (env.staleAfter : Int))

/-- One worktree of a round: nothing while a fix is in flight or after the escalation, the
escalation at the cap, else a finding. -/
def mint (path : RecoveryPath) (now : Int) (drawn : String → Drawn) (state : ReflowState)
    (worktreeId : String) : ReflowState :=
  let disk := state.disk
  if recoveryMarkerFresh env disk worktreeId now then state
  else if env.mintCap ≤ mintCount disk worktreeId then
    if worktreeId ∈ disk.escalated then state
    else
      { disk := { disk with
          log := disk.log ++ [mintCapEscalation worktreeId (drawn worktreeId).eventId]
          escalated := disk.escalated ++ [worktreeId] }
        emitted := state.emitted ++ [⟨worktreeId, now, none⟩] }
  else
    { disk := { disk with
        log := disk.log ++ [recoveryFinding path worktreeId (drawn worktreeId)]
        markers := disk.markers.set worktreeId now
        mintCounts := disk.mintCounts.set worktreeId (mintCount disk worktreeId + 1) }
      emitted := state.emitted ++ [⟨worktreeId, now, some (path, (drawn worktreeId).findingId)⟩] }

def candidates (path : RecoveryPath) (disk : ReflowDisk) : List String :=
  match path with
  | .conflict => blockedWorktrees env strip disk
  | _ => (scanStrandedWorktrees env strip disk).map StrandedWorktree.worktreeId

/-- `reconcile_stranded_reflow`, `reconcile_blocked_reflows` and `triage_stranded_backlog`. -/
def detectRound (path : RecoveryPath) (now : Int) (drawn : String → Drawn) (state : ReflowState) :
    ReflowState :=
  (candidates env strip path state.disk).foldl (mint env path now drawn) state

end

def endedWorktree (record : ReflowRecord) : Option String :=
  if record.kind = "WorktreePromoted" then Json.nonBlank record.payload "task_id"
  else if record.kind ∈ dispositionTerminalKinds then Json.nonBlank record.payload "worktree_id"
  else none

def endedWorktrees (log : List ReflowRecord) : List String := log.filterMap endedWorktree

def closableFinding (record : ReflowRecord) : Option (String × String) :=
  if (Json.lookup record.src "risk_surface").text?.any (· ∈ recoveryFindingRiskSurfaces) = true then
    (createdFinding record).bind fun findingId =>
      (artifact record).map fun worktreeId => (findingId, worktreeId)
  else none

def resolvedFinding (record : ReflowRecord) : Option String :=
  if record.kind = "FindingResolved" then Json.nonBlank record.src "finding_id" else none

def resolvedFindings (log : List ReflowRecord) : List String := log.filterMap resolvedFinding

/-- `_scan_open_recovery_findings_and_terminal_evidence`, the findings to close. -/
def disposedFindings (log : List ReflowRecord) : List (String × String) :=
  (latest log closableFinding).filter fun finding =>
    decide (finding.1 ∉ resolvedFindings log ∧ finding.2 ∈ endedWorktrees log)

/-- `clear_reflow_conflict_mint_state`. -/
def clearMintState (disk : ReflowDisk) (worktreeId : String) : ReflowDisk :=
  { disk with
    mintCounts := disk.mintCounts.erase worktreeId
    escalated := disk.escalated.filter (· ≠ worktreeId) }

/-- One finding of `close_disposed_reflow_findings`. -/
def closeFinding (drawn : String → String) (disk : ReflowDisk) (finding : String × String) :
    ReflowDisk :=
  clearMintState
    { disk with log := disk.log ++ [recoveryFindingResolved finding.1 (drawn finding.1)] } finding.2

def closeRound (drawn : String → String) (state : ReflowState) : ReflowState :=
  { state with disk := (disposedFindings state.disk.log).foldl (closeFinding drawn) state.disk }

/-- A round, a record committed by others, or a change of the directories, the stamps, the commits that
main reaches and the conflict markers. -/
inductive ReflowAction where
  | detect (path : RecoveryPath) (now : Int) (drawn : String → Drawn)
  | close (drawn : String → String)
  | commit (record : ReflowRecord)
  | change (stamps : Dict String String) (worktrees reachable conflicts : List String)

def reflowStep (env : ReflowEnv) (strip : String → String) (state : ReflowState) :
    ReflowAction → Option ReflowState
  | .detect path now drawn => some (detectRound env strip path now drawn state)
  | .close drawn => some (closeRound drawn state)
  | .commit record => some { state with disk := { state.disk with log := state.disk.log ++ [record] } }
  | .change stamps worktrees reachable conflicts => some
      { state with disk := { state.disk with
        stamps := stamps, worktrees := worktrees, reachable := reachable, conflicts := conflicts } }

def mintedIds (state : ReflowState) : List String :=
  state.emitted.filterMap fun emission => emission.finding.map Prod.snd

def DrawnNew (state : ReflowState) : ReflowAction → Prop
  | .detect _ _ drawn =>
    (∀ worktreeId, (drawn worktreeId).findingId ≠ "" ∧
      (drawn worktreeId).findingId ∉ state.disk.log.filterMap createdFinding) ∧
    ∀ worktreeId other, (drawn worktreeId).findingId = (drawn other).findingId → worktreeId = other
  | .commit record => ∀ findingId ∈ mintedIds state, createdFinding record ≠ some findingId
  | _ => True

def emittedFor (worktreeId : String) (state : ReflowState) : List Emission :=
  state.emitted.filter fun emission => decide (emission.worktreeId = worktreeId)

def mintedFor (worktreeId : String) (state : ReflowState) : List Emission :=
  (emittedFor worktreeId state).filter fun emission => emission.finding.isSome

def escalatedFor (worktreeId : String) (state : ReflowState) : List Emission :=
  (emittedFor worktreeId state).filter fun emission => emission.finding.isNone

/-- At most the cap of findings and one escalation, and no two emissions within the stale window. -/
structure Bounded (env : ReflowEnv) (worktreeId : String) (state : ReflowState) : Prop where
  findings : (mintedFor worktreeId state).length ≤ env.mintCap
  escalations : (escalatedFor worktreeId state).length ≤ 1
  spaced : (emittedFor worktreeId state).Pairwise fun earlier later =>
    earlier.emittedAt + (env.staleAfter : Int) ≤ later.emittedAt

/-- Every finding minted for a worktree is resolved in the log. -/
def AllClosed (worktreeId : String) (state : ReflowState) : Prop :=
  ∀ emission ∈ mintedFor worktreeId state, ∀ path findingId,
    emission.finding = some (path, findingId) → findingId ∈ resolvedFindings state.disk.log

/-- A conflict marker of a worktree that is still there, and whose conflict no fix has resolved. -/
def Blocked (env : ReflowEnv) (strip : String → String) (disk : ReflowDisk) (worktreeId : String) :
    Prop :=
  worktreeId ∈ disk.conflicts ∧ worktreeId ∈ disk.worktrees ∧
    conflictReflowResolved env strip disk worktreeId = false

def Detected (env : ReflowEnv) (strip : String → String) (disk : ReflowDisk) (worktreeId : String) :
    RecoveryPath → Prop
  | .conflict => Blocked env strip disk worktreeId
  | _ => CompletedStranded disk worktreeId ∨ FixStranded env strip disk worktreeId

def Spared (env : ReflowEnv) (disk : ReflowDisk) (worktreeId : String) (now : Int) : Prop :=
  recoveryMarkerFresh env disk worktreeId now = true ∨ env.mintCap ≤ mintCount disk worktreeId

/-- A round detects a worktree with a terminal event only while it is spared, and a closing round meets
no open finding that triage minted for one. -/
def KeepsDone (env : ReflowEnv) (strip : String → String) (state : ReflowState) : ReflowAction → Prop
  | .detect path now _ => ∀ worktreeId ∈ endedWorktrees state.disk.log,
      Detected env strip state.disk worktreeId path → Spared env state.disk worktreeId now
  | .close _ => ∀ emission ∈ state.emitted, ∀ findingId,
      emission.finding = some (.triage, findingId) →
        emission.worktreeId ∈ endedWorktrees state.disk.log →
          findingId ∈ resolvedFindings state.disk.log
  | _ => True

structure Unminted (state : ReflowState) : Prop where
  markers : state.disk.markers = []
  mintCounts : state.disk.mintCounts = []
  escalated : state.disk.escalated = []
  emitted : state.emitted = []

end Flowness.Reflow
