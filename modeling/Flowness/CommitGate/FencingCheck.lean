import Flowness.Awareness.ClaimTokens
import Flowness.Ledger.Log
import Flowness.Schemas.PayloadAccess

/-!
The fencing check of the gate among the calls on the claim directory: one fence is read for each
intent, and the batch is appended at some later time.
-/

namespace Flowness.CommitGate

open Option Library Schemas Ledger Awareness

/-- The value of an `isinstance(value, int)`; a `bool` is one. -/
def pyInt : Json → Option Int
  | .int value => some value
  | .bool value => some (if value then 1 else 0)
  | _ => none

/-- `str(token)`. -/
def pyIntText : Json → String
  | .bool true => "True"
  | .bool false => "False"
  | .int value => toString value
  | _ => ""

/-- The task and the fencing token of a `TaskRunCompleted`, when the check applies to it. -/
def carriedToken (intent : EventIntent) : Option (String × Int) :=
  if intent.eventType = .taskRunCompleted then
    let after := intent.payload.afterState
    (pyInt (Json.lookup after "fencing_token")).bind fun token =>
      (Json.nonBlank after "task_id").map fun taskId => (taskId, token)
  else none

structure FencingCheckResult where
  passed : Bool
  failureReason : Option String
  failureEvidence : List (String × String)
  wouldReject : Bool
  enforceEnabled : Bool
deriving DecidableEq, Repr

def staleReason : String :=
  "fencing token 落后于当前最高世代 (被抢锁的旧会话复活后迟到写; Kleppmann 时序脑裂) — 资源侧拒过期写"

def staleResult (enforce : Bool) (taskId carried : String) (current : Nat) : FencingCheckResult :=
  { passed := !enforce
    failureReason := if enforce then some "fencing_token_stale" else none
    failureEvidence := [("task_id", taskId), ("carried_token", carried),
      ("current_highest_fence", toString current), ("reason", staleReason)]
    wouldReject := true
    enforceEnabled := enforce }

def readFence (state : ClaimState) (taskId : String) : Option Nat :=
  match state.fences (fileStem taskId) with
  | some (.number highest) => some highest
  | _ => none

/-- One turn of the loop of `check_fencing_token`: a result ends it. -/
def checkFencingToken (enforce : Bool) (state : ClaimState) (intent : EventIntent) :
    Option FencingCheckResult :=
  match carriedToken intent with
  | none => none
  | some (taskId, token) =>
    match readFence state taskId with
    | none => none
    | some current =>
      if token = current then none
      else some (staleResult enforce taskId
        (pyIntText (Json.lookup intent.payload.afterState "fencing_token")) current)

inductive GateRun where
  | idle
  /-- The intents whose fences have been compared, and the ones to come. -/
  | checking (enforce : Bool) (compared remaining : List EventIntent)
  /-- The fencing check has passed the batch. -/
  | checked (batch : List EventIntent)

/-- A committed `TaskRunCompleted` with a token, and what had happened before. -/
structure FencedCommit where
  taskId : String
  token : Int
  before : List ClaimEvent

structure FencedState where
  claims : ClaimState
  gates : List GateRun
  commits : List FencedCommit

def FencedState.initial (gates : Nat) : FencedState := ⟨.initial, List.replicate gates .idle, []⟩

inductive FencedAction where
  | claim (label : ClaimLabel)
  /-- `fencing_enforce_enabled` is read once, before the loop. -/
  | startCheck (gate : Nat) (enforce : Bool) (batch : List EventIntent)
  | examine (gate : Nat)
  /-- The other checks, an audit and the re-check of the freshness are behind. -/
  | append (gate : Nat)
  /-- Another check rejects, or the process dies. -/
  | abandon (gate : Nat)

def nextIntent (enforce : Bool) (compared : List EventIntent) : List EventIntent → GateRun
  | [] => .checked compared
  | remaining => .checking enforce compared remaining

def afterTurn (enforce : Bool) (compared : List EventIntent) (intent : EventIntent)
    (remaining : List EventIntent) : Option FencingCheckResult → GateRun
  | none => nextIntent enforce (compared ++ [intent]) remaining
  | some result => if result.passed then .checked (compared ++ intent :: remaining) else .idle

def commitsOf (history : List ClaimEvent) (batch : List EventIntent) : List FencedCommit :=
  batch.filterMap fun intent => (carriedToken intent).map fun carried => ⟨carried.1, carried.2, history⟩

def gateStep (state : FencedState) (gate : Nat) : GateRun → FencedAction → Option FencedState
  | .idle, .startCheck _ enforce batch =>
    some { state with gates := state.gates.set gate (nextIntent enforce [] batch) }
  | .checking enforce compared (intent :: remaining), .examine _ =>
    let result := checkFencingToken enforce state.claims intent
    some { state with
      gates := state.gates.set gate (afterTurn enforce compared intent remaining result) }
  | .checked batch, .append _ =>
    some { state with
      gates := state.gates.set gate .idle
      commits := state.commits ++ commitsOf state.claims.history batch }
  | _, .abandon _ => some { state with gates := state.gates.set gate .idle }
  | _, _ => none

def fencedStep (env : ClaimEnv) (state : FencedState) (action : FencedAction) : Option FencedState :=
  match action with
  | .claim label => (claimStep env state.claims label).map fun claims => { state with claims }
  | .startCheck gate _ _ | .examine gate | .append gate | .abandon gate =>
    (state.gates[gate]?).bind fun run => gateStep state gate run action

def GateRun.compared : GateRun → List EventIntent
  | .idle => []
  | .checking _ compared _ => compared
  | .checked batch => batch

/-- The fence of the task is readable and holds the highest token, if one was issued. -/
def FenceCurrent (state : ClaimState) (taskId : String) : Prop :=
  ∀ token, .issued taskId token ∈ state.history →
    ∃ highest, readFence state taskId = some highest ∧ token ≤ highest

def issuedTask (state : ClaimState) (label : ClaimLabel) : Option String :=
  match state.stages label.pid, label.action with
  | .fenceRead call _ _, .writeFence => some call.taskId
  | _, _ => none

/-- Enforcement is on and the fence current when a token is compared, and no token is issued for its
task until the batch is appended. -/
def FencingHolds (state : FencedState) : FencedAction → Prop
  | .claim label => ∀ run ∈ state.gates, ∀ intent ∈ run.compared, ∀ taskId token,
      carriedToken intent = some (taskId, token) → issuedTask state.claims label ≠ some taskId
  | .examine gate => ∀ enforce compared intent remaining,
      state.gates[gate]? = some (.checking enforce compared (intent :: remaining)) →
      ∀ taskId token, carriedToken intent = some (taskId, token) →
        enforce = true ∧ FenceCurrent state.claims taskId
  | _ => True

def Current (history : List ClaimEvent) (intent : EventIntent) : Prop :=
  ∀ taskId token, carriedToken intent = some (taskId, token) →
    ∀ issued : Nat, .issued taskId issued ∈ history → (issued : Int) ≤ token

structure FencingSound (state : FencedState) : Prop where
  compared : ∀ run ∈ state.gates, ∀ intent ∈ run.compared, Current state.claims.history intent
  commits : ∀ commit ∈ state.commits, ∀ issued : Nat, .issued commit.taskId issued ∈ commit.before →
    (issued : Int) ≤ commit.token

section

variable {env : ClaimEnv} {state next : FencedState}

theorem fencingSound_initial (gates : Nat) : FencingSound (.initial gates) := by
  constructor
  · intro run hrun intent hintent
    rw [List.eq_of_mem_replicate hrun] at hintent
    exact absurd hintent List.not_mem_nil
  · intro commit hcommit
    exact absurd hcommit List.not_mem_nil

theorem issued_of_step (hstep : claimStep env claims label = some after)
    (hissued : .issued taskId token ∈ after.history) :
    .issued taskId token ∈ claims.history ∨ issuedTask claims label = some taskId := by
  have hmove := claimStep_move hstep
  unfold issuedTask
  generalize label.action = action at hmove ⊢
  generalize label.pid = pid at hmove ⊢
  cases hmove with
  | fenced hstage =>
    rw [hstage]
    obtain hmem | hmem := mem_note.mp hissued
    · exact .inl hmem
    · cases hmem
      exact .inr rfl
  | reaped hstage =>
    left
    unfold noteReaped at hissued
    split at hissued
    · simpa using hissued
    · exact hissued
  | renewed hstage =>
    left
    simpa [ClaimState.writeText_history] using hissued
  | renewTruncated hstage =>
    left
    simpa [ClaimState.writeText_history] using hissued
  | _ => exact .inl (by simpa using hissued)

theorem FencingSound.setRun (h : FencingSound state) (gate : Nat)
    (hrun : ∀ intent ∈ run.compared, Current state.claims.history intent) :
    FencingSound { state with gates := state.gates.set gate run } := by
  refine { h with compared := fun other hother => ?_ }
  obtain hmem | rfl := List.mem_or_eq_of_mem_set hother
  · exact h.compared other hmem
  · exact hrun

theorem current_of_turn
    (hguard : ∀ taskId token, carriedToken intent = some (taskId, token) → FenceCurrent claims taskId)
    (hturn : checkFencingToken true claims intent = none) : Current claims.history intent := by
  intro taskId token hcarried issued hissued
  obtain ⟨highest, hread, hle⟩ := hguard taskId token hcarried issued hissued
  simp only [checkFencingToken, hcarried, hread] at hturn
  have htoken : token = highest := by
    by_contra hne
    rw [if_neg hne] at hturn
    cases hturn
  omega

theorem nextIntent_compared (enforce : Bool) (compared remaining : List EventIntent) :
    (nextIntent enforce compared remaining).compared = compared := by
  cases remaining <;> rfl

section

variable (h : FencingSound state)
include h

theorem FencingSound.examined {gate : Nat} {enforce : Bool} {compared remaining : List EventIntent}
    {intent : EventIntent}
    (hgate : state.gates[gate]? = some (.checking enforce compared (intent :: remaining)))
    (hguard : ∀ taskId token, carriedToken intent = some (taskId, token) → enforce = true ∧
      FenceCurrent state.claims taskId) : ∀ other ∈ (afterTurn enforce compared intent remaining
      (checkFencingToken enforce state.claims intent)).compared, Current state.claims.history other := by
  have hbefore : ∀ other ∈ compared, Current state.claims.history other :=
    h.compared _ (List.mem_of_getElem? hgate)
  cases hresult : checkFencingToken enforce state.claims intent with
  | none =>
    intro other hother
    rw [afterTurn, nextIntent_compared] at hother
    obtain hother | hother := List.mem_append.mp hother
    · exact hbefore other hother
    · obtain rfl := List.mem_singleton.mp hother
      intro taskId token hcarried
      obtain ⟨rfl, -⟩ := hguard taskId token hcarried
      exact current_of_turn (fun _ _ hcarried => (hguard _ _ hcarried).2) hresult taskId token hcarried
  | some result =>
    -- with enforcement on, a result rejects
    have hrejected : result.passed = false := by
      unfold checkFencingToken at hresult
      split at hresult
      · cases hresult
      next taskId token hcarried =>
        obtain ⟨rfl, -⟩ := hguard taskId token hcarried
        split at hresult
        · cases hresult
        · split at hresult
          · cases hresult
          · cases hresult
            rfl
    intro other hother
    simp only [afterTurn, hrejected] at hother
    exact absurd hother List.not_mem_nil

theorem FencingSound.append (gate : Nat)
    (hbatch : ∀ intent ∈ batch, Current state.claims.history intent) :
    FencingSound { state with
      gates := state.gates.set gate .idle
      commits := state.commits ++ commitsOf state.claims.history batch } := by
  have hgates : FencingSound { state with gates := state.gates.set gate .idle } :=
    h.setRun gate (fun intent hintent => absurd hintent List.not_mem_nil)
  refine ⟨hgates.compared, fun commit hcommit issued hissued => ?_⟩
  obtain hcommit | hcommit := List.mem_append.mp hcommit
  · exact h.commits commit hcommit issued hissued
  · obtain ⟨intent, hintent, hmapped⟩ := List.mem_filterMap.mp hcommit
    obtain ⟨⟨taskId, token⟩, hcarried, rfl⟩ := map_eq_some_iff.mp hmapped
    exact hbatch intent hintent taskId token hcarried issued hissued

theorem FencingSound.gateStep {gate : Nat} {run : GateRun} {action : FencedAction}
    (hgate : state.gates[gate]? = some run)
    (hguard : ∀ enforce compared intent remaining, run =
      .checking enforce compared (intent :: remaining) → ∀ taskId token, carriedToken intent =
      some (taskId, token) → enforce = true ∧ FenceCurrent state.claims taskId)
    (hstep : gateStep state gate run action = some next) : FencingSound next := by
  unfold CommitGate.gateStep at hstep
  split at hstep
  · cases hstep
    refine h.setRun gate (fun intent hintent => ?_)
    rw [nextIntent_compared] at hintent
    exact absurd hintent List.not_mem_nil
  · cases hstep
    exact h.setRun gate (h.examined hgate (hguard _ _ _ _ rfl))
  · cases hstep
    exact h.append gate (h.compared _ (List.mem_of_getElem? hgate))
  · cases hstep
    exact h.setRun gate (fun intent hintent => absurd hintent List.not_mem_nil)
  · cases hstep

theorem FencingSound.step (hholds : FencingHolds state action)
    (hstep : fencedStep env state action = some next) : FencingSound next := by
  cases action with
  | claim label =>
    obtain ⟨after, hafter, rfl⟩ := map_eq_some_iff.mp hstep
    refine ⟨fun run hrun intent hintent taskId token hcarried issued hissued => ?_, h.commits⟩
    obtain hbefore | hnew := issued_of_step hafter hissued
    · exact h.compared run hrun intent hintent taskId token hcarried issued hbefore
    · exact absurd hnew (hholds run hrun intent hintent taskId token hcarried)
  | examine gate =>
    obtain ⟨run, hgate, hstep⟩ := bind_eq_some_iff.mp hstep
    refine h.gateStep hgate (fun enforce compared intent remaining hrun => ?_) hstep
    subst hrun
    exact hholds enforce compared intent remaining hgate
  | startCheck gate enforce batch | append gate =>
    obtain ⟨run, hgate, hstep⟩ := bind_eq_some_iff.mp hstep
    refine h.gateStep hgate (fun enforce compared intent remaining hrun => ?_) hstep
    subst hrun
    cases hstep
  | abandon gate =>
    obtain ⟨run, -, hstep⟩ := bind_eq_some_iff.mp hstep
    have hnext : next = { state with gates := state.gates.set gate .idle } := by
      cases run with
      | checking enforce compared remaining =>
        cases remaining <;> exact (some.inj hstep).symm
      | _ => exact (some.inj hstep).symm
    subst hnext
    exact h.setRun gate (fun intent hintent => absurd hintent List.not_mem_nil)

end

/-- No `TaskRunCompleted` is committed under a token below one issued before, in every run in which
tokens are compared with enforcement on and a current fence, and none is issued for a task between
the comparison and the append. -/
theorem no_stale_commit {gates : Nat} {actions : List FencedAction}
    (h : Run (fencedStep env) FencingHolds (.initial gates) actions state) :
    ∀ commit ∈ state.commits, ∀ issued : Nat, .issued commit.taskId issued ∈ commit.before →
      (issued : Int) ≤ commit.token := by
  have hsound : FencingSound state :=
    h.invariant (fencingSound_initial gates) fun _ _ _ hsound hholds hstep => hsound.step hholds hstep
  exact hsound.commits

end

def completion (taskId : String) (token : Int) : EventIntent :=
  { sampleIntent with
    eventType := .taskRunCompleted
    payload := ⟨[("after_state", .obj [("task_id", .str taskId), ("fencing_token", .int token)])],
      rfl⟩ }

def fencedActions : List FencedAction :=
  (claimLabels 0 ⟨"t", "A"⟩ 0).map .claim ++
    [.startCheck 0 true [completion "t" 1], .examine 0, .append 0] ++
    (reapLabels 1 16 ["t"] ++ claimLabels 2 ⟨"t", "B"⟩ 17).map .claim ++
    [.startCheck 1 true [completion "t" 1], .examine 1]

def overtakenActions : List FencedAction :=
  (claimLabels 0 ⟨"t", "A"⟩ 0).map .claim ++
    [.startCheck 0 true [completion "t" 1], .examine 0] ++
    (reapLabels 1 16 ["t"] ++ claimLabels 2 ⟨"t", "B"⟩ 17).map .claim ++ [.append 0]

def fencedAfter (actions : List FencedAction) : FencedState :=
  (actions.foldlM (fencedStep Awareness.sampleEnv) (.initial 2)).getD (.initial 2)

def fenceCurrent (state : ClaimState) (taskId : String) : Bool :=
  state.history.all fun
    | .issued other token => other != taskId ||
      (readFence state taskId).any fun highest => decide (token ≤ highest)
    | _ => true

theorem fenceCurrent_sound {state : ClaimState} (h : fenceCurrent state taskId = true) :
    FenceCurrent state taskId := by
  intro token hissued
  have htoken := List.all_eq_true.mp h _ hissued
  simpa [any_eq_true] using htoken

def fencingHolds (state : FencedState) : FencedAction → Bool
  | .claim label => state.gates.all fun run => run.compared.all fun intent =>
    (carriedToken intent).all fun carried => issuedTask state.claims label != some carried.1
  | .examine gate =>
    match state.gates[gate]? with
    | some (.checking enforce _ (intent :: _)) =>
      (carriedToken intent).all fun carried => enforce && fenceCurrent state.claims carried.1
    | _ => true
  | _ => true

theorem fencingHolds_sound (state : FencedState) (action : FencedAction)
    (h : fencingHolds state action = true) : FencingHolds state action := by
  cases action with
  | claim label =>
    intro run hrun intent hintent taskId token hcarried
    have hother := List.all_eq_true.mp (List.all_eq_true.mp h run hrun) intent hintent
    rw [hcarried] at hother
    simpa using hother
  | examine gate =>
    intro enforce compared intent remaining hgate taskId token hcarried
    simp only [fencingHolds, hgate, hcarried, all_some, Bool.and_eq_true] at h
    exact ⟨h.1, fenceCurrent_sound h.2⟩
  | _ => trivial

theorem fencedActions_current :
    0 < (fencedAfter fencedActions).commits.length ∧
      ∀ commit ∈ (fencedAfter fencedActions).commits, ∀ issued : Nat,
        .issued commit.taskId issued ∈ commit.before → (issued : Int) ≤ commit.token := by
  have hrun : Run (fencedStep Awareness.sampleEnv) FencingHolds (.initial 2) fencedActions
      (fencedAfter fencedActions) := Run.of_check_isSome fencingHolds_sound (by decide +kernel)
  exact ⟨by decide +kernel, no_stale_commit hrun⟩

/-- B holds token two when A's completion is appended under token one. -/
theorem overtaken_commit_stale :
    ∃ commit ∈ (fencedAfter overtakenActions).commits,
      commit.taskId = "t" ∧ commit.token = 1 ∧ .issued "t" 2 ∈ commit.before := by decide

end Flowness.CommitGate
