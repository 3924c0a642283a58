import Flowness.OssHarness.AdmissionLedger

/-!
The attempt chain: events bound to admissions, their replay, and the entry points that append one.
-/

namespace Flowness.OssHarness

open Library

inductive EventType where
  | started
  | stopRequested
  | terminal
deriving DecidableEq, Repr

inductive Outcome where
  | completed
  | failed
  | stopped
deriving DecidableEq, Repr

/-- The states of `_attempt_states`; a terminal state is its outcome. -/
inductive AttemptStatus where
  | admitted
  | inFlight
  | stopRequested
  | ended (outcome : Outcome)
deriving DecidableEq, Repr

structure RunBinding where
  runId : Option String
  runHash : Option String
  waveId : String
  roleId : String
deriving DecidableEq, Repr

structure AttemptPayload where
  outcome : Option Outcome
  reasonCode : String
  executionRecord : Option ArtifactRef
  evidence : List ArtifactRef
  retestRequired : Bool
deriving DecidableEq, Repr

structure EventSeed where
  admissionId : String
  admissionEntryHash : String
  eventType : EventType
  runBinding : RunBinding
  payload : AttemptPayload
  previousEventHash : Option String
deriving DecidableEq, Repr

/-- An event without its `event_hash`. -/
structure AttemptBody where
  sequence : Nat
  eventId : String
  eventType : EventType
  admissionId : String
  admissionEntryHash : String
  policyHash : String
  controllerVersion : String
  occurredAt : String
  runBinding : RunBinding
  payload : AttemptPayload
  previousEventHash : Option String
deriving DecidableEq, Repr

structure AttemptEvent extends AttemptBody where
  eventHash : String
deriving DecidableEq, Repr

/-- `canonical_hash` of what both ledgers hash. -/
structure ControlHashes extends AdmissionHashes where
  eventId : EventSeed → String
  event : AttemptBody → String

/-- `work-attempt-ledger-event.schema.json`. -/
def AttemptBody.schema (body : AttemptBody) : Bool :=
  decide (1 ≤ body.sequence) && nonEmpty body.controllerVersion &&
    nonEmpty body.runBinding.waveId && nonEmpty body.runBinding.roleId &&
    nonEmpty body.payload.reasonCode && body.payload.executionRecord.all ArtifactRef.schema &&
    body.payload.evidence.all ArtifactRef.schema

structure AttemptState where
  state : AttemptStatus
  entry : Entry
  event : Option AttemptEvent
deriving DecidableEq, Repr

def transition (prior : AttemptStatus) (event : AttemptEvent) : Except LedgerError AttemptStatus :=
  match event.eventType with
  | .started => if prior = .admitted then .ok .inFlight else .error .illegalTransition
  | .stopRequested => if prior = .inFlight then .ok .stopRequested else .error .illegalTransition
  | .terminal =>
    match prior, event.payload.outcome with
    | .ended _, _ => .error .illegalTransition
    | _, none => .error .illegalTransition
    | .stopRequested, some outcome =>
      if outcome = .stopped then .ok (.ended .stopped) else .error .illegalTransition
    | _, some outcome => .ok (.ended outcome)

def initialStates (entries : List Entry) : Dict String AttemptState :=
  entries.foldl (fun states entry => states.set entry.admissionId ⟨.admitted, entry, none⟩) []

def replayEvent (states : Dict String AttemptState) (event : AttemptEvent) :
    Except LedgerError (Dict String AttemptState) :=
  match states.get event.admissionId with
  | none => .error .keyError
  | some state => do
    let next ← transition state.state event
    return states.set event.admissionId ⟨next, state.entry, some event⟩

def attemptStates (entries : List Entry) (events : List AttemptEvent) :
    Except LedgerError (Dict String AttemptState) :=
  events.foldlM replayEvent (initialStates entries)

/-- `_append_attempt_locked`, the event it writes. -/
def newEvent (hashes : ControlHashes) (now : String) (admission : Entry)
    (events : List AttemptEvent) (eventType : EventType) (binding : RunBinding)
    (payload : AttemptPayload) : AttemptEvent :=
  let previous := events.getLast?.map AttemptEvent.eventHash
  let body : AttemptBody :=
    { sequence := events.length + 1
      eventId := hashes.eventId
        { admissionId := admission.admissionId, admissionEntryHash := admission.entryHash
          eventType := eventType, runBinding := binding, payload := payload
          previousEventHash := previous }
      eventType := eventType
      admissionId := admission.admissionId
      admissionEntryHash := admission.entryHash
      policyHash := admission.policyHash
      controllerVersion := controllerVersion
      occurredAt := now
      runBinding := binding
      payload := payload
      previousEventHash := previous }
  { body with eventHash := hashes.event body }

def appendAttempt (hashes : ControlHashes) (now : String) (entries : List Entry)
    (events : List AttemptEvent) (admissionId : String) (eventType : EventType)
    (binding : RunBinding) (payload : AttemptPayload) : Except LedgerError AttemptEvent :=
  match entries.find? (fun entry => entry.admissionId == admissionId) with
  | none => .error .attemptAdmissionNotFound
  | some admission => do
    let event := newEvent hashes now admission events eventType binding payload
    require event.schema .attemptSchema
    return event

def findState (entries : List Entry) (events : List AttemptEvent) (admissionId : String) :
    Except LedgerError AttemptState := do
  let states ← attemptStates entries events
  match states.get admissionId with
  | none => .error .attemptAdmissionNotFound
  | some state => return state

/-- The last `started` event of an admission. -/
def startedEvent (events : List AttemptEvent) (admissionId : String) : Option AttemptEvent :=
  events.reverse.find? (fun event => event.admissionId == admissionId &&
    decide (event.eventType = .started))

def validateRunBinding (admission : Entry) (binding : RunBinding) : Except LedgerError Unit := do
  require (binding.waveId == admission.waveId && binding.roleId == admission.roleId)
    .attemptRunBindingInvalid
  match binding.runId, binding.runHash with
  | none, none => .ok ()
  | some runId, some runHash =>
    require (decide (⟨"oss-run:" ++ runId, runHash⟩ ∈ admission.card.immutableInputs))
      .attemptRunBindingInvalid
  | _, _ => .error .attemptRunBindingInvalid

def unstartedBinding (admission : Entry) : RunBinding :=
  { runId := none, runHash := none, waveId := admission.waveId, roleId := admission.roleId }

def claimAttempt (hashes : ControlHashes) (authority : Option Authority) (now : String)
    (entries : List Entry) (events : List AttemptEvent) (admissionId : String)
    (binding : RunBinding) : Except LedgerError AttemptEvent := do
  require authority.isSome .executionNotAllowed
  let state ← findState entries events admissionId
  require (decide (some state.entry.policyHash = authority.map Authority.policyHash))
    .attemptPolicyHashMismatch
  validateRunBinding state.entry binding
  require (decide (state.state = .admitted)) .attemptNotAdmitted
  appendAttempt hashes now entries events admissionId .started binding
    { outcome := none, reasonCode := "attempt_claimed", executionRecord := none, evidence := []
      retestRequired := false }

def stopByState (hashes : ControlHashes) (now : String) (entries : List Entry)
    (events : List AttemptEvent) (admissionId : String) (state : AttemptState)
    (payload : AttemptPayload) : Except LedgerError AttemptEvent :=
  let binding := unstartedBinding state.entry
  match state.state with
  | .admitted =>
    appendAttempt hashes now entries events admissionId .terminal binding
      { payload with outcome := some .stopped, retestRequired := true }
  | .inFlight => appendAttempt hashes now entries events admissionId .stopRequested binding payload
  | _ => .error .attemptNotStoppable

def requestStop (hashes : ControlHashes) (authority : Option Authority) (now : String)
    (entries : List Entry) (events : List AttemptEvent) (admissionId reasonCode : String)
    (evidence : List ArtifactRef) : Except LedgerError AttemptEvent := do
  require authority.isSome .executionNotAllowed
  let state ← findState entries events admissionId
  require (decide (some state.entry.policyHash = authority.map Authority.policyHash))
    .attemptPolicyHashMismatch
  stopByState hashes now entries events admissionId state
    { outcome := none, reasonCode := reasonCode, executionRecord := none, evidence := evidence
      retestRequired := false }

def recoveryBinding (state : AttemptState) (started : Option AttemptEvent)
    (startedEventHash : Option String) : Except LedgerError RunBinding :=
  match started with
  | none => do
    require (startedEventHash.isNone && decide (state.state = .admitted))
      .recoveryStartedBindingInvalid
    return unstartedBinding state.entry
  | some event => do
    require (startedEventHash == some event.eventHash) .recoveryStartedBindingInvalid
    return event.runBinding

/-- `recover_attempt`; `outcome` is what the given text reads as. -/
def recoverAttempt (hashes : ControlHashes) (now : String) (entries : List Entry)
    (events : List AttemptEvent) (admissionId : String) (startedEventHash : Option String)
    (reasonCode : String) (evidence : List ArtifactRef) (outcome : Option Outcome) :
    Except LedgerError AttemptEvent := do
  require (decide (outcome = some .failed ∨ outcome = some .stopped)) .recoveryOutcomeInvalid
  require (notBlank reasonCode) .recoveryReasonInvalid
  require (isNonemptyArtifactRefs evidence) .recoveryEvidenceRequired
  let state ← findState entries events admissionId
  require (decide (state.state = .admitted ∨ state.state = .inFlight ∨ state.state = .stopRequested))
    .attemptNotRecoverable
  let binding ← recoveryBinding state (startedEvent events admissionId) startedEventHash
  appendAttempt hashes now entries events admissionId .terminal binding
    { outcome := if state.state = .stopRequested then some .stopped else outcome
      reasonCode := reasonCode, executionRecord := none, evidence := evidence
      retestRequired := true }

/-- `settle_attempt`; `outcome` is what the given text reads as. -/
def settleAttempt (hashes : ControlHashes) (authority : Option Authority) (now : String)
    (entries : List Entry) (events : List AttemptEvent) (admissionId : String)
    (outcome : Option Outcome) (reasonCode : String) (executionRecord : Option ArtifactRef)
    (evidence : List ArtifactRef) (retestRequired : Bool) : Except LedgerError AttemptEvent := do
  require authority.isSome .executionNotAllowed
  require outcome.isSome .attemptOutcomeInvalid
  let state ← findState entries events admissionId
  require (decide (some state.entry.policyHash = authority.map Authority.policyHash))
    .attemptPolicyHashMismatch
  require (decide (state.state = .inFlight ∨ state.state = .stopRequested)) .attemptNotSettlable
  match startedEvent events admissionId with
  | none => .error .keyError
  | some started =>
    appendAttempt hashes now entries events admissionId .terminal started.runBinding
      { outcome := if state.state = .stopRequested then some .stopped else outcome
        reasonCode := reasonCode, executionRecord := executionRecord, evidence := evidence
        retestRequired := decide (state.state = .stopRequested) || retestRequired }

structure ControlState where
  entries : List Entry
  events : List AttemptEvent
deriving DecidableEq, Repr

inductive ControlCall where
  | admitWork (authority : Option Authority) (now : String) (card : Card)
  | claimAttempt (authority : Option Authority) (now admissionId : String) (binding : RunBinding)
  | requestStop (authority : Option Authority) (now admissionId reasonCode : String)
      (evidence : List ArtifactRef)
  | settleAttempt (authority : Option Authority) (now admissionId : String)
      (outcome : Option Outcome) (reasonCode : String) (executionRecord : Option ArtifactRef)
      (evidence : List ArtifactRef) (retestRequired : Bool)
  | recoverAttempt (now admissionId : String) (startedEventHash : Option String)
      (reasonCode : String) (evidence : List ArtifactRef) (outcome : Option Outcome)
deriving DecidableEq, Repr

inductive Written where
  | entry (entry : Entry)
  | event (event : AttemptEvent)
  | nothing
deriving DecidableEq, Repr

def Written.apply (state : ControlState) : Written → ControlState
  | .entry added => { state with entries := state.entries ++ [added] }
  | .event added => { state with events := state.events ++ [added] }
  | .nothing => state

def decideCall (hashes : ControlHashes) (state : ControlState) :
    ControlCall → Except LedgerError Written
  | .admitWork none _ _ => .error .executionNotAllowed
  | .admitWork (some authority) now card => do
    let admission ← admitWork hashes.toAdmissionHashes authority now card state.entries
    match admission with
    | .prior _ => return .nothing
    | .reserved entry => return .entry entry
  | .claimAttempt authority now admissionId binding => do
    return .event (← claimAttempt hashes authority now state.entries state.events admissionId binding)
  | .requestStop authority now admissionId reasonCode evidence => do
    return .event (← requestStop hashes authority now state.entries state.events admissionId
      reasonCode evidence)
  | .settleAttempt authority now admissionId outcome reasonCode executionRecord evidence
      retestRequired => do
    return .event (← settleAttempt hashes authority now state.entries state.events admissionId
      outcome reasonCode executionRecord evidence retestRequired)
  | .recoverAttempt now admissionId startedEventHash reasonCode evidence outcome => do
    return .event (← recoverAttempt hashes now state.entries state.events admissionId
      startedEventHash reasonCode evidence outcome)

def controlStep (hashes : ControlHashes) (state : ControlState) (call : ControlCall) :
    Option ControlState :=
  match decideCall hashes state call with
  | .ok written => some (written.apply state)
  | .error _ => some state

end Flowness.OssHarness
