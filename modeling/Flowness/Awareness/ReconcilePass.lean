import Flowness.DeadLetter.Inbox
import Flowness.Planning.DispatcherView

/-!
What a reconcile pass reads, the actions the reconcilers derive from it, and the pass as the atomic
writes it makes, action by action: dispatch stamps, appended events and dead-letter files, with a
process that can die before any of them.
-/

namespace Flowness.Awareness

open Library Schemas Planning DeadLetter

inductive FailureClass where
  | transient
  | terminal
  | replan
  | waiting
  | exhausted
  | unknown
deriving DecidableEq, Repr

/-- `ReconcileAction.kind`. -/
inductive ActionKind where
  | dispatch
  | replan
  | revive
  | redispatch
  | reDecompose
  | escalate
  | triage
  | wait
  | escalationSurface
  | forwardChainDispatch
  | forwardChainDeadletter
deriving DecidableEq, Repr

def FailureClass.action : FailureClass → ActionKind
  | .transient => .revive
  | .terminal => .redispatch
  | .replan => .reDecompose
  | .waiting => .escalate
  | .exhausted => .triage
  | .unknown => .wait

/-- `_ENTRY_REASON_TO_FAILURE_CLASS`. -/
def failureClass : EntryReason → FailureClass
  | .circuitTripped => .exhausted
  | .structuralFailure => .exhausted
  | .unroutable => .waiting

structure ForwardChainGap where
  triggerEventId : String
  triggerEventType : String
  routable : Bool
  dispatchTo : String
deriving DecidableEq, Repr

structure ObservedState where
  readyTasks : List String
  dispatchedOrActive : List String
  replanTriggered : List (String × String)
  redecomposed : List String
  deadLetterPending : List (String × FailureClass)
  escalationsUnsurfaced : List String
  forwardChainPending : List ForwardChainGap

structure ReconcileAction where
  kind : ActionKind
  target : String
  replanEventId : String := ""
  dispatchTo : String := ""
deriving DecidableEq, Repr

def readySetReconciler (state : ObservedState) : List ReconcileAction :=
  (state.readyTasks.filter (· ∉ state.dispatchedOrActive)).map fun task =>
    { kind := .dispatch, target := task }

def replanReconciler (state : ObservedState) : List ReconcileAction :=
  (state.replanTriggered.filter fun replan => replan.1 ∉ state.redecomposed).map fun replan =>
    { kind := .replan, target := replan.2, replanEventId := replan.1 }

def deadLetterReconciler (state : ObservedState) : List ReconcileAction :=
  state.deadLetterPending.map fun entry => { kind := entry.2.action, target := entry.1 }

def escalationReconciler (state : ObservedState) : List ReconcileAction :=
  state.escalationsUnsurfaced.map fun escalation => { kind := .escalationSurface, target := escalation }

def forwardChainReconciler (state : ObservedState) : List ReconcileAction :=
  state.forwardChainPending.map fun gap =>
    if gap.routable then
      { kind := .forwardChainDispatch, target := gap.triggerEventId, dispatchTo := gap.dispatchTo }
    else { kind := .forwardChainDeadletter, target := gap.triggerEventId }

def reconcileAll (state : ObservedState) : List ReconcileAction :=
  [readySetReconciler, replanReconciler, deadLetterReconciler, escalationReconciler,
    forwardChainReconciler].flatMap fun reconciler => reconciler state

structure LoggedEvent where
  eventId : EventId
  eventType : EventType
  payload : Payload
deriving DecidableEq

/-- `_unwrap_stub_rewrap`. -/
def LoggedEvent.unwrapped (event : LoggedEvent) : String × Dict String Json :=
  effKindPayload event.eventType event.payload

def LoggedEvent.replan (event : LoggedEvent) : Option (String × String) :=
  if event.eventType = .rePlanTriggered ∧
      Json.lookup event.payload.afterState "suggested_action" ≠ .str "full_replan" then
    (Json.nonBlank event.payload.afterState "plan_id").map fun planId => (event.eventId.val, planId)
  else none

def LoggedEvent.raisedEscalation (event : LoggedEvent) : Option String :=
  if event.unwrapped.1 = "GoalEscalationRaised" then some event.eventId.val else none

def LoggedEvent.answeredEscalation (event : LoggedEvent) : Option String :=
  if event.unwrapped.1 = "NatureJudgmentCaptured" then
    Json.nonBlank (afterOrSelf event.unwrapped.2) "responds_to_escalation_event_id"
  else none

/-- `pending_escalations`: the ids of the escalations that have no answer, in the order raised. -/
def pendingEscalations (log : List LoggedEvent) : List String :=
  (log.filterMap LoggedEvent.raisedEscalation).eraseDups.filter
    (· ∉ log.filterMap LoggedEvent.answeredEscalation)

structure Stamp where
  eventId : String
  target : Option String
deriving DecidableEq, Repr

/-- The log, the stamps, the archived ones among them, the inbox and the backlog markers. An entry file
is named by the id of its entry. -/
structure Disk where
  log : List LoggedEvent
  stamps : List Stamp
  inbox : Inbox
  backlog : List (String × String)
  filed : (Dict.keys inbox.entries).Nodup ∧
    ∀ entryId entry, Dict.get inbox.entries entryId = some entry → entry.entryId = entryId

section Observed

variable (env : InboxEnv)

def compositeStamp (eventId dispatchTo : String) : Stamp :=
  { eventId, target := some (slug env dispatchTo) }

def isAlreadyDispatched (stamps : List Stamp) (eventId dispatchTo : String) : Bool :=
  { eventId, target := none } ∈ stamps ∨ compositeStamp env eventId dispatchTo ∈ stamps

def enqueuedEntries (inbox : Inbox) : List DeadLetterEntry :=
  (openEntries inbox).filter fun entry => entry.triageStatus = .enqueued

/-- `build_observed_state`, with the forward-chain gaps that the scan finds. -/
def buildObservedState (disk : Disk) (gaps : List ForwardChainGap) : ObservedState where
  readyTasks := []
  dispatchedOrActive := []
  replanTriggered := disk.log.filterMap LoggedEvent.replan
  redecomposed := ((disk.log.filterMap LoggedEvent.replan).map Prod.fst).filter fun eventId =>
    isAlreadyDispatched env disk.stamps eventId "planning"
  deadLetterPending := (enqueuedEntries disk.inbox).map fun entry =>
    (entry.entryId, failureClass entry.entryReason)
  escalationsUnsurfaced := (pendingEscalations disk.log).filter fun eventId =>
    eventId ≠ "" ∧ !isAlreadyDispatched env disk.stamps eventId "main-inbound"
  forwardChainPending := gaps

end Observed

inductive Write where
  | stamp (stamp : Stamp)
  | append (event : LoggedEvent)
  | inbox (write : InboxWrite)
  | backlogMarker (triggerEventId dispatchTo : String)

theorem filed_apply {inbox : Inbox} (h : (Dict.keys inbox.entries).Nodup ∧
    ∀ entryId entry, Dict.get inbox.entries entryId = some entry → entry.entryId = entryId)
    (write : InboxWrite) : (Dict.keys (inbox.apply write).entries).Nodup ∧
      ∀ entryId entry, Dict.get (inbox.apply write).entries entryId = some entry →
        entry.entryId = entryId := by
  cases write with
  | putEntry put =>
    refine ⟨Dict.nodup_keys_set h.1 _ _, fun entryId entry hget => ?_⟩
    by_cases heq : entryId = put.entryId
    · have hself : Dict.get (inbox.apply (.putEntry put)).entries entryId = some put := by
        rw [heq]
        exact Dict.get_set_self inbox.entries put.entryId put
      rw [hself] at hget
      cases hget
      exact heq.symm
    · have hother : Dict.get (inbox.apply (.putEntry put)).entries entryId =
          Dict.get inbox.entries entryId := Dict.get_set_of_ne inbox.entries put heq
      exact h.2 entryId entry (hother ▸ hget)
  | emit event => exact h
  | putKey key entryId => exact h
  | dropKey key => exact h

def Disk.apply (disk : Disk) : Write → Disk
  | .stamp stamp => { disk with stamps := disk.stamps ++ [stamp] }
  | .append event => { disk with log := disk.log ++ [event] }
  | .inbox write => { disk with inbox := disk.inbox.apply write, filed := filed_apply disk.filed write }
  | .backlogMarker triggerEventId dispatchTo =>
    { disk with backlog := disk.backlog ++ [(triggerEventId, dispatchTo)] }

def Disk.applyAll (disk : Disk) (writes : List Write) : Disk := writes.foldl Disk.apply disk

/-- What a pass draws and is given: the clock, fresh event and entry ids, the gaps that the scan of the
forward chain finds, and which stamps are of sessions never launched. -/
structure PassDraws where
  now : Int
  raisedAt : String
  eventId : ActionKind → String → EventId
  lifecycleId : LifecycleKind → String → String
  decisionId : String → String
  entryId : List String → String
  fresh : ∀ used, entryId used ∉ used
  gaps : List ForwardChainGap
  markerIsFake : String → String → Bool

def buildOrchNodetouched (eventId : EventId) (kind decisionId : String) (payloadBody : Payload) :
    LoggedEvent where
  eventId
  eventType := .nodeTouched
  payload := ⟨[("target_entity_type", .str "task"), ("target_entity_id", .str decisionId),
    ("touch_type", .str "write"), ("kind", .str kind),
    ("stub_original_payload", .obj payloadBody.entries)], by
      have hbody : (Json.obj payloadBody.entries).proper = true := payloadBody.property
      simp only [Json.proper, Json.properEntries, Bool.and_true, Bool.true_and, Bool.and_eq_true,
        decide_eq_true_eq, Dict.keys, List.map_cons, List.map_nil] at hbody ⊢
      exact ⟨by decide, hbody⟩⟩

def dispatchedPayload (decisionId triggerEventId triggerEventType dispatchTo reason : String) : Payload :=
  ⟨[("kind", .str "OrchestratorDispatched"), ("decision_id", .str decisionId),
    ("trigger_event_id", .str triggerEventId), ("trigger_event_type", .str triggerEventType),
    ("dispatch_to", .str dispatchTo), ("task_id", .null), ("reason", .str reason),
    ("spawn_result", .null), ("manual_orchestrator", .bool false)], by
      simp only [Json.proper, Json.properEntries, Bool.and_true, Bool.and_self, decide_eq_true_eq,
        Dict.keys, List.map_cons, List.map_nil]
      decide⟩

def deadLetterEscalationPayload (entry : DeadLetterEntry) (raisedAt : String) : Payload :=
  let entryId := entry.entryId
  let sourceType := entry.sourceObjectType
  let sourceRef := entry.sourceObjectRef
  let entryReason := entry.entryReason.value
  ⟨[("kind", .str "GoalEscalationRaised"), ("decision_id", .str s!"dead-letter-esc-{entryId}"),
    ("escalation_id", .str s!"dead-letter-esc-{entryId}"),
    ("goal_session_id", .str s!"dead-letter-{entryId}"),
    ("owner_question", .str (s!"⛔ 死信箱条目 {entryId} (源 {sourceType}={sourceRef}, 进入原因={entryReason}) " ++
      "机器分诊不了/路由不出, 需要你拍板怎么处置 (重投 / 退役 / 改派)。")),
    ("reason", .str "dead_letter_escalate"), ("raised_at", .str raisedAt),
    ("awaiting_response", .bool true), ("blocking_scope", .str "session_only"),
    ("escalation_kind", .str "dead_letter"), ("dead_letter_entry_id", .str entryId),
    ("dead_letter_source_type", .str sourceType), ("dead_letter_source_ref", .str sourceRef)], by
      simp only [Json.proper, Json.properEntries, Bool.and_true, Bool.and_self, decide_eq_true_eq,
        Dict.keys, List.map_cons, List.map_nil]
      decide⟩

section Actions

variable (env : InboxEnv) (draws : PassDraws)

/-- `emit_orchestrator_dispatched`. -/
def orchestratorDispatched (kind : ActionKind)
    (triggerEventId triggerEventType dispatchTo reason : String) : LoggedEvent :=
  buildOrchNodetouched (draws.eventId kind triggerEventId) "OrchestratorDispatched"
    (draws.decisionId triggerEventId)
    (dispatchedPayload (draws.decisionId triggerEventId) triggerEventId triggerEventType dispatchTo reason)

/-- `_emit_dead_letter_escalation`. -/
def deadLetterEscalation (entry : DeadLetterEntry) : LoggedEvent :=
  buildOrchNodetouched (draws.eventId .escalate entry.entryId) "GoalEscalationRaised"
    ("dead-letter-esc-" ++ entry.entryId) (deadLetterEscalationPayload entry draws.raisedAt)

/-- `mark_dispatched`, then the dispatch event, unless the stamp is there. -/
def executeDispatch (disk : Disk) (kind : ActionKind)
    (triggerEventId triggerEventType dispatchTo reason : String) : List Write :=
  if isAlreadyDispatched env disk.stamps triggerEventId dispatchTo then []
  else [.stamp (compositeStamp env triggerEventId dispatchTo),
    .append (orchestratorDispatched draws kind triggerEventId triggerEventType dispatchTo reason)]

def executeEscalationAction (disk : Disk) (action : ReconcileAction) : List Write :=
  let target := action.target
  executeDispatch env draws disk action.kind target "GoalEscalationRaised" "main-inbound"
    (s!"reconcile (level-triggered 兜底): escalation {target} raised 但未 answer 且 edge " ++
      "_route_event 漏 surface → 补 main-inbound 让 owner 可见 (治死电路换层复发)")

def executeReplanAction (disk : Disk) (action : ReconcileAction) : List Write :=
  let planId := action.target
  let replanEventId := action.replanEventId
  if replanEventId = "" then []
  else executeDispatch env draws disk action.kind replanEventId "RePlanTriggered" "planning"
    (s!"reconcile (level-triggered 兜底): RePlanTriggered {replanEventId} 无对应 re-decompose " ++
      s!"→ 派 planning 重拆 plan={planId} (edge _route_event 零 case 的死胡同修法)")

def written (result : Except String (List InboxWrite × DeadLetterEntry)) : List InboxWrite :=
  match result with
  | .ok (writes, _) => writes
  | .error _ => []

def retireReason (entry : DeadLetterEntry) : RetireReason :=
  if entry.entryReason = .structuralFailure then .deterministic else .reentryExhausted

def decideEntry (claimed : Inbox) (kind : ActionKind) (entry : DeadLetterEntry) : List Write :=
  match kind with
  | .escalate =>
    let escalation := deadLetterEscalation draws entry
    .append escalation :: (written (decideEscalate env claimed entry.entryId "auto-reconcile"
      (some escalation.eventId.val) draws.now (draws.lifecycleId .escalated entry.entryId))).map .inbox
  | .triage =>
    (written (decideRetire env claimed entry.entryId "auto-reconcile" (retireReason entry)
      draws.now (draws.lifecycleId .retired entry.entryId))).map .inbox
  | _ => []

def executeDeadLetterAction (disk : Disk) (action : ReconcileAction) : List Write :=
  match Dict.get disk.inbox.entries action.target with
  | none => []
  | some entry =>
    if entry.triageStatus = .enqueued then
      let started := written (startTriage env disk.inbox action.target "auto-reconcile"
        draws.now (draws.lifecycleId .triageStarted action.target))
      started.map .inbox ++ decideEntry env draws (disk.inbox.applyAll started) action.kind entry
    else []

def executeForwardChainDispatchAction (disk : Disk) (action : ReconcileAction) : List Write :=
  if action.dispatchTo = "" ∨
      (isAlreadyDispatched env disk.stamps action.target action.dispatchTo ∧
        !draws.markerIsFake action.target action.dispatchTo) then []
  else [.backlogMarker action.target action.dispatchTo]

def executeForwardChainDeadletterAction (disk : Disk) (action : ReconcileAction) : List Write :=
  let call : EnqueueCall :=
    { sourceObjectType := "forward_chain_trigger", sourceObjectRef := action.target
      entryReason := .unroutable, originalTriggerEventId := some action.target, now := draws.now
      entryId := draws.entryId (Dict.keys disk.inbox.entries) }
  (enqueue env disk.inbox call (draws.lifecycleId .enqueued action.target)).1.map .inbox

/-- One round of the loop of `run_reconcile_pass`. -/
def execute (disk : Disk) (action : ReconcileAction) : List Write :=
  match action.kind with
  | .replan => executeReplanAction env draws disk action
  | .escalate | .triage | .wait | .redispatch => executeDeadLetterAction env draws disk action
  | .escalationSurface => executeEscalationAction env draws disk action
  | .forwardChainDispatch => executeForwardChainDispatchAction env draws disk action
  | .forwardChainDeadletter => executeForwardChainDeadletterAction env draws disk action
  | .dispatch | .revive | .reDecompose => []

def perform (disk : Disk) (action : ReconcileAction) : Disk :=
  disk.applyAll (execute env draws disk action)

def passActions (disk : Disk) : List ReconcileAction :=
  reconcileAll (buildObservedState env disk draws.gaps)

/-- `run_reconcile_pass`, from the state that it observes. -/
def reconcilePass (disk : Disk) : Disk := (passActions env draws disk).foldl (perform env draws) disk

structure CrashPoint where
  actions : Nat
  writes : Nat

def diskBefore (disk : Disk) (done : Nat) : Disk :=
  ((passActions env draws disk).take done).foldl (perform env draws) disk

def crashedPass (disk : Disk) (crash : CrashPoint) : Disk :=
  let before := diskBefore env draws disk crash.actions
  match (passActions env draws disk)[crash.actions]? with
  | some action => before.applyAll ((execute env draws before action).take crash.writes)
  | none => before

def Disk.clearStamps (disk : Disk) (dead : List (String × String)) : Disk :=
  { disk with stamps := disk.stamps.filter fun stamp =>
      stamp ∉ dead.map fun baton => compositeStamp env baton.1 baton.2 }

end Actions

end Flowness.Awareness
