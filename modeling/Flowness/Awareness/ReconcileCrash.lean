import Flowness.Awareness.ReconcilePass
import Flowness.DeadLetter.InboxRuns

/-!
What a reconcile pass promises, and what is left of it when the process dies inside one and a later pass
runs to its end.
-/

namespace Flowness.Awareness

open List Library Schemas DeadLetter Dict Option

/-! ### The promises -/

inductive Promise where
  | surfaced (escalationId : String)
  | redecomposed (replanId : String)
  | triaged (entryId : String)
deriving DecidableEq

def LoggedEvent.Dispatches (event : LoggedEvent) (triggerEventId target : String) : Prop :=
  event.unwrapped.1 = "OrchestratorDispatched" ∧
    Json.lookup event.unwrapped.2 "trigger_event_id" = .str triggerEventId ∧
      Json.lookup event.unwrapped.2 "dispatch_to" = .str target

def LoggedEvent.Escalates (event : LoggedEvent) (entryId : String) : Prop :=
  event.unwrapped.1 = "GoalEscalationRaised" ∧
    Json.lookup event.unwrapped.2 "dead_letter_entry_id" = .str entryId

/-- An exhausted entry is retired, an unroutable one escalated with its event in the log. -/
def Decided (log : List LoggedEvent) (entryId : String) (entry : DeadLetterEntry) : Prop :=
  match entry.entryReason with
  | .circuitTripped | .structuralFailure => entry.triageStatus = .retired
  | .unroutable => entry.triageStatus = .escalatedToOwner ∧ ∃ event ∈ log,
      entry.escalationEventId = some event.eventId.val ∧ event.Escalates entryId

def Kept (disk : Disk) : Promise → Prop
  | .surfaced escalationId => ∃ event ∈ disk.log, event.Dispatches escalationId "main-inbound"
  | .redecomposed replanId => ∃ event ∈ disk.log, event.Dispatches replanId "planning"
  | .triaged entryId => ∃ entry, Dict.get disk.inbox.entries entryId = some entry ∧
      Decided disk.log entryId entry

def Owed (disk : Disk) : Promise → Prop
  | .surfaced escalationId => escalationId ∈ pendingEscalations disk.log
  | .redecomposed replanId => ∃ planId, (replanId, planId) ∈ disk.log.filterMap LoggedEvent.replan
  | .triaged entryId => ∃ entry, Dict.get disk.inbox.entries entryId = some entry

section Crash

variable (env : InboxEnv)

def Open (disk : Disk) : Promise → Prop
  | .surfaced escalationId => isAlreadyDispatched env disk.stamps escalationId "main-inbound" = false
  | .redecomposed replanId => isAlreadyDispatched env disk.stamps replanId "planning" = false
  | .triaged entryId => ∃ entry, Dict.get disk.inbox.entries entryId = some entry ∧
      entry.triageStatus = .enqueued

def ReconcileAction.promise (action : ReconcileAction) : Option Promise :=
  match action.kind with
  | .replan => some (.redecomposed action.replanEventId)
  | .escalate | .triage | .wait | .redispatch => some (.triaged action.target)
  | .escalationSurface => some (.surfaced action.target)
  | _ => none

def Promise.stampOf : Promise → Option Stamp
  | .surfaced escalationId => some (compositeStamp env escalationId "main-inbound")
  | .redecomposed replanId => some (compositeStamp env replanId "planning")
  | .triaged _ => none

/-- The process dies after the write that hides a promise and before the one that keeps it: between a
stamp and its event, unless the event was there already or the stamp is cleared later, or between the
two entry files of a triage. -/
def Hides (before : Disk) (kind : ActionKind) (promise : Promise) (writes : Nat)
    (dead : List (String × String)) : Prop :=
  match promise with
  | .triaged _ => 2 ≤ writes ∧ writes < if kind = .escalate then 6 else 5
  | .surfaced _ | .redecomposed _ => writes = 1 ∧ ¬ Kept before promise ∧
      ∀ baton ∈ dead, some (compositeStamp env baton.1 baton.2) ≠ promise.stampOf env

/-- The crash hides the promise that the action was taken for. -/
def Torn (before : Disk) (action : ReconcileAction) (writes : Nat) (dead : List (String × String)) : Prop :=
  ∃ promise, action.promise = some promise ∧ Open env before promise ∧
    Hides env before action.kind promise writes dead

def recovered (first later : PassDraws) (disk : Disk) (crash : CrashPoint) (dead : List (String × String)) :
    Disk :=
  reconcilePass env later ((crashedPass env first disk crash).clearStamps env dead)

/-- The later pass leaves the promises kept that an uninterrupted one does, and every promise that was
owed and open is among them. -/
structure Survives (first later : PassDraws) (disk : Disk) (crash : CrashPoint)
    (dead : List (String × String)) : Prop where
  same : ∀ promise, Kept (reconcilePass env first disk) promise →
    Kept (recovered env first later disk crash dead) promise
  unhidden : ∀ promise, Owed disk promise → Open env disk promise →
    Kept (recovered env first later disk crash dead) promise

def Write.About (write : Write) (promise : Promise) : Prop :=
  match write, promise with
  | .stamp mark, _ => mark.target = none ∨ promise.stampOf env = some mark
  | .append event, .surfaced escalationId => event.Dispatches escalationId "main-inbound"
  | .append event, .redecomposed replanId => event.Dispatches replanId "planning"
  | .append event, .triaged entryId => event.Escalates entryId
  | .inbox (.putEntry entry), .triaged entryId => entry.entryId = entryId
  | _, _ => False

structure Untouched (before after : Disk) (promise : Promise) : Prop where
  open_iff : Open env after promise ↔ Open env before promise
  kept_iff : Kept after promise ↔ Kept before promise
  entry : ∀ entryId, promise = .triaged entryId →
    Dict.get after.inbox.entries entryId = Dict.get before.inbox.entries entryId

end Crash

variable {env : InboxEnv} {draws : PassDraws} {before after disk : Disk} {promise : Promise}
  {action : ReconcileAction}

/-! ### Single writes -/

theorem Untouched.refl (disk : Disk) (promise : Promise) : Untouched env disk disk promise :=
  ⟨Iff.rfl, Iff.rfl, fun _ _ => rfl⟩

theorem Untouched.trans (h : Untouched env before middle promise)
    (h' : Untouched env middle after promise) : Untouched env before after promise :=
  ⟨h'.open_iff.trans h.open_iff, h'.kept_iff.trans h.kept_iff,
    fun entryId heq => (h'.entry entryId heq).trans (h.entry entryId heq)⟩

theorem slug_length (env : InboxEnv) (text : String) :
    (slug env text).toList.length = text.toList.length := by
  simp [slug]

theorem slug_main_ne_planning (env : InboxEnv) : slug env "main-inbound" ≠ slug env "planning" := by
  intro heq
  have hlength := congrArg (fun text : String => text.toList.length) heq
  simp only [slug_length] at hlength
  exact absurd hlength (by decide)

variable {kind : ActionKind} {entry : DeadLetterEntry} {inbox : Inbox}
  {dead : List (String × String)} {log : List LoggedEvent} {writes : List Write}
  {event : LoggedEvent} {stamp : Stamp} {dispatchTo entryId eventId : String} {write : Write}

theorem isAlreadyDispatched_stamp (htarget : stamp.target ≠ none)
    (hother : stamp ≠ compositeStamp env eventId dispatchTo) :
    isAlreadyDispatched env (stamps ++ [stamp]) eventId dispatchTo =
      isAlreadyDispatched env stamps eventId dispatchTo := by
  have hbare : ({ eventId, target := none } : Stamp) ≠ stamp := by
    rintro rfl
    exact htarget rfl
  unfold isAlreadyDispatched
  simp [hbare, Ne.symm hother]

theorem mem_log_append {P : LoggedEvent → Prop} (h : ¬ P event) :
    (∃ other ∈ log ++ [event], P other) ↔ ∃ other ∈ log, P other := by
  constructor
  · rintro ⟨other, hmem, hother⟩
    rcases mem_append.mp hmem with hold | hnew
    · exact ⟨other, hold, hother⟩
    · rw [mem_singleton.mp hnew] at hother
      exact absurd hother h
  · rintro ⟨other, hmem, hother⟩
    exact ⟨other, mem_append_left _ hmem, hother⟩

theorem decided_append (h : ¬ event.Escalates entryId) :
    Decided (log ++ [event]) entryId entry ↔ Decided log entryId entry := by
  unfold Decided
  cases entry.entryReason with
  | unroutable =>
    refine and_congr_right fun _ => ?_
    exact mem_log_append (P := fun event => entry.escalationEventId = some event.eventId.val ∧
      event.Escalates entryId) fun hevent => h hevent.2
  | structuralFailure => exact Iff.rfl
  | circuitTripped => exact Iff.rfl

theorem get_apply_inbox {write : InboxWrite}
    (h : ∀ entry, write = .putEntry entry → entry.entryId ≠ entryId) :
    Dict.get (disk.inbox.apply write).entries entryId = Dict.get disk.inbox.entries entryId := by
  cases write with
  | putEntry entry => exact get_set_of_ne disk.inbox.entries entry (Ne.symm (h entry rfl))
  | emit event => rfl
  | putKey key other => rfl
  | dropKey key => rfl

theorem untouched_apply (h : ¬ write.About env promise) :
    Untouched env disk (disk.apply write) promise := by
  cases write with
  | stamp stamp =>
    have hparts : stamp.target ≠ none ∧ promise.stampOf env ≠ some stamp := by
      cases promise <;> exact not_or.mp h
    refine ⟨?_, ?_, fun _ _ => rfl⟩
    · cases promise with
      | surfaced escalationId =>
        show isAlreadyDispatched env (disk.stamps ++ [stamp]) _ _ = false ↔ _
        rw [isAlreadyDispatched_stamp hparts.1 fun heq => hparts.2 (by rw [heq]; rfl)]
        rfl
      | redecomposed replanId =>
        show isAlreadyDispatched env (disk.stamps ++ [stamp]) _ _ = false ↔ _
        rw [isAlreadyDispatched_stamp hparts.1 fun heq => hparts.2 (by rw [heq]; rfl)]
        rfl
      | triaged entryId => exact Iff.rfl
    · cases promise <;> exact Iff.rfl
  | append event =>
    refine ⟨?_, ?_, fun _ _ => rfl⟩
    · cases promise <;> exact Iff.rfl
    · cases promise with
      | surfaced escalationId => exact mem_log_append h
      | redecomposed replanId => exact mem_log_append h
      | triaged entryId => exact exists_congr fun entry => and_congr_right fun _ => decided_append h
  | inbox write =>
    have hget : ∀ entryId, promise = .triaged entryId →
        Dict.get (disk.inbox.apply write).entries entryId = Dict.get disk.inbox.entries entryId := by
      rintro entryId rfl
      refine get_apply_inbox fun entry hwrite heq => ?_
      subst hwrite
      exact h heq
    refine ⟨?_, ?_, hget⟩
    all_goals
      cases promise with
      | surfaced escalationId => exact Iff.rfl
      | redecomposed replanId => exact Iff.rfl
      | triaged entryId =>
        exact exists_congr fun entry => and_congr_left fun _ => Eq.congr_left (hget entryId rfl)
  | backlogMarker triggerEventId dispatchTo =>
    refine ⟨?_, ?_, fun _ _ => rfl⟩
    · cases promise <;> exact Iff.rfl
    · cases promise <;> exact Iff.rfl

theorem untouched_applyAll (h : ∀ write ∈ writes, ¬ write.About env promise) :
    Untouched env disk (disk.applyAll writes) promise := by
  induction writes generalizing disk with
  | nil => exact Untouched.refl disk promise
  | cons write writes ih =>
    exact (untouched_apply (h write mem_cons_self)).trans
      (ih fun other hother => h other (mem_cons_of_mem _ hother))

/-! ### The writes of an action -/

theorem stampOf_inj (h : promise.stampOf env = some stamp) (hother : other.stampOf env =
  some stamp) : promise = other := by
  have hne := slug_main_ne_planning env
  cases promise with
  | triaged entryId => cases h
  | surfaced escalationId =>
    cases h
    cases other <;> simp_all [Promise.stampOf, compositeStamp]
  | redecomposed replanId =>
    cases h
    cases other <;> simp_all [Promise.stampOf, compositeStamp]

theorem unwrapped_buildOrchNodetouched (eventId : EventId) (kind decisionId : String) (body : Payload) :
    (buildOrchNodetouched eventId kind decisionId body).unwrapped = (kind, body.entries) := rfl

theorem dispatches_orchestratorDispatched {trigger triggerType reason target : String} :
    (orchestratorDispatched draws kind trigger triggerType dispatchTo reason).Dispatches eventId target ↔
      trigger = eventId ∧ dispatchTo = target := by
  have hunwrapped : (orchestratorDispatched draws kind trigger triggerType dispatchTo reason).unwrapped =
      ("OrchestratorDispatched",
        (dispatchedPayload (draws.decisionId trigger) trigger triggerType dispatchTo reason).entries) :=
    unwrapped_buildOrchNodetouched _ _ _ _
  have htrigger : Json.lookup (dispatchedPayload (draws.decisionId trigger) trigger triggerType dispatchTo
      reason).entries "trigger_event_id" = .str trigger := rfl
  have htarget : Json.lookup (dispatchedPayload (draws.decisionId trigger) trigger triggerType dispatchTo
      reason).entries "dispatch_to" = .str dispatchTo := rfl
  unfold LoggedEvent.Dispatches
  rw [hunwrapped, htrigger, htarget]
  simp

theorem escalates_deadLetterEscalation :
    (deadLetterEscalation draws entry).Escalates entryId ↔ entry.entryId = entryId := by
  have hunwrapped : (deadLetterEscalation draws entry).unwrapped =
      ("GoalEscalationRaised", (deadLetterEscalationPayload entry draws.raisedAt).entries) :=
    unwrapped_buildOrchNodetouched _ _ _ _
  have hentry : Json.lookup (deadLetterEscalationPayload entry draws.raisedAt).entries
      "dead_letter_entry_id" = .str entry.entryId := rfl
  unfold LoggedEvent.Escalates
  rw [hunwrapped, hentry]
  simp

theorem about_executeDispatch {trigger triggerType reason : String}
    (hwrite : write ∈ executeDispatch env draws disk kind trigger triggerType dispatchTo reason)
    (h : write.About env promise) :
    promise.stampOf env = some (compositeStamp env trigger dispatchTo) := by
  unfold executeDispatch at hwrite
  split at hwrite
  · cases hwrite
  · rcases mem_cons.mp hwrite with rfl | hwrite
    · rcases h with hbare | hstamp
      · cases hbare
      · exact hstamp
    · obtain rfl := mem_singleton.mp hwrite
      cases promise with
      | surfaced escalationId =>
        obtain ⟨rfl, rfl⟩ := dispatches_orchestratorDispatched.mp h
        rfl
      | redecomposed replanId =>
        obtain ⟨rfl, rfl⟩ := dispatches_orchestratorDispatched.mp h
        rfl
      | triaged entryId =>
        have hkind : "OrchestratorDispatched" = "GoalEscalationRaised" := h.1
        exact absurd hkind (by decide)

theorem about_record {event : LifecycleEvent}
    (hwrite : write ∈ (record env event eventId).map Write.inbox) (h : write.About env promise) :
    promise = .triaged event.entry.entryId := by
  obtain ⟨write, hmem, rfl⟩ := mem_map.mp hwrite
  have hput : ∀ entry, write = .putEntry entry → entry.entryId = event.entry.entryId := by
    rintro entry rfl
    simp only [record, writeEntry, mem_cons, reduceCtorEq, InboxWrite.putEntry.injEq,
      not_mem_nil, or_false, false_or] at hmem
    rcases hmem with rfl | hkey
    · rfl
    · split at hkey <;> cases hkey
  cases write with
  | putEntry entry =>
    cases promise with
    | triaged entryId => rw [← hput entry rfl, show entry.entryId = entryId from h]
    | surfaced escalationId => exact h.elim
    | redecomposed replanId => exact h.elim
  | emit event => cases promise <;> exact h.elim
  | putKey key entryId => cases promise <;> exact h.elim
  | dropKey key => cases promise <;> exact h.elim

/-! ### Dead-letter actions -/

theorem requireEntry_of_get (hget : Dict.get inbox.entries entryId = some entry)
    (hstate : entry.triageStatus ∈ allowed) : requireEntry inbox entryId allowed = .ok entry := by
  unfold requireEntry
  rw [hget]
  exact if_pos hstate

theorem get_applyAll_record (event : LifecycleEvent) (eventId : String) :
    Dict.get (inbox.applyAll (record env event eventId)).entries event.entry.entryId =
      some { event.entry with lastEventId := some eventId } := by
  have hput : Dict.get (inbox.apply (.putEntry { event.entry with lastEventId := some eventId })).entries
      event.entry.entryId = some { event.entry with lastEventId := some eventId } :=
    get_set_self inbox.entries _ _
  simp only [record, writeEntry]
  split <;> exact hput

section Triage

variable {entry : DeadLetterEntry}

def startedEvent (draws : PassDraws) (entry : DeadLetterEntry) : LifecycleEvent :=
  triageStarted "auto-reconcile" draws.now entry

def startedId (draws : PassDraws) (entry : DeadLetterEntry) : String :=
  draws.lifecycleId .triageStarted entry.entryId

def claimedEntry (draws : PassDraws) (entry : DeadLetterEntry) : DeadLetterEntry :=
  { (startedEvent draws entry).entry with lastEventId := some (startedId draws entry) }

theorem executeDeadLetterAction_enqueued (hget : Dict.get disk.inbox.entries action.target = some entry)
    (hstate : entry.triageStatus = .enqueued) :
    executeDeadLetterAction env draws disk action =
      (record env (startedEvent draws entry) (startedId draws entry)).map .inbox ++
        decideEntry env draws (disk.inbox.applyAll (record env (startedEvent draws entry)
          (startedId draws entry))) action.kind entry := by
  have hown : entry.entryId = action.target := disk.filed.2 _ _ hget
  have hstarted : written (startTriage env disk.inbox action.target "auto-reconcile" draws.now
      (draws.lifecycleId .triageStarted action.target)) =
        record env (startedEvent draws entry) (startedId draws entry) := by
    unfold startTriage
    rw [requireEntry_of_get hget (by rw [hstate]; exact mem_singleton_self _), ← hown]
    rfl
  unfold executeDeadLetterAction
  rw [hget]
  simp only [hstate, if_true, hstarted]

def retiredEvent (draws : PassDraws) (entry : DeadLetterEntry) : LifecycleEvent :=
  triageRetired "auto-reconcile" (retireReason entry) draws.now (claimedEntry draws entry)

def escalatedEvent (draws : PassDraws) (entry : DeadLetterEntry) : LifecycleEvent :=
  triageEscalated "auto-reconcile" (some (deadLetterEscalation draws entry).eventId.val) draws.now
    (claimedEntry draws entry)

theorem requireEntry_claimed :
    requireEntry (inbox.applyAll (record env (startedEvent draws entry) (startedId draws entry)))
      entry.entryId [.underTriage] = .ok (claimedEntry draws entry) :=
  requireEntry_of_get (get_applyAll_record (startedEvent draws entry) (startedId draws entry))
    (mem_singleton_self _)

theorem decideEntry_triage : decideEntry env draws (inbox.applyAll (record env
    (startedEvent draws entry) (startedId draws entry))) .triage entry =
      (record env (retiredEvent draws entry) (draws.lifecycleId .retired entry.entryId)).map .inbox := by
  simp only [decideEntry, decideRetire, requireEntry_claimed]
  rfl

theorem decideEntry_escalate : decideEntry env draws (inbox.applyAll (record env
    (startedEvent draws entry) (startedId draws entry))) .escalate entry =
      .append (deadLetterEscalation draws entry) :: (record env (escalatedEvent draws entry)
        (draws.lifecycleId .escalated entry.entryId)).map .inbox := by
  simp only [decideEntry, decideEscalate, requireEntry_claimed]
  rfl

end Triage

theorem about_executeDeadLetterAction
    (hwrite : write ∈ executeDeadLetterAction env draws disk action) (h : write.About env promise) :
    promise = .triaged action.target := by
  cases hget : Dict.get disk.inbox.entries action.target with
  | none =>
    unfold executeDeadLetterAction at hwrite
    rw [hget] at hwrite
    cases hwrite
  | some entry =>
    have hown : entry.entryId = action.target := disk.filed.2 _ _ hget
    by_cases hstate : entry.triageStatus = .enqueued
    · rw [executeDeadLetterAction_enqueued hget hstate] at hwrite
      rcases mem_append.mp hwrite with hstarted | hdecided
      · exact hown ▸ about_record hstarted h
      · cases hkind : action.kind with
        | triage =>
          rw [hkind, decideEntry_triage] at hdecided
          exact hown ▸ about_record hdecided h
        | escalate =>
          rw [hkind, decideEntry_escalate] at hdecided
          rcases mem_cons.mp hdecided with rfl | hdecided
          · cases promise with
            | triaged entryId => rw [← hown, escalates_deadLetterEscalation.mp h]
            | surfaced escalationId =>
              have hname : "GoalEscalationRaised" = "OrchestratorDispatched" := h.1
              exact absurd hname (by decide)
            | redecomposed replanId =>
              have hname : "GoalEscalationRaised" = "OrchestratorDispatched" := h.1
              exact absurd hname (by decide)
          · exact hown ▸ about_record hdecided h
        | _ =>
          rw [hkind] at hdecided
          cases hdecided
    · unfold executeDeadLetterAction at hwrite
      rw [hget] at hwrite
      simp only [hstate] at hwrite
      cases hwrite

/-! ### An action for something else -/

def Known (disk : Disk) (promise : Promise) : Prop :=
  ∀ entryId, promise = .triaged entryId → ∃ entry, Dict.get disk.inbox.entries entryId = some entry

theorem Known.of_owed (h : Owed disk promise) : Known disk promise := by
  rintro entryId rfl
  exact h

theorem Known.of_open (h : Open env disk promise) : Known disk promise := by
  rintro entryId rfl
  obtain ⟨entry, hget, -⟩ := h
  exact ⟨entry, hget⟩

theorem Known.untouched (h : Known before promise) (huntouched : Untouched env before after promise) :
    Known after promise := by
  rintro entryId heq
  rw [huntouched.entry entryId heq]
  exact h entryId heq

theorem not_decided_enqueued (h : entry.triageStatus = .enqueued) :
    ¬ Decided log entryId entry := by
  unfold Decided
  cases entry.entryReason <;> simp [h]

theorem enqueued_applyAll
    (hputs : ∀ entry, Write.inbox (.putEntry entry) ∈ writes → entry.triageStatus = .enqueued)
    (hbefore : ∀ entry, Dict.get disk.inbox.entries entryId = some entry → entry.triageStatus = .enqueued) :
    ∀ entry, Dict.get (disk.applyAll writes).inbox.entries entryId = some entry →
      entry.triageStatus = .enqueued := by
  induction writes generalizing disk with
  | nil => exact hbefore
  | cons write writes ih =>
    refine ih (fun entry hentry => hputs entry (mem_cons_of_mem _ hentry)) ?_
    intro entry hget
    cases write with
    | inbox write =>
      by_cases hput : ∃ put, write = .putEntry put ∧ put.entryId = entryId
      · obtain ⟨put, rfl, rfl⟩ := hput
        have hself : Dict.get (disk.inbox.apply (.putEntry put)).entries put.entryId = some put :=
          get_set_self disk.inbox.entries put.entryId put
        cases hself.symm.trans hget
        exact hputs _ mem_cons_self
      · refine hbefore entry ((get_apply_inbox fun put hwrite heq => hput ⟨put, hwrite, heq⟩).symm.trans hget)
    | stamp stamp => exact hbefore entry hget
    | append event => exact hbefore entry hget
    | backlogMarker triggerEventId dispatchTo => exact hbefore entry hget

theorem forwardChainDeadletter_cut (done : Nat) :
    (Kept (disk.applyAll ((executeForwardChainDeadletterAction env draws disk action).take done)) promise ↔
      Kept disk promise) ∧ (Known disk promise → Untouched env disk
        (disk.applyAll ((executeForwardChainDeadletterAction env draws disk action).take done)) promise) := by
  let call : EnqueueCall :=
    { sourceObjectType := "forward_chain_trigger", sourceObjectRef := action.target
      entryReason := .unroutable, originalTriggerEventId := some action.target, now := draws.now
      entryId := draws.entryId (Dict.keys disk.inbox.entries) }
  have hexecute : executeForwardChainDeadletterAction env draws disk action =
      (enqueue env disk.inbox call (draws.lifecycleId .enqueued action.target)).1.map .inbox := rfl
  rw [hexecute]
  unfold enqueue
  cases activeEntryFor env disk.inbox call.sourceObjectRef call.entryReason with
  | some existing =>
    simp only [map_nil, take_nil]
    exact ⟨Iff.rfl, fun _ => Untouched.refl disk promise⟩
  | none =>
    let event : LifecycleEvent :=
      { kind := .enqueued
        entry := call.entry (priorTerminalReentry disk.inbox call.sourceObjectRef call.entryReason) }
    let writes := (record env event (draws.lifecycleId .enqueued action.target)).map Write.inbox
    have hnew : Dict.get disk.inbox.entries event.entry.entryId = none :=
      Dict.get_eq_none_iff.mpr (draws.fresh _)
    by_cases hpromise : promise = .triaged event.entry.entryId
    · subst hpromise
      have hafter : ∀ entry, Dict.get (disk.applyAll (writes.take done)).inbox.entries event.entry.entryId =
          some entry → entry.triageStatus = .enqueued := by
        refine enqueued_applyAll (fun entry hentry => ?_) fun entry hget => ?_
        · obtain ⟨write, hwrite, heq⟩ := mem_map.mp (mem_of_mem_take hentry)
          cases heq
          simp only [record, writeEntry, mem_cons, reduceCtorEq, InboxWrite.putEntry.injEq,
            not_mem_nil, or_false, false_or] at hwrite
          rcases hwrite with rfl | hkey
          · rfl
          · split at hkey <;> cases hkey
        · rw [hnew] at hget
          cases hget
      refine ⟨⟨?_, ?_⟩, fun hknown => ?_⟩
      · rintro ⟨entry, hget, hdecided⟩
        exact absurd hdecided (not_decided_enqueued (hafter entry hget))
      · rintro ⟨entry, hget, -⟩
        rw [hnew] at hget
        cases hget
      · obtain ⟨entry, hget⟩ := hknown _ rfl
        rw [hnew] at hget
        cases hget
    · have huntouched : Untouched env disk (disk.applyAll (writes.take done)) promise :=
        untouched_applyAll fun write hwrite habout =>
          hpromise (about_record (mem_of_mem_take hwrite) habout)
      exact ⟨huntouched.kept_iff, fun _ => huntouched⟩

theorem other_cut (hne : action.promise ≠ some promise) (done : Nat) :
    (Kept (disk.applyAll ((execute env draws disk action).take done)) promise ↔ Kept disk promise) ∧
      (Known disk promise →
        Untouched env disk (disk.applyAll ((execute env draws disk action).take done)) promise) := by
  by_cases hkind : action.kind = .forwardChainDeadletter
  · have hexecute : execute env draws disk action =
        executeForwardChainDeadletterAction env draws disk action := by
      unfold execute
      rw [hkind]
    rw [hexecute]
    exact forwardChainDeadletter_cut done
  · have huntouched : Untouched env disk
        (disk.applyAll ((execute env draws disk action).take done)) promise := by
      refine untouched_applyAll fun write hwrite habout => hne ?_
      have hmem := mem_of_mem_take hwrite
      unfold execute at hmem
      unfold ReconcileAction.promise
      cases hcase : action.kind with
      | replan =>
        rw [hcase] at hmem
        simp only [executeReplanAction] at hmem
        split at hmem
        · cases hmem
        · exact congrArg some (stampOf_inj (about_executeDispatch hmem habout) rfl).symm
      | escalationSurface =>
        rw [hcase] at hmem
        exact congrArg some (stampOf_inj (about_executeDispatch hmem habout) rfl).symm
      | escalate | triage | wait | redispatch =>
        rw [hcase] at hmem
        exact congrArg some (about_executeDeadLetterAction hmem habout).symm
      | forwardChainDispatch =>
        rw [hcase] at hmem
        simp only [executeForwardChainDispatchAction] at hmem
        split at hmem
        · cases hmem
        · obtain rfl := mem_singleton.mp hmem
          cases promise <;> exact habout.elim
      | forwardChainDeadletter => exact absurd hcase hkind
      | dispatch | revive | reDecompose =>
        rw [hcase] at hmem
        cases hmem
    exact ⟨huntouched.kept_iff, fun _ => huntouched⟩

/-! ### An action for the promise -/

def Fits (disk : Disk) (action : ReconcileAction) : Prop :=
  match action.kind with
  | .replan => action.replanEventId ≠ ""
  | .triage => ∃ entry, Dict.get disk.inbox.entries action.target = some entry ∧
      entry.entryReason ≠ .unroutable
  | .escalate => ∃ entry, Dict.get disk.inbox.entries action.target = some entry ∧
      entry.entryReason = .unroutable
  | .wait | .redispatch => False
  | _ => True

theorem Fits.untouched (h : Fits before action) (hpromise : action.promise = some promise)
    (huntouched : Untouched env before after promise) : Fits after action := by
  unfold ReconcileAction.promise at hpromise
  unfold Fits at h ⊢
  cases hkind : action.kind with
  | triage | escalate =>
    rw [hkind] at h hpromise
    simp only at h hpromise ⊢
    rw [huntouched.entry action.target (some.inj hpromise).symm]
    exact h
  | replan =>
    rw [hkind] at h
    exact h
  | wait | redispatch =>
    rw [hkind] at h
    exact h.elim
  | _ => trivial

theorem execute_idle (hpromise : action.promise = some promise) (hclosed : ¬ Open env disk promise) :
    execute env draws disk action = [] := by
  unfold ReconcileAction.promise at hpromise
  unfold execute
  cases hkind : action.kind with
  | replan =>
    rw [hkind] at hpromise
    cases hpromise
    simp only [executeReplanAction, executeDispatch, if_pos (Bool.not_eq_false _ ▸ hclosed), ite_self]
  | escalationSurface =>
    rw [hkind] at hpromise
    cases hpromise
    simp only [executeEscalationAction, executeDispatch, if_pos (Bool.not_eq_false _ ▸ hclosed)]
  | escalate | triage | wait | redispatch =>
    rw [hkind] at hpromise
    cases hpromise
    simp only [executeDeadLetterAction]
    cases hget : Dict.get disk.inbox.entries action.target with
    | none => rfl
    | some entry => exact if_neg fun hstate => hclosed ⟨entry, hget, hstate⟩
  | forwardChainDispatch | forwardChainDeadletter =>
    rw [hkind] at hpromise
    cases hpromise
  | dispatch | revive | reDecompose => rfl

theorem mem_log_applyAll (h : event ∈ disk.log) : event ∈ (disk.applyAll writes).log := by
  induction writes generalizing disk with
  | nil => exact h
  | cons write writes ih =>
    refine ih ?_
    cases write with
    | append other => exact mem_append_left _ h
    | stamp stamp => exact h
    | inbox write => exact h
    | backlogMarker triggerEventId dispatchTo => exact h

theorem kept_cut (h : Kept disk promise) (done : Nat) :
    Kept (disk.applyAll ((execute env draws disk action).take done)) promise := by
  by_cases hpromise : action.promise = some promise
  · by_cases hopen : Open env disk promise
    · cases promise with
      | surfaced escalationId =>
        obtain ⟨event, hmem, hevent⟩ := h
        exact ⟨event, mem_log_applyAll hmem, hevent⟩
      | redecomposed replanId =>
        obtain ⟨event, hmem, hevent⟩ := h
        exact ⟨event, mem_log_applyAll hmem, hevent⟩
      | triaged entryId =>
        obtain ⟨entry, hget, hdecided⟩ := h
        obtain ⟨other, hother, hstate⟩ := hopen
        cases hget.symm.trans hother
        exact absurd hdecided (not_decided_enqueued hstate)
    · rw [execute_idle hpromise hopen, take_nil]
      exact h
  · exact (other_cut hpromise done).1.mpr h

/-! ### Cleared stamps -/

/-- What is left of an action for a promise: hidden in one case, else open or kept. No action has more
than seven writes. -/
structure Cut (env : InboxEnv) (hides : Prop) (done : Nat) (next : Disk) (promise : Promise) : Prop where
  hidden : hides → ¬ Open env next promise ∧ ¬ Kept next promise
  safe : ¬ hides → Open env next promise ∨ Kept next promise
  whole : 7 ≤ done → Kept next promise

theorem kept_clearStamps : Kept (disk.clearStamps env dead) promise ↔ Kept disk promise := by
  cases promise <;> exact Iff.rfl

theorem owed_clearStamps : Owed (disk.clearStamps env dead) promise ↔ Owed disk promise := by
  cases promise <;> exact Iff.rfl

theorem open_iff_stamps (hstamp : promise.stampOf env = some stamp) :
    Open env disk promise ↔
      { eventId := stamp.eventId, target := none } ∉ disk.stamps ∧ stamp ∉ disk.stamps := by
  cases promise with
  | triaged entryId => cases hstamp
  | surfaced escalationId =>
    cases hstamp
    exact decide_eq_false_iff_not.trans not_or
  | redecomposed replanId =>
    cases hstamp
    exact decide_eq_false_iff_not.trans not_or

theorem mem_clearStamps :
    stamp ∈ (disk.clearStamps env dead).stamps ↔
      stamp ∈ disk.stamps ∧ ∀ baton ∈ dead, compositeStamp env baton.1 baton.2 ≠ stamp := by
  simp [Disk.clearStamps]

theorem open_clearStamps (h : Open env disk promise) :
    Open env (disk.clearStamps env dead) promise := by
  cases hstamp : promise.stampOf env with
  | none =>
    cases promise with
    | triaged entryId => exact h
    | surfaced escalationId => cases hstamp
    | redecomposed replanId => cases hstamp
  | some stamp =>
    obtain ⟨hbare, hown⟩ := (open_iff_stamps hstamp).mp h
    exact (open_iff_stamps hstamp).mpr
      ⟨fun hmem => hbare (mem_clearStamps.mp hmem).1, fun hmem => hown (mem_clearStamps.mp hmem).1⟩

/-! ### Where an action may be cut -/

section Dispatch

variable {kind : ActionKind} {trigger dispatchTo : String}

section

variable (hstamp : promise.stampOf env = some (compositeStamp env trigger dispatchTo))
include hstamp

theorem executeDispatch_open (hopen : Open env disk promise) :
    executeDispatch env draws disk kind trigger triggerType dispatchTo reason =
      [.stamp (compositeStamp env trigger dispatchTo),
        .append (orchestratorDispatched draws kind trigger triggerType dispatchTo reason)] := by
  obtain ⟨hbare, hown⟩ := (open_iff_stamps hstamp).mp hopen
  refine if_neg ?_
  rw [Bool.not_eq_true]
  exact decide_eq_false (not_or.mpr ⟨hbare, hown⟩)

theorem dispatch_cut
    (hkeeps : ∀ disk : Disk, Kept (disk.apply
      (.append (orchestratorDispatched draws kind trigger triggerType dispatchTo reason))) promise)
    (hopen : Open env disk promise) (done : Nat) (dead : List (String × String)) :
    Cut env (done = 1 ∧ ¬ Kept disk promise ∧
        ∀ baton ∈ dead, some (compositeStamp env baton.1 baton.2) ≠ promise.stampOf env) done
      ((disk.applyAll ((executeDispatch env draws disk kind trigger triggerType dispatchTo
        reason).take done)).clearStamps env dead) promise := by
  rw [executeDispatch_open hstamp hopen]
  obtain ⟨hbare, hown⟩ := (open_iff_stamps hstamp).mp hopen
  match done with
  | 0 =>
    exact ⟨fun h => absurd h.1 (by decide), fun _ => .inl (open_clearStamps hopen),
      fun h => absurd h (by decide)⟩
  | 1 =>
    let stamped := disk.apply (.stamp (compositeStamp env trigger dispatchTo))
    show Cut env _ _ (stamped.clearStamps env dead) promise
    have hkept : Kept (stamped.clearStamps env dead) promise ↔ Kept disk promise := by
      rw [kept_clearStamps]
      cases promise <;> exact Iff.rfl
    refine ⟨fun h => ⟨fun hreopened => ?_, fun hkeep => h.2.1 (hkept.mp hkeep)⟩, fun h => ?_,
      fun h => absurd h (by decide)⟩
    · refine ((open_iff_stamps hstamp).mp hreopened).2 (mem_clearStamps.mpr ⟨?_, fun baton hbaton heq => ?_⟩)
      · exact mem_append_right disk.stamps (mem_singleton_self _)
      · exact h.2.2 baton hbaton (by rw [hstamp, heq])
    · by_cases hkeep : Kept disk promise
      · exact .inr (hkept.mpr hkeep)
      · -- the stamp is the only one that hides the promise, and it is cleared
        have hcleared : ∃ baton ∈ dead, compositeStamp env baton.1 baton.2 =
            compositeStamp env trigger dispatchTo := by
          by_contra hnone
          refine h ⟨rfl, hkeep, fun baton hbaton heq => hnone ⟨baton, hbaton, ?_⟩⟩
          exact some.inj (heq.trans hstamp)
        obtain ⟨baton, hbaton, heq⟩ := hcleared
        refine .inl ((open_iff_stamps hstamp).mpr ⟨fun hmem => ?_, fun hmem => ?_⟩)
        · rcases mem_append.mp (mem_clearStamps.mp hmem).1 with hold | hnew
          · exact hbare hold
          · cases mem_singleton.mp hnew
        · exact (mem_clearStamps.mp hmem).2 baton hbaton heq
  | more + 2 =>
    have hwhole : ∀ first second : Write, [first, second].take (more + 2) = [first, second] :=
      fun first second => take_of_length_le (by simp)
    rw [hwhole]
    exact ⟨fun h => absurd h.1 (by omega), fun _ => .inr (kept_clearStamps.mpr (hkeeps _)),
      fun _ => kept_clearStamps.mpr (hkeeps _)⟩

end

end Dispatch

section Triage

variable {entry : DeadLetterEntry}

theorem entries_record_take (event : LifecycleEvent) (eventId : String) (done : Nat) :
    (inbox.applyAll ((record env event eventId).take done)).entries =
      if done < 2 then inbox.entries
      else Dict.set inbox.entries event.entry.entryId { event.entry with lastEventId := some eventId } := by
  match done with
  | 0 | 1 | 2 => rfl
  | more + 3 =>
    rw [take_of_length_le (by simp [record, writeEntry]), if_neg (by omega)]
    simp only [record, writeEntry, Inbox.applyAll, foldl_cons, foldl_nil]
    split <;> rfl

theorem applyAll_append (writes others : List Write) :
    disk.applyAll (writes ++ others) = (disk.applyAll writes).applyAll others := foldl_append

theorem inbox_applyAll_map (writes : List InboxWrite) :
    (disk.applyAll (writes.map .inbox)).inbox = disk.inbox.applyAll writes ∧
      (disk.applyAll (writes.map .inbox)).log = disk.log := by
  induction writes generalizing disk with
  | nil => exact ⟨rfl, rfl⟩
  | cons write writes ih => exact ih

theorem get_record_take (event : LifecycleEvent) (eventId : String) (done : Nat) :
    Dict.get (disk.applyAll (((record env event eventId).map Write.inbox).take done)).inbox.entries
        event.entry.entryId =
      if done < 2 then Dict.get disk.inbox.entries event.entry.entryId
      else some { event.entry with lastEventId := some eventId } := by
  rw [← map_take, (inbox_applyAll_map _).1, entries_record_take]
  split
  · rfl
  · exact get_set_self _ _ _

theorem take_started_append (writes : List Write) (done : Nat) :
    disk.applyAll ((((record env (startedEvent draws entry) (startedId draws entry)).map Write.inbox) ++
      writes).take done) =
    (disk.applyAll (((record env (startedEvent draws entry) (startedId draws entry)).map Write.inbox).take
      done)).applyAll (writes.take (done - 3)) := by
  rw [take_append, applyAll_append]
  rfl

theorem not_decided_claimed : ¬ Decided log entryId (claimedEntry draws entry) := by
  have hstate : (claimedEntry draws entry).triageStatus = .underTriage := rfl
  unfold Decided
  cases (claimedEntry draws entry).entryReason <;> simp [hstate]

theorem hidden_of_claimed {next : Disk}
    (hget : Dict.get next.inbox.entries entryId = some (claimedEntry draws entry)) :
    ¬ Open env next (.triaged entryId) ∧ ¬ Kept next (.triaged entryId) := by
  constructor
  · rintro ⟨other, hother, hstate⟩
    cases hget.symm.trans hother
    cases hstate
  · rintro ⟨other, hother, hdecided⟩
    cases hget.symm.trans hother
    exact not_decided_claimed hdecided

section

variable (hget : Dict.get disk.inbox.entries action.target = some entry)
    (hstate : entry.triageStatus = .enqueued)
include hget hstate

theorem get_triage_take (hkind : action.kind = .triage) (done : Nat) :
    Dict.get (disk.applyAll ((executeDeadLetterAction env draws disk action).take done)).inbox.entries
        action.target =
      if done < 2 then some entry
      else if done < 5 then some (claimedEntry draws entry)
      else some { (retiredEvent draws entry).entry with
        lastEventId := some (draws.lifecycleId .retired entry.entryId) } := by
  have hown : entry.entryId = action.target := disk.filed.2 _ _ hget
  have hstarted := @get_record_take env disk (startedEvent draws entry)
    (startedId draws entry) done
  have hretired := @get_record_take env (disk.applyAll (((record env
    (startedEvent draws entry) (startedId draws entry)).map Write.inbox).take done))
    (retiredEvent draws entry) (draws.lifecycleId .retired entry.entryId) (done - 3)
  have hid : (startedEvent draws entry).entry.entryId = action.target := hown
  have hid' : (retiredEvent draws entry).entry.entryId = action.target := hown
  rw [hid, hget] at hstarted
  rw [hid', hstarted] at hretired
  rw [executeDeadLetterAction_enqueued hget hstate, hkind, decideEntry_triage, take_started_append, hretired]
  by_cases hfew : done < 2
  · rw [if_pos hfew, if_pos hfew, if_pos (by omega)]
  · rw [if_neg hfew, if_neg hfew]
    exact if_congr (by omega) rfl rfl

theorem get_escalate_take (hkind : action.kind = .escalate) (done : Nat) :
    Dict.get (disk.applyAll ((executeDeadLetterAction env draws disk action).take done)).inbox.entries
        action.target =
      (if done < 2 then some entry
      else if done < 6 then some (claimedEntry draws entry)
      else some { (escalatedEvent draws entry).entry with
        lastEventId := some (draws.lifecycleId .escalated entry.entryId) }) ∧
      (4 ≤ done → deadLetterEscalation draws entry ∈
        (disk.applyAll ((executeDeadLetterAction env draws disk action).take done)).log) := by
  have hown : entry.entryId = action.target := disk.filed.2 _ _ hget
  let claimed := disk.applyAll (((record env (startedEvent draws entry) (startedId draws entry)).map
    Write.inbox).take done)
  have hstarted : Dict.get claimed.inbox.entries (startedEvent draws entry).entry.entryId = _ :=
    get_record_take (startedEvent draws entry) (startedId draws entry) done
  have hid : (startedEvent draws entry).entry.entryId = action.target := hown
  rw [hid, hget] at hstarted
  rw [executeDeadLetterAction_enqueued hget hstate, hkind, decideEntry_escalate, take_started_append]
  by_cases hfew : done < 4
  · have hnone : done - 3 = 0 := by omega
    rw [hnone, take_zero]
    refine ⟨hstarted.trans ?_, fun hmany => absurd hmany (by omega)⟩
    exact if_congr Iff.rfl rfl (by rw [if_pos (by omega)]; rfl)
  · obtain ⟨more, rfl⟩ : ∃ more, done = more + 4 := ⟨done - 4, by omega⟩
    have hsucc : more + 4 - 3 = more + 1 := by omega
    rw [hsucc, take_succ_cons]
    let escalated := claimed.apply (.append (deadLetterEscalation draws entry))
    have hdecided := @get_record_take env escalated (escalatedEvent draws entry)
      (draws.lifecycleId .escalated entry.entryId) more
    have hid' : (escalatedEvent draws entry).entry.entryId = action.target := hown
    have hsame : Dict.get escalated.inbox.entries action.target =
        Dict.get claimed.inbox.entries action.target := rfl
    rw [hid', hsame, hstarted, if_neg (show ¬ more + 4 < 2 by omega)] at hdecided
    refine ⟨hdecided.trans ?_, fun _ => @mem_log_applyAll escalated _ _
      (mem_append_right _ (mem_singleton_self _))⟩
    rw [if_neg (show ¬ more + 4 < 2 by omega)]
    exact if_congr (by omega) rfl rfl

end

end Triage

section

variable (hpromise : action.promise = some promise) (hfits : Fits disk action)
    (hopen : Open env disk promise)
include hpromise hfits hopen

theorem own_cut (done : Nat) (dead : List (String × String)) :
    Cut env (Hides env disk action.kind promise done dead) done
      ((disk.applyAll ((execute env draws disk action).take done)).clearStamps env dead) promise := by
  unfold ReconcileAction.promise at hpromise
  unfold Fits at hfits
  unfold execute
  cases hkind : action.kind with
  | replan =>
    rw [hkind] at hpromise hfits
    cases hpromise
    simp only [executeReplanAction, if_neg hfits]
    refine dispatch_cut rfl (fun disk => ?_) hopen done dead
    exact ⟨_, mem_append_right _ (mem_singleton_self _),
      dispatches_orchestratorDispatched.mpr ⟨rfl, rfl⟩⟩
  | escalationSurface =>
    rw [hkind] at hpromise
    cases hpromise
    simp only [executeEscalationAction]
    refine dispatch_cut rfl (fun disk => ?_) hopen done dead
    exact ⟨_, mem_append_right _ (mem_singleton_self _),
      dispatches_orchestratorDispatched.mpr ⟨rfl, rfl⟩⟩
  | triage =>
    rw [hkind] at hpromise hfits
    cases hpromise
    obtain ⟨entry, hget, hstate⟩ := hopen
    obtain ⟨other, hother, hreason⟩ := hfits
    cases hget.symm.trans hother
    have hafter := @get_triage_take env draws _ _ _ hget hstate hkind done
    have hkept : ¬ done < 5 → Kept ((disk.applyAll ((executeDeadLetterAction env draws disk action).take
        done)).clearStamps env dead) (.triaged action.target) := by
      intro hhigh
      rw [if_neg (by omega), if_neg hhigh] at hafter
      refine ⟨_, hafter, ?_⟩
      have hretired : (retiredEvent draws entry).entry.triageStatus = .retired := rfl
      have hsame : (retiredEvent draws entry).entry.entryReason = entry.entryReason := rfl
      unfold Decided
      simp only [hsame]
      cases hcase : entry.entryReason with
      | unroutable => exact absurd hcase hreason
      | structuralFailure => exact hretired
      | circuitTripped => exact hretired
    refine ⟨fun h => ?_, fun h => ?_, fun h => hkept (by omega)⟩
    · have hlow : ¬ done < 2 := Nat.not_lt.mpr h.1
      have hhigh : done < 5 := h.2
      rw [if_neg hlow, if_pos hhigh] at hafter
      exact hidden_of_claimed hafter
    · by_cases hlow : done < 2
      · rw [if_pos hlow] at hafter
        exact .inl ⟨entry, hafter, hstate⟩
      · exact .inr (hkept fun hhigh => h ⟨by omega, hhigh⟩)
  | escalate =>
    rw [hkind] at hpromise hfits
    cases hpromise
    obtain ⟨entry, hget, hstate⟩ := hopen
    obtain ⟨other, hother, hreason⟩ := hfits
    cases hget.symm.trans hother
    obtain ⟨hafter, hlogged⟩ := @get_escalate_take env draws _ _ _ hget hstate hkind done
    have hkept : ¬ done < 6 → Kept ((disk.applyAll ((executeDeadLetterAction env draws disk action).take
        done)).clearStamps env dead) (.triaged action.target) := by
      intro hhigh
      rw [if_neg (by omega), if_neg hhigh] at hafter
      refine ⟨_, hafter, ?_⟩
      have hsame : (escalatedEvent draws entry).entry.entryReason = entry.entryReason := rfl
      unfold Decided
      simp only [hsame, hreason]
      refine ⟨rfl, deadLetterEscalation draws entry, hlogged (by omega), rfl, ?_⟩
      exact escalates_deadLetterEscalation.mpr (disk.filed.2 _ _ hget)
    refine ⟨fun h => ?_, fun h => ?_, fun h => hkept (by omega)⟩
    · have hlow : ¬ done < 2 := Nat.not_lt.mpr h.1
      have hhigh : done < 6 := h.2
      rw [if_neg hlow, if_pos hhigh] at hafter
      exact hidden_of_claimed hafter
    · by_cases hlow : done < 2
      · rw [if_pos hlow] at hafter
        exact .inl ⟨entry, hafter, hstate⟩
      · exact .inr (hkept fun hhigh => h ⟨by omega, hhigh⟩)
  | wait | redispatch =>
    rw [hkind] at hfits
    exact hfits.elim
  | _ =>
    rw [hkind] at hpromise
    cases hpromise

theorem perform_serves : Kept (perform env draws disk action) promise := by
  have hwhole := (@own_cut env draws _ _ _ hpromise hfits hopen
    ((execute env draws disk action).length + 7) []).whole (by omega)
  rw [take_of_length_le (by omega)] at hwhole
  exact kept_clearStamps.mp hwhole

end

/-! ### Passes -/

theorem perform_eq_take (disk : Disk) (action : ReconcileAction) : perform env draws disk action =
    disk.applyAll ((execute env draws disk action).take (execute env draws disk action).length) := by
  rw [take_length]
  rfl

variable {actions : List ReconcileAction}

theorem kept_foldl (h : Kept disk promise) : Kept (actions.foldl (perform env draws) disk) promise := by
  induction actions generalizing disk with
  | nil => exact h
  | cons action actions ih =>
    refine ih ?_
    rw [perform_eq_take]
    exact kept_cut h _

theorem other_foldl (hother : ∀ action ∈ actions, action.promise ≠ some promise) :
    (Kept (actions.foldl (perform env draws) disk) promise ↔ Kept disk promise) ∧
      (Known disk promise → Untouched env disk (actions.foldl (perform env draws) disk) promise) := by
  induction actions generalizing disk with
  | nil => exact ⟨Iff.rfl, fun _ => Untouched.refl disk promise⟩
  | cons action actions ih =>
    obtain ⟨hkept, huntouched⟩ := @other_cut env draws disk _ _
      (hother action mem_cons_self) (execute env draws disk action).length
    rw [← perform_eq_take] at hkept huntouched
    obtain ⟨hrest, hrestUntouched⟩ := @ih (perform env draws disk action)
      fun other hmem => hother other (mem_cons_of_mem _ hmem)
    exact ⟨hrest.trans hkept, fun hknown => (huntouched hknown).trans
      (hrestUntouched (hknown.untouched (huntouched hknown)))⟩

theorem serve_foldl (hopen : Open env disk promise)
    (hserved : ∃ action ∈ actions, action.promise = some promise)
    (hfits : ∀ action ∈ actions, action.promise = some promise → Fits disk action) :
    Kept (actions.foldl (perform env draws) disk) promise := by
  induction actions generalizing disk with
  | nil =>
    obtain ⟨action, hmem, -⟩ := hserved
    cases hmem
  | cons action actions ih =>
    by_cases hpromise : action.promise = some promise
    · rw [foldl_cons]
      exact kept_foldl (perform_serves hpromise (hfits action mem_cons_self hpromise) hopen)
    · have huntouched : Untouched env disk (perform env draws disk action) promise := by
        rw [perform_eq_take]
        exact (other_cut hpromise _).2 (Known.of_open hopen)
      obtain ⟨other, hmem, hother⟩ := hserved
      have hlater : other ∈ actions := by
        rcases mem_cons.mp hmem with rfl | hlater
        · exact absurd hother hpromise
        · exact hlater
      refine ih (huntouched.open_iff.mpr hopen) ⟨other, hlater, hother⟩ fun next hnext hnextPromise => ?_
      exact (hfits next (mem_cons_of_mem _ hnext) hnextPromise).untouched hnextPromise huntouched

/-! ### What a pass acts on -/

theorem eventId_ne_empty (eventId : EventId) : eventId.val ≠ "" := by
  intro heq
  have hempty := eventId.property
  rw [heq] at hempty
  exact absurd hempty (by decide)

theorem mem_reconcileAll : action ∈ reconcileAll state ↔
    action ∈ readySetReconciler state ∨ action ∈ replanReconciler state ∨
      action ∈ deadLetterReconciler state ∨ action ∈ escalationReconciler state ∨
        action ∈ forwardChainReconciler state := by
  simp [reconcileAll]

theorem mem_enqueuedEntries : entry ∈ enqueuedEntries disk.inbox ↔
    Dict.get disk.inbox.entries entry.entryId = some entry ∧ entry.triageStatus = .enqueued := by
  have hmem : entry ∈ disk.inbox.entries.map Prod.snd ↔
      Dict.get disk.inbox.entries entry.entryId = some entry := by
    constructor
    · intro h
      obtain ⟨⟨entryId, other⟩, hpair, rfl⟩ := mem_map.mp h
      have hget := (mem_iff_get disk.filed.1).mp hpair
      rwa [disk.filed.2 entryId other hget]
    · intro hget
      exact mem_map.mpr ⟨_, mem_of_get hget, rfl⟩
  unfold enqueuedEntries openEntries
  rw [mem_filter, mem_insertionSort, mem_filter, hmem, decide_eq_true_eq, and_assoc]
  refine and_congr_right fun _ => ⟨fun h => h.2, fun hstate => ⟨?_, hstate⟩⟩
  unfold DeadLetterEntry.isTerminal
  rw [hstate]
  rfl

theorem mem_replans (h : replan ∈ disk.log.filterMap LoggedEvent.replan) : replan.1 ≠ "" := by
  obtain ⟨event, -, hreplan⟩ := mem_filterMap.mp h
  unfold LoggedEvent.replan at hreplan
  obtain ⟨-, hplan⟩ := Option.ite_none_right_eq_some.mp hreplan
  obtain ⟨planId, -, rfl⟩ := Option.map_eq_some_iff.mp hplan
  exact eventId_ne_empty event.eventId

theorem mem_pendingEscalations : escalationId ∈ pendingEscalations log ↔
      escalationId ∈ log.filterMap LoggedEvent.raisedEscalation ∧
        escalationId ∉ log.filterMap LoggedEvent.answeredEscalation := by
  unfold pendingEscalations
  rw [mem_filter, mem_eraseDups, decide_eq_true_eq]

theorem pendingEscalation_ne_empty (h : escalationId ∈ pendingEscalations log) :
    escalationId ≠ "" := by
  obtain ⟨event, -, hraised⟩ := mem_filterMap.mp (mem_pendingEscalations.mp h).1
  obtain ⟨-, hid⟩ := Option.ite_none_right_eq_some.mp hraised
  rw [← some.inj hid]
  exact eventId_ne_empty event.eventId

theorem of_mem_passActions (hmem : action ∈ passActions env draws disk)
    (hpromise : action.promise = some promise) :
    Owed disk promise ∧ Open env disk promise ∧ Fits disk action := by
  rcases mem_reconcileAll.mp hmem with hready | hreplan | hentry | hescalation | hgap
  · cases hready
  · obtain ⟨replan, hpending, rfl⟩ := mem_map.mp hreplan
    obtain ⟨htriggered, hnew⟩ := mem_filter.mp hpending
    cases hpromise
    refine ⟨⟨replan.2, htriggered⟩, ?_, mem_replans htriggered⟩
    have hnot : replan.1 ∉ (buildObservedState env disk draws.gaps).redecomposed := of_decide_eq_true hnew
    show isAlreadyDispatched env disk.stamps replan.1 "planning" = false
    rw [Bool.eq_false_iff]
    exact fun hstamped => hnot (mem_filter.mpr ⟨mem_map_of_mem htriggered, hstamped⟩)
  · obtain ⟨pending, hpending, rfl⟩ := mem_map.mp hentry
    obtain ⟨entry, henqueued, rfl⟩ := mem_map.mp hpending
    obtain ⟨hget, hstate⟩ := mem_enqueuedEntries.mp henqueued
    unfold ReconcileAction.promise at hpromise
    unfold Fits
    cases hreason : entry.entryReason with
    | unroutable =>
      simp only [hreason, failureClass, FailureClass.action] at hpromise ⊢
      cases hpromise
      exact ⟨⟨entry, hget⟩, ⟨entry, hget, hstate⟩, entry, hget, hreason⟩
    | structuralFailure | circuitTripped =>
      simp only [hreason, failureClass, FailureClass.action] at hpromise ⊢
      cases hpromise
      exact ⟨⟨entry, hget⟩, ⟨entry, hget, hstate⟩, entry, hget, by rw [hreason]; decide⟩
  · obtain ⟨escalationId, hunsurfaced, rfl⟩ := mem_map.mp hescalation
    obtain ⟨hpending, hnew⟩ := mem_filter.mp hunsurfaced
    cases hpromise
    refine ⟨hpending, ?_, trivial⟩
    show isAlreadyDispatched env disk.stamps escalationId "main-inbound" = false
    simpa using (of_decide_eq_true hnew).2
  · obtain ⟨gap, -, rfl⟩ := mem_map.mp hgap
    split at hpromise <;> cases hpromise

theorem exists_mem_passActions (howed : Owed disk promise) (hopen : Open env disk promise) :
    ∃ action ∈ passActions env draws disk, action.promise = some promise := by
  cases promise with
  | surfaced escalationId =>
    refine ⟨{ kind := .escalationSurface, target := escalationId }, mem_reconcileAll.mpr ?_, rfl⟩
    refine .inr (.inr (.inr (.inl (mem_map_of_mem (mem_filter.mpr ⟨howed, ?_⟩)))))
    have hclear : isAlreadyDispatched env disk.stamps escalationId "main-inbound" = false := hopen
    simp [hclear, pendingEscalation_ne_empty howed]
  | redecomposed replanId =>
    obtain ⟨planId, hreplan⟩ := howed
    refine ⟨{ kind := .replan, target := planId, replanEventId := replanId }, mem_reconcileAll.mpr ?_, rfl⟩
    refine .inr (.inl (mem_map.mpr ⟨(replanId, planId), mem_filter.mpr ⟨hreplan, ?_⟩, rfl⟩))
    refine decide_eq_true fun hstamped => ?_
    have hclear : isAlreadyDispatched env disk.stamps replanId "planning" = false := hopen
    have hdone := (mem_filter.mp hstamped).2
    rw [hclear] at hdone
    cases hdone
  | triaged entryId =>
    obtain ⟨entry, hget, hstate⟩ := hopen
    obtain rfl := disk.filed.2 _ _ hget
    refine ⟨{ kind := (failureClass entry.entryReason).action, target := entry.entryId },
      mem_reconcileAll.mpr ?_, ?_⟩
    · exact .inr (.inr (.inl (mem_map.mpr ⟨_, mem_map_of_mem
        (mem_enqueuedEntries.mpr ⟨hget, hstate⟩), rfl⟩)))
    · cases hreason : entry.entryReason <;> rfl

theorem kept_reconcilePass : Kept (reconcilePass env draws disk) promise ↔
    Kept disk promise ∨ (Owed disk promise ∧ Open env disk promise) := by
  unfold reconcilePass
  by_cases hserved : ∃ action ∈ passActions env draws disk, action.promise = some promise
  · obtain ⟨action, hmem, hpromise⟩ := hserved
    obtain ⟨howed, hopen, -⟩ := of_mem_passActions hmem hpromise
    refine ⟨fun _ => .inr ⟨howed, hopen⟩, fun _ => ?_⟩
    exact serve_foldl hopen ⟨action, hmem, hpromise⟩ fun other hother hotherPromise =>
      (of_mem_passActions hother hotherPromise).2.2
  · have hnone : ∀ action ∈ passActions env draws disk, action.promise ≠ some promise :=
      fun action hmem hpromise => hserved ⟨action, hmem, hpromise⟩
    rw [(other_foldl hnone).1]
    refine ⟨.inl, fun h => h.elim id fun hopen => ?_⟩
    exact absurd (exists_mem_passActions hopen.1 hopen.2) hserved

/-! ### What is owed stays owed -/

theorem owed_applyAll
    (hanswers : ∀ event, Write.append event ∈ writes → event.answeredEscalation = none)
    (h : Owed disk promise) : Owed (disk.applyAll writes) promise := by
  induction writes generalizing disk with
  | nil => exact h
  | cons write writes ih =>
    refine ih (fun event hevent => hanswers event (mem_cons_of_mem _ hevent)) ?_
    cases write with
    | append event =>
      have hnone := hanswers event mem_cons_self
      cases promise with
      | surfaced escalationId =>
        obtain ⟨hraised, hopen⟩ := mem_pendingEscalations.mp h
        refine mem_pendingEscalations.mpr ⟨?_, ?_⟩
        · show escalationId ∈ (disk.log ++ [event]).filterMap LoggedEvent.raisedEscalation
          rw [filterMap_append]
          exact mem_append_left _ hraised
        · show escalationId ∉ (disk.log ++ [event]).filterMap LoggedEvent.answeredEscalation
          rw [filterMap_append, filterMap_cons_none hnone, filterMap_nil, append_nil]
          exact hopen
      | redecomposed replanId =>
        obtain ⟨planId, hreplan⟩ := h
        refine ⟨planId, ?_⟩
        show (replanId, planId) ∈ (disk.log ++ [event]).filterMap LoggedEvent.replan
        rw [filterMap_append]
        exact mem_append_left _ hreplan
      | triaged entryId => exact h
    | inbox write =>
      cases promise with
      | surfaced escalationId => exact h
      | redecomposed replanId => exact h
      | triaged entryId =>
        obtain ⟨entry, hget⟩ := h
        by_cases hput : ∃ put, write = .putEntry put ∧ put.entryId = entryId
        · obtain ⟨put, rfl, rfl⟩ := hput
          exact ⟨put, get_set_self disk.inbox.entries put.entryId put⟩
        · exact ⟨entry, (get_apply_inbox fun put hwrite heq => hput ⟨put, hwrite, heq⟩).trans hget⟩
    | stamp stamp => cases promise <;> exact h
    | backlogMarker triggerEventId dispatchTo => cases promise <;> exact h

theorem append_not_mem_map {writes : List InboxWrite} : Write.append event ∉ writes.map .inbox := by
  intro hmem
  obtain ⟨write, -, heq⟩ := mem_map.mp hmem
  cases heq

theorem answered_of_mem_decideEntry
    (h : Write.append event ∈ decideEntry env draws claimed kind entry) :
    event.answeredEscalation = none := by
  cases kind with
  | escalate =>
    rcases mem_cons.mp h with hevent | hrest
    · cases hevent
      exact if_neg (show ¬ "GoalEscalationRaised" = "NatureJudgmentCaptured" by decide)
    · exact absurd hrest append_not_mem_map
  | triage => exact absurd h append_not_mem_map
  | _ => cases h

theorem answered_of_mem_execute (h : Write.append event ∈ execute env draws disk action) :
    event.answeredEscalation = none := by
  have hdispatch : ∀ {kind : ActionKind} {trigger triggerType dispatchTo reason : String},
      Write.append event ∈ executeDispatch env draws disk kind trigger triggerType dispatchTo reason →
        event.answeredEscalation = none := by
    intro kind trigger triggerType dispatchTo reason hmem
    unfold executeDispatch at hmem
    split at hmem
    · cases hmem
    · simp only [mem_cons, reduceCtorEq, Write.append.injEq, not_mem_nil, or_false,
        false_or] at hmem
      rw [hmem]
      exact if_neg (show ¬ "OrchestratorDispatched" = "NatureJudgmentCaptured" by decide)
  unfold execute at h
  cases hkind : action.kind with
  | replan =>
    rw [hkind] at h
    simp only [executeReplanAction] at h
    split at h
    · cases h
    · exact hdispatch h
  | escalationSurface =>
    rw [hkind] at h
    exact hdispatch h
  | escalate | triage | wait | redispatch =>
    rw [hkind] at h
    simp only [executeDeadLetterAction] at h
    split at h
    · cases h
    · split at h
      · rcases mem_append.mp h with hstarted | hdecided
        · exact absurd hstarted append_not_mem_map
        · exact answered_of_mem_decideEntry hdecided
      · cases h
  | forwardChainDispatch =>
    rw [hkind] at h
    simp only [executeForwardChainDispatchAction] at h
    split at h
    · cases h
    · cases mem_singleton.mp h
  | forwardChainDeadletter =>
    rw [hkind] at h
    exact absurd h append_not_mem_map
  | dispatch | revive | reDecompose =>
    rw [hkind] at h
    cases h

theorem owed_cut (h : Owed disk promise) (done : Nat) :
    Owed (disk.applyAll ((execute env draws disk action).take done)) promise :=
  owed_applyAll (fun _ hevent => answered_of_mem_execute (mem_of_mem_take hevent)) h

theorem owed_foldl (h : Owed disk promise) : Owed (actions.foldl (perform env draws) disk) promise := by
  induction actions generalizing disk with
  | nil => exact h
  | cons action actions ih =>
    refine ih ?_
    rw [perform_eq_take]
    exact owed_cut h _

/-! ### A crash and a later pass -/

section Crashes

variable {first later : PassDraws} {crash : CrashPoint} {dead : List (String × String)}

theorem crashedPass_some (h : (passActions env first disk)[crash.actions]? = some action) :
    crashedPass env first disk crash = (diskBefore env first disk crash.actions).applyAll
      ((execute env first (diskBefore env first disk crash.actions) action).take crash.writes) := by
  unfold crashedPass
  simp only [h]

theorem diskBefore_untouched (hknown : Known disk promise)
    (hnone : ∀ action ∈ (passActions env first disk).take crash.actions, action.promise ≠ some promise) :
    Untouched env disk (diskBefore env first disk crash.actions) promise :=
  (other_foldl hnone).2 hknown

theorem diskBefore_kept (hserved : ∃ action ∈ (passActions env first disk).take crash.actions,
    action.promise = some promise) : Kept (diskBefore env first disk crash.actions) promise := by
  obtain ⟨action, hmem, hpromise⟩ := hserved
  refine serve_foldl (of_mem_passActions (mem_of_mem_take hmem) hpromise).2.1
    ⟨action, hmem, hpromise⟩ fun other hother hotherPromise => ?_
  exact (of_mem_passActions (mem_of_mem_take hother) hotherPromise).2.2

theorem kept_crashedPass (h : Kept (diskBefore env first disk crash.actions) promise) :
    Kept (crashedPass env first disk crash) promise := by
  cases hnext : (passActions env first disk)[crash.actions]? with
  | some action =>
    rw [crashedPass_some hnext]
    exact kept_cut h _
  | none =>
    unfold crashedPass
    simp only [hnext]
    exact h

theorem owed_crashedPass (h : Owed disk promise) : Owed (crashedPass env first disk crash) promise := by
  have hbefore : Owed (diskBefore env first disk crash.actions) promise := owed_foldl h
  cases hnext : (passActions env first disk)[crash.actions]? with
  | some action =>
    rw [crashedPass_some hnext]
    exact owed_cut hbefore _
  | none =>
    unfold crashedPass
    simp only [hnext]
    exact hbefore

theorem crashedPass_safe (howed : Owed disk promise) (hopen : Open env disk promise)
    (hwhole : ∀ action, (passActions env first disk)[crash.actions]? = some action →
      ¬ Torn env (diskBefore env first disk crash.actions) action crash.writes dead) :
    Open env ((crashedPass env first disk crash).clearStamps env dead) promise ∨
      Kept ((crashedPass env first disk crash).clearStamps env dead) promise := by
  by_cases hserved : ∃ action ∈ (passActions env first disk).take crash.actions,
      action.promise = some promise
  · exact .inr (kept_clearStamps.mpr (kept_crashedPass (diskBefore_kept hserved)))
  · have huntouched := @diskBefore_untouched env disk promise first crash (Known.of_owed howed)
      fun action hmem hpromise => hserved ⟨action, hmem, hpromise⟩
    have hstill : Open env (diskBefore env first disk crash.actions) promise :=
      huntouched.open_iff.mpr hopen
    cases hnext : (passActions env first disk)[crash.actions]? with
    | none =>
      unfold crashedPass
      simp only [hnext]
      exact .inl (open_clearStamps hstill)
    | some action =>
      rw [crashedPass_some hnext]
      by_cases hpromise : action.promise = some promise
      · have hfits := (of_mem_passActions (mem_of_getElem? hnext) hpromise).2.2
        refine (own_cut hpromise (hfits.untouched hpromise huntouched) hstill _ _).safe fun hhides => ?_
        exact hwhole action hnext ⟨promise, hpromise, hstill, hhides⟩
      · have hother := (@other_cut env first _ _ _ hpromise crash.writes).2 (Known.of_open hstill)
        exact .inl (open_clearStamps (hother.open_iff.mpr hstill))

theorem crashedPass_hidden (hnext : (passActions env first disk)[crash.actions]? = some action)
    (hpromise : action.promise = some promise)
    (hopen : Open env (diskBefore env first disk crash.actions) promise)
    (hhides : Hides env (diskBefore env first disk crash.actions) action.kind promise crash.writes dead) :
    ¬ Open env ((crashedPass env first disk crash).clearStamps env dead) promise ∧
      ¬ Kept ((crashedPass env first disk crash).clearStamps env dead) promise := by
  obtain ⟨howed, -, hfits⟩ := of_mem_passActions (mem_of_getElem? hnext) hpromise
  have hunkept : ¬ Kept (diskBefore env first disk crash.actions) promise := by
    cases promise with
    | surfaced escalationId => exact hhides.2.1
    | redecomposed replanId => exact hhides.2.1
    | triaged entryId =>
      rintro ⟨entry, hget, hdecided⟩
      obtain ⟨other, hother, hstate⟩ := hopen
      cases hget.symm.trans hother
      exact not_decided_enqueued hstate hdecided
  have huntouched := @diskBefore_untouched env disk promise first crash (Known.of_owed howed)
    fun other hmem hother => hunkept (diskBefore_kept ⟨other, hmem, hother⟩)
  rw [crashedPass_some hnext]
  exact (own_cut hpromise (hfits.untouched hpromise huntouched) hopen _ _).hidden hhides

/-- A later pass leaves the promises kept that an uninterrupted one does exactly when the process does
not die between a stamp and its event, or between the two entry files of a triage. -/
theorem reconcile_survives_iff (env : InboxEnv) (first later : PassDraws) (disk : Disk)
    (crash : CrashPoint) (dead : List (String × String)) :
    Survives env first later disk crash dead ↔
      ∀ action, (passActions env first disk)[crash.actions]? = some action →
        ¬ Torn env (diskBefore env first disk crash.actions) action crash.writes dead := by
  constructor
  · rintro h action hnext ⟨promise, hpromise, hopen, hhides⟩
    obtain ⟨hclosed, hunkept⟩ := crashedPass_hidden hnext hpromise hopen hhides
    obtain ⟨howed, hstart, -⟩ := of_mem_passActions (mem_of_getElem? hnext) hpromise
    rcases kept_reconcilePass.mp (h.unhidden promise howed hstart) with hkept | ⟨-, hreopened⟩
    · exact hunkept hkept
    · exact hclosed hreopened
  · intro hwhole
    have hunhidden : ∀ promise, Owed disk promise → Open env disk promise →
        Kept (recovered env first later disk crash dead) promise := by
      intro promise howed hopen
      refine kept_reconcilePass.mpr ?_
      rcases crashedPass_safe howed hopen hwhole with hreopened | hkept
      · exact Or.inr ⟨owed_clearStamps.mpr (owed_crashedPass howed), hreopened⟩
      · exact Or.inl hkept
    refine ⟨fun promise hkept => ?_, hunhidden⟩
    rcases kept_reconcilePass.mp hkept with hbefore | ⟨howed, hopen⟩
    · exact kept_reconcilePass.mpr (Or.inl (kept_clearStamps.mpr (kept_crashedPass (kept_foldl hbefore))))
    · exact hunhidden promise howed hopen

end Crashes

/-! ### A stamp without its event -/

theorem length_toList_le_flatMap {texts : List String} {text : String} (h : text ∈ texts) :
    text.toList.length ≤ (texts.flatMap String.toList).length := by
  induction texts with
  | nil => cases h
  | cons other texts ih =>
    rw [flatMap_cons, length_append]
    rcases mem_cons.mp h with rfl | hrest
    · omega
    · have hle := ih hrest
      omega

def sampleDraws : PassDraws where
  now := 0
  raisedAt := "2026-01-01T00:00:00Z"
  eventId := fun _ _ => ⟨"evt-drawn", by decide⟩
  lifecycleId := fun _ entryId => "evt-" ++ entryId
  decisionId := fun triggerEventId => "orch-dispatch-" ++ triggerEventId
  entryId := fun used => String.ofList (used.flatMap String.toList ++ ['+'])
  fresh := by
    intro used hmem
    have hle := length_toList_le_flatMap hmem
    rw [String.toList_ofList, List.length_append, List.length_singleton] at hle
    omega
  gaps := []
  markerIsFake := fun _ _ => false

theorem proper_obj_nil : (Json.obj []).proper = true := by decide

def raisedEvent : LoggedEvent :=
  { eventId := ⟨"evt-raised", by decide⟩, eventType := .goalEscalationRaised, payload := ⟨[], proper_obj_nil⟩ }

def oneEscalation : Disk where
  log := [raisedEvent]
  stamps := []
  inbox := Inbox.empty
  backlog := []
  filed := ⟨List.nodup_nil, fun _ _ hget => by cases hget⟩

def surfaceAction : ReconcileAction := { kind := .escalationSurface, target := "evt-raised" }

/-- The process dies between the stamp and the event: the stamp hides the escalation from then on. -/
theorem stamp_without_event_hides : ¬ ∀ (env : InboxEnv) (first later : PassDraws) (disk : Disk)
    (crash : CrashPoint) (dead : List (String × String)), Survives env first later disk crash dead := by
  intro h
  have howed : Owed oneEscalation (.surfaced "evt-raised") :=
    mem_pendingEscalations.mpr ⟨mem_singleton_self _, not_mem_nil⟩
  have hopen : Open asciiEnv oneEscalation (.surfaced "evt-raised") := rfl
  have hunkept : ¬ Kept oneEscalation (.surfaced "evt-raised") := by
    rintro ⟨event, hmem, hkind, -⟩
    obtain rfl := mem_singleton.mp hmem
    exact absurd hkind (by decide)
  have hnext : (passActions asciiEnv sampleDraws oneEscalation)[0]? = some surfaceAction := by
    decide +kernel
  obtain ⟨hclosed, hlost⟩ := @crashedPass_hidden asciiEnv oneEscalation _ _ sampleDraws ⟨0, 1⟩ []
    hnext rfl hopen ⟨rfl, hunkept, fun _ hbaton => absurd hbaton not_mem_nil⟩
  have hkept := (h asciiEnv sampleDraws sampleDraws oneEscalation ⟨0, 1⟩ []).unhidden _ howed hopen
  rcases kept_reconcilePass.mp hkept with hkept | ⟨-, hreopened⟩
  · exact hlost hkept
  · exact hclosed hreopened

end Flowness.Awareness
