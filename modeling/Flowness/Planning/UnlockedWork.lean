import Flowness.CommitGate.CompletionChecks
import Flowness.Planning.DispatcherView
import Flowness.Snapshot.VerdictArchival

/-!
Which completions unlock work. The gate judges the completion of a task by the types of the intents and by
what it finds under the task; the dispatcher unwraps stubs and takes the type of a task from the first event
that creates it. What unlocks work has been judged while no event wraps a completion and the two agree on
which tasks are reviews.
-/

namespace Flowness.Planning

open Option Library Schemas Ledger CommitGate

structure CompletionEnv where
  gate : GateEnv
  verdict : VerdictEnv
  contracts : ClosureContracts

/-- What `TaskRunCompletedAfter` requires of the task. -/
def namesTask (payload : Payload) : Bool := (Json.nonBlank payload.afterState "task_id").isSome

def CompletionEnv.registry (env : CompletionEnv) : GateEnv :=
  { env.gate with
    validateEventPayload := fun eventType payload =>
      env.gate.validateEventPayload eventType payload && (eventType ≠ .taskRunCompleted || namesTask payload) }

structure AcceptedBatch where
  intents : List EventIntent
  read : CommittedLog

structure CompletionState where
  log : CommittedLog
  /-- The log after every write so far. -/
  logs : List CommittedLog
  accepted : List AcceptedBatch

def CompletionState.initial : CompletionState := { log := .empty, logs := [.empty], accepted := [] }

def CompletionState.wrote (state : CompletionState) (log : CommittedLog) : CompletionState :=
  { state with log, logs := state.logs ++ [log] }

inductive CompletionAction where
  /-- A path-B write of anyone, of an envelope too. -/
  | direct (intent : EventIntent) (draw : Draw)
  | audit (intent : EventIntent) (draw : Draw)
  /-- The batch of an attempt whose checks read the log as it was after `read` writes; others may have
  written since. -/
  | accept (read : Nat) (attempt : Attempt) (envelopeEventId : String) (outcome : CheckOutcome)
    (auditChain : List AuditChainItem)
  | reject (attempt : Attempt) (envelopeEventId : String) (rejection : Rejection)

def CompletionAction.intents : CompletionAction → List EventIntent
  | .direct intent _ => [intent]
  | .accept _ attempt .. => attempt.intents
  | _ => []

section

variable (env : CompletionEnv) (strOther : Json → String)

def completionStep (state : CompletionState) : CompletionAction → Option CompletionState
  | .direct intent draw =>
    (writeDirectTo env.registry state.log intent draw).map fun written => state.wrote written.1
  | .audit intent draw =>
    (writeAuditEvent env.registry state.log intent draw).map fun written => state.wrote written.1
  | .accept read attempt envelopeEventId outcome auditChain => do
    let checked ← state.logs[read]?
    let envelope ← checked.getEvent envelopeEventId
    if envelope.eventType = .transactionEnvelopeSubmitted ∧
        CompletionsPass env.verdict env.contracts checked attempt.intents then
      let log ← appendBatch env.registry state.log
        (acceptedRecords env.registry state.log attempt.ids attempt.draw envelope
          (attempt.domainRecords env.registry checked envelope) outcome auditChain)
      some { state.wrote log with accepted := state.accepted ++ [⟨attempt.intents, checked⟩] }
    else none
  | .reject attempt envelopeEventId rejection => do
    let envelope ← state.log.getEvent envelopeEventId
    if envelope.eventType = .transactionEnvelopeSubmitted then
      let records ← rejectedRecords env.registry state.log attempt.ids attempt.draw envelope rejection
      let log ← appendBatch env.registry state.log records
      some (state.wrote log)
    else none

def wrapsSuccess (payload : Payload) : Bool :=
  match payload.getD "kind" .null, payload.getD "stub_original_payload" .null with
  | .str kind, .obj original =>
    kind = "TaskRunCompleted" ∧ Json.lookup (afterOrSelf original) "outcome" = .str "success" ∧
      member strOther (afterOrSelf original) "task_id" ≠ ""
  | _, _ => false

def dispatcherType (log : CommittedLog) (task : String) : Option String :=
  taskTypeFromEvents strOther task (allEventsAsDicts log.records)

/-- No event that is written wraps a completion; where an accepted batch completes a task that is a review
to the dispatcher, it is one to the gate; no write turns a completed task into a review. -/
structure TypesAgree (state : CompletionState) (action : CompletionAction) : Prop where
  flat : ∀ intent ∈ action.intents, intent.eventType = .nodeTouched →
    wrapsSuccess strOther intent.payload = false
  judged : ∀ next ∈ (completionStep env state action).toList,
    ∀ batch ∈ next.accepted.drop state.accepted.length, ∀ intent ∈ batch.intents,
      ∀ task ∈ (completedTask intent).toList, dispatcherType strOther next.log task = some "review" →
        resolveTaskType (EventIndex.build batch.read.records) task = some "review"
  settled : ∀ next ∈ (completionStep env state action).toList,
    ∀ task ∈ completedSuccessTaskIds strOther (allEventsAsDicts state.log.records),
      dispatcherType strOther next.log task = some "review" →
        dispatcherType strOther state.log task = some "review"

instance (state : CompletionState) (action : CompletionAction) :
    Decidable (TypesAgree env strOther state action) :=
  decidable_of_iff (_ ∧ _ ∧ _) ⟨fun h => ⟨h.1, h.2.1, h.2.2⟩, fun h => ⟨h.flat, h.judged, h.settled⟩⟩

structure CommittedAs (intent : EventIntent) (record : EventRecord) : Prop where
  eventType : record.eventType = intent.eventType
  payload : SameMembers record.payload intent.payload

/-- The gate judged the verdict of the review that the intent completes, and it had passed. -/
structure ReviewJudged (batch : AcceptedBatch) (intent : EventIntent) (task : String) : Prop where
  review : resolveTaskType (EventIndex.build batch.read.records) task = some "review"
  passed : checkIntent env.verdict batch.intents (EventIndex.build batch.read.records) batch.read.records
      intent = none

/-- The record is a completion of the task with success that the gate accepted, and if the task is a review
to the dispatcher, its verdict was judged. -/
def GatedCompletion (state : CompletionState) (task : String) (record : EventRecord) : Prop :=
  record.eventType = .taskRunCompleted ∧ ∃ batch ∈ state.accepted, ∃ intent ∈ batch.intents,
    CommittedAs intent record ∧ completedTask intent = some task ∧
      (dispatcherType strOther state.log task = some "review" → ReviewJudged env batch intent task)

/-- The record is a closure of the task whose evidence the gate found to hold. -/
def GatedClosure (state : CompletionState) (task : String) (record : EventRecord) : Prop :=
  record.eventType = .taskNodeClosed ∧ ∃ batch ∈ state.accepted, ∃ intent ∈ batch.intents,
    CommittedAs intent record ∧ ∃ after, closedAfterState intent = some after ∧
      Json.nonBlank after "task_id" = some task ∧
        checkClosure env.contracts (EventIndex.build batch.read.records) batch.read.records after = none

/-- Every task whose end unlocks work has a flat completion or closure that the gate judged, and no wrapped
event completes a task. -/
structure OnlyGatedUnlock (state : CompletionState) : Prop where
  completed : ∀ task ∈ completedSuccessTaskIds strOther (allEventsAsDicts state.log.records),
    ∃ record ∈ state.log.records, GatedCompletion env strOther state task record
  closed : ∀ task ∈ closedTaskIds strOther (allEventsAsDicts state.log.records),
    ∃ record ∈ state.log.records, GatedClosure env state task record
  flat : ∀ record ∈ state.log.records, record.eventType = .nodeTouched →
    successTask strOther (eventAsDict record) = none

end

def taskEndTypes : List EventType := [.taskRunCompleted, .taskNodeClosed, .nodeTouched]

inductive Origin (action : CompletionAction) (batches : List AcceptedBatch) (record : EventRecord) : Prop
  | direct (hallowed : record.eventType ∈ pathBAllowed) (intent : EventIntent)
      (hintent : intent ∈ action.intents)
    (hcommitted : CommittedAs intent record)
  | domain (batch : AcceptedBatch) (hbatch : batch ∈ batches) (intent : EventIntent)
    (hintent : intent ∈ batch.intents) (hcommitted : CommittedAs intent record)
    (hnamed : record.eventType = .taskRunCompleted → namesTask record.payload = true)
  | protocol (htype : record.eventType ∉ taskEndTypes)

/-- What a step adds to the log and to the accepted batches. -/
structure StepAdds (env : CompletionEnv) (state next : CompletionState) (action : CompletionAction)
    (added : List EventRecord) (batches : List AcceptedBatch) : Prop where
  records : next.log.records = state.log.records ++ added
  accepted : next.accepted = state.accepted ++ batches
  passes : ∀ batch ∈ batches, CompletionsPass env.verdict env.contracts batch.read batch.intents
  intents : ∀ batch ∈ batches, batch.intents = action.intents
  origin : ∀ record ∈ added, Origin action batches record

section

variable {env : CompletionEnv} {strOther : Json → String} {state next : CompletionState}
  {action : CompletionAction} {added : List EventRecord} {batches : List AcceptedBatch}

theorem namesTask_of_appended (h : appendBatch env.registry log records = some after)
    {record : EventRecord} (hrecord : record ∈ records)
    (htype : record.eventType = .taskRunCompleted) : namesTask record.payload = true := by
  unfold appendBatch at h
  split at h
  · have haccepted := (CommittedLog.append_admissible h).payloads record hrecord
    unfold payloadAccepted validatePayloadTyped at haccepted
    rw [htype] at haccepted
    split at haccepted
    next hok =>
      split at hok
      · cases hok
      · split at hok
        next hvalid =>
          simpa [CompletionEnv.registry] using (Bool.and_eq_true _ _ ▸ hvalid).2
        · cases hok
    · cases haccepted
  · cases h

theorem completionStep_adds (h : completionStep env state action = some next) :
    ∃ added batches, StepAdds env state next action added batches := by
  cases action with
  | direct intent draw =>
    obtain ⟨⟨log, record⟩, hwrite, rfl⟩ := map_eq_some_iff.mp h
    obtain ⟨htype, hpayload, hrecords⟩ := added_writeDirectTo hwrite
    have hallowed : intent.eventType ∈ pathBAllowed := by
      unfold writeDirectTo at hwrite
      split at hwrite
      · assumption
      · cases hwrite
    refine ⟨[record], [], hrecords, (List.append_nil _).symm, by simp, by simp, fun new hnew => ?_⟩
    obtain rfl := List.mem_singleton.mp hnew
    refine .direct (htype ▸ hallowed) intent (List.mem_singleton_self _) ⟨htype, ?_⟩
    rw [hpayload]
    exact ⟨fun _ _ _ => rfl, Iff.rfl, fun _ _ => rfl⟩
  | audit intent draw =>
    obtain ⟨⟨log, record⟩, hwrite, rfl⟩ := map_eq_some_iff.mp h
    have htriggered : emitTrigger env.registry state.log (some (intent, draw)) = some log := by
      simp [emitTrigger, hwrite]
    obtain ⟨added, hrecords, htypes⟩ := added_emitTrigger htriggered
    refine ⟨added, [], hrecords, (List.append_nil _).symm, by simp, by simp, fun new hnew => .protocol ?_⟩
    have hnone : ∀ eventType ∈ auditProducerOnlyTypes, eventType ∉ taskEndTypes := by decide
    exact hnone _ (htypes new hnew)
  | accept read attempt envelopeEventId outcome auditChain =>
    obtain ⟨checked, -, h⟩ := bind_eq_some_iff.mp h
    obtain ⟨envelope, -, h⟩ := bind_eq_some_iff.mp h
    obtain ⟨⟨henvelope, hpass⟩, h⟩ := ite_none_right_eq_some.mp h
    obtain ⟨log, happend, h⟩ := bind_eq_some_iff.mp h
    cases h
    refine ⟨_, [⟨attempt.intents, checked⟩], records_appendBatch happend, rfl, ?_, ?_, fun new hnew => ?_⟩
    · intro batch hbatch
      rw [List.mem_singleton.mp hbatch]
      exact hpass
    · intro batch hbatch
      rw [List.mem_singleton.mp hbatch]
      rfl
    · obtain ⟨old, hold, hsame⟩ := exists_of_mem_reseqFrom hnew
      have horigin : AcceptedRecord attempt _ old :=
        acceptedRecord_of_mem (fun _ hmem => exists_of_mem_domainRecords hmem) hold
      cases horigin with
      | envelope hcopy =>
        refine .protocol ?_
        rw [hsame.eventType, hcopy.eventType, henvelope]
        decide
      | audit htype =>
        have hnone : ∀ eventType ∈ auditProducerOnlyTypes, eventType ∉ taskEndTypes := by decide
        exact .protocol (hsame.eventType ▸ hnone _ htype)
      | domain intent hintent hrecord =>
        have hnew := hrecord.of_sameEvent hsame
        refine .domain _ (List.mem_singleton_self _) intent hintent ⟨hnew.eventType, hnew.payload⟩
          fun htype => ?_
        rw [hsame.payload]
        exact namesTask_of_appended happend hold (hsame.eventType ▸ htype)
      | checked htype =>
        refine .protocol ?_
        rw [hsame.eventType, htype]
        decide
      | accepted htype =>
        refine .protocol ?_
        rw [hsame.eventType, htype]
        decide
  | reject attempt envelopeEventId rejection =>
    obtain ⟨envelope, -, h⟩ := bind_eq_some_iff.mp h
    obtain ⟨henvelope, h⟩ := ite_none_right_eq_some.mp h
    obtain ⟨records, hrecords, h⟩ := bind_eq_some_iff.mp h
    obtain ⟨log, happend, h⟩ := bind_eq_some_iff.mp h
    cases h
    refine ⟨_, [], records_appendBatch happend, (List.append_nil _).symm, by simp, by simp, fun new hnew => ?_⟩
    obtain ⟨old, hold, hsame⟩ := exists_of_mem_reseqFrom hnew
    refine .protocol ?_
    rw [hsame.eventType]
    cases rejectedRecord_of_mem hrecords hold with
    | envelope hcopy =>
      rw [hcopy.eventType, henvelope]
      decide
    | audit htype =>
      have hnone : ∀ eventType ∈ auditProducerOnlyTypes, eventType ∉ taskEndTypes := by decide
      exact hnone _ htype
    | drift htype | released _ htype | violated htype | rejected htype =>
      rw [htype]
      decide

variable {record : EventRecord} {intent : EventIntent} {task : String}

theorem afterOrSelf_of_nonBlank {payload : Payload}
    (h : Json.nonBlank payload.afterState key = some text) : afterOrSelf payload.entries =
      payload.afterState := by
  unfold afterOrSelf Payload.afterState at *
  have hlookup : Json.lookup payload.entries "after_state" = payload.getD "after_state" .null := rfl
  rw [hlookup]
  cases hafter : payload.getD "after_state" .null with
  | obj after => rfl
  | _ =>
    rw [hafter] at h
    cases h

theorem member_of_nonBlank (h : Json.nonBlank entries key = some text) :
    member strOther entries key = text := by
  have hlookup := Json.lookup_of_nonBlank h
  unfold Json.lookup at hlookup
  unfold member
  cases hget : Dict.get entries key with
  | none => simp [hget] at hlookup
  | some value =>
    rw [hget] at hlookup
    obtain rfl : value = .str text := hlookup
    rfl

theorem successTask_flat (htype : record.eventType = .taskRunCompleted)
    (hnamed : namesTask record.payload = true)
    (h : successTask strOther (eventAsDict record) = some task) :
    Json.lookup record.payload.afterState "outcome" = .str "success" ∧
      Json.nonBlank record.payload.afterState "task_id" = some task := by
  obtain ⟨text, htext⟩ := isSome_iff_exists.mp hnamed
  have hfields : dispatchFields record.eventType record.payload = record.payload.afterState := by
    unfold dispatchFields
    rw [effKindPayload_of_ne (by rw [htype]; decide)]
    exact afterOrSelf_of_nonBlank htext
  rw [successTask_eventAsDict, hfields] at h
  obtain ⟨⟨-, houtcome⟩, h⟩ := ite_none_right_eq_some.mp h
  refine ⟨houtcome, ?_⟩
  rw [member_of_nonBlank htext] at h
  rw [htext, ← (filter_eq_some_iff.mp h).1]

theorem successTask_cases (h : successTask strOther (eventAsDict record) = some task) :
    record.eventType = .taskRunCompleted ∨ record.eventType = .nodeTouched := by
  rw [successTask_eventAsDict] at h
  obtain ⟨⟨hkind, -⟩, -⟩ := ite_none_right_eq_some.mp h
  by_cases htype : record.eventType = .nodeTouched
  · exact .inr htype
  · rw [effKindPayload_of_ne htype] at hkind
    exact .inl (StrEnum.value_inj (hkind : EventType.value _ = EventType.value .taskRunCompleted))

theorem successTask_wrapped (htype : record.eventType = .nodeTouched)
    (hsame : SameMembers record.payload payload) (hwraps : wrapsSuccess strOther payload = false) :
    successTask strOther (eventAsDict record) = none := by
  have hkind : record.payload.getD "kind" .null = payload.getD "kind" .null := hsame.getD (by decide) _
  have hstub : record.payload.getD "stub_original_payload" .null = payload.getD "stub_original_payload" .null :=
    hsame.getD (by decide) _
  rw [successTask_eventAsDict]
  unfold dispatchFields effKindPayload
  rw [htype, hkind, hstub]
  unfold wrapsSuccess at hwraps
  cases hvalue : payload.getD "kind" .null with
  | str kind =>
    cases horiginal : payload.getD "stub_original_payload" .null with
    | obj original =>
      rw [hvalue, horiginal] at hwraps
      simp only [decide_eq_false_iff_not] at hwraps
      simp only
      split
      next hcompletes =>
        rw [filter_eq_none_iff]
        intro value hmember hne
        cases hmember
        exact hwraps ⟨hcompletes.1, hcompletes.2, of_decide_eq_true hne⟩
      · rfl
    | _ => rfl
  | _ => rfl

theorem closure_flat (htype : record.eventType = .taskNodeClosed) (hcommitted : CommittedAs intent record)
    {batch : AcceptedBatch} (hintent : intent ∈ batch.intents)
    (hpass : CompletionsPass env.verdict env.contracts batch.read batch.intents)
    (hmember : member strOther (dispatchFields record.eventType record.payload) "task_id" = task) :
    ∃ after, closedAfterState intent = some after ∧ Json.nonBlank after "task_id" = some task ∧
      checkClosure env.contracts (EventIndex.build batch.read.records) batch.read.records after = none := by
  have hintentType : intent.eventType = .taskNodeClosed := hcommitted.eventType ▸ htype
  have hafter : closedAfterState intent = some intent.payload.afterState := by
    unfold closedAfterState
    rw [effKindPayload_of_ne (by rw [hintentType]; decide), hintentType]
    rfl
  have hcheck := hpass.checkClosure_eq_none hintent hafter
  obtain ⟨text, htext⟩ := nonBlank_of_checkClosure hcheck
  refine ⟨_, hafter, ?_, hcheck⟩
  have hrecord : Json.nonBlank record.payload.afterState "task_id" = some text := by
    unfold Json.nonBlank at htext ⊢
    rw [hcommitted.payload.lookup_after (by decide) (by decide), htext]
  have hfields : dispatchFields record.eventType record.payload = record.payload.afterState := by
    unfold dispatchFields
    rw [effKindPayload_of_ne (by rw [htype]; decide)]
    exact afterOrSelf_of_nonBlank hrecord
  rw [htext, ← hmember, hfields, member_of_nonBlank hrecord]

structure AllGated (env : CompletionEnv) (strOther : Json → String) (state : CompletionState) : Prop where
  completions : ∀ record ∈ state.log.records, record.eventType = .taskRunCompleted → ∀ task,
    successTask strOther (eventAsDict record) = some task → GatedCompletion env strOther state task record
  closures : ∀ record ∈ state.log.records, record.eventType = .taskNodeClosed → ∀ task,
    member strOther (dispatchFields record.eventType record.payload) "task_id" = task →
      GatedClosure env state task record
  flat : ∀ record ∈ state.log.records, record.eventType = .nodeTouched →
    successTask strOther (eventAsDict record) = none

theorem AllGated.step (h : AllGated env strOther state) (hagree : TypesAgree env strOther state action)
    (hstep : completionStep env state action = some next) : AllGated env strOther next := by
  obtain ⟨added, batches, hadds⟩ := completionStep_adds hstep
  have hnext : next ∈ (completionStep env state action).toList := by simp [hstep]
  have hold : ∀ batch ∈ state.accepted, batch ∈ next.accepted := fun batch hbatch => by
    rw [hadds.accepted]
    exact List.mem_append_left _ hbatch
  have hnew : ∀ batch ∈ batches, batch ∈ next.accepted := fun batch hbatch => by
    rw [hadds.accepted]
    exact List.mem_append_right _ hbatch
  have hnotPathB : EventType.taskRunCompleted ∉ pathBAllowed ∧ EventType.taskNodeClosed ∉ pathBAllowed := by
    decide
  constructor
  · intro record hrecord htype task htask
    rw [hadds.records, List.mem_append] at hrecord
    rcases hrecord with hrecord | hrecord
    · obtain ⟨-, batch, hbatch, intent, hintent, hcommitted, hcompletes, hjudged⟩ :=
        h.completions record hrecord htype task htask
      refine ⟨htype, batch, hold batch hbatch, intent, hintent, hcommitted, hcompletes, fun hreview => ?_⟩
      exact hjudged (hagree.settled next hnext task
        (mem_completedSuccessTaskIds.mpr ⟨record, hrecord, htask⟩) hreview)
    · cases hadds.origin record hrecord with
      | direct hallowed => exact absurd (htype ▸ hallowed) hnotPathB.1
      | protocol hother => exact absurd (by rw [htype]; decide) hother
      | domain batch hbatch intent hintent hcommitted hnamed =>
        obtain ⟨houtcome, hnonBlank⟩ := successTask_flat htype (hnamed htype) htask
        have hcompletes : completedTask intent = some task := by
          have hlookup : ∀ key, key ≠ "sibling_event_id" → key ≠ "envelope_event_id" →
              Json.lookup intent.payload.afterState key = Json.lookup record.payload.afterState key :=
            fun key hsibling henvelope => (hcommitted.payload.lookup_after hsibling henvelope).symm
          unfold completedTask Json.nonBlank
          dsimp only
          rw [hlookup "outcome" (by decide) (by decide), hlookup "task_id" (by decide) (by decide)]
          exact (if_pos ⟨hcommitted.eventType ▸ htype, houtcome⟩).trans hnonBlank
        refine ⟨htype, batch, hnew batch hbatch, intent, hintent, hcommitted, hcompletes,
          fun hreview => ⟨?_, ?_⟩⟩
        · have hdrop : batch ∈ next.accepted.drop state.accepted.length := by
            rw [hadds.accepted, List.drop_left]
            exact hbatch
          exact hagree.judged next hnext batch hdrop intent hintent task (by simp [hcompletes]) hreview
        · exact (hadds.passes batch hbatch).checkIntent_eq_none hintent
  · intro record hrecord htype task htask
    rw [hadds.records, List.mem_append] at hrecord
    rcases hrecord with hrecord | hrecord
    · obtain ⟨-, batch, hbatch, hrest⟩ := h.closures record hrecord htype task htask
      exact ⟨htype, batch, hold batch hbatch, hrest⟩
    · cases hadds.origin record hrecord with
      | direct hallowed => exact absurd (htype ▸ hallowed) hnotPathB.2
      | protocol hother => exact absurd (by rw [htype]; decide) hother
      | domain batch hbatch intent hintent hcommitted =>
        exact ⟨htype, batch, hnew batch hbatch, intent, hintent, hcommitted,
          closure_flat htype hcommitted hintent (hadds.passes batch hbatch) htask⟩
  · intro record hrecord htype
    rw [hadds.records, List.mem_append] at hrecord
    rcases hrecord with hrecord | hrecord
    · exact h.flat record hrecord htype
    · have hwritten : ∃ intent ∈ action.intents, CommittedAs intent record := by
        cases hadds.origin record hrecord with
        | direct _ intent hintent hcommitted => exact ⟨intent, hintent, hcommitted⟩
        | protocol hother => exact absurd (by rw [htype]; decide) hother
        | domain batch hbatch intent hintent hcommitted =>
          exact ⟨intent, hadds.intents batch hbatch ▸ hintent, hcommitted⟩
      obtain ⟨intent, hintent, hcommitted⟩ := hwritten
      exact successTask_wrapped htype hcommitted.payload
        (hagree.flat intent hintent (hcommitted.eventType ▸ htype))

/-- While no event wraps a completion and the two agree on the reviews, only what the gate judged unlocks
work. -/
theorem only_gated_unlock {actions : List CompletionAction}
    (hrun : Run (completionStep env) (TypesAgree env strOther) .initial actions state) :
    OnlyGatedUnlock env strOther state := by
  have hgated : AllGated env strOther state := by
    refine hrun.invariant (I := AllGated env strOther) ?_ fun _ _ _ hstate => hstate.step
    constructor <;> exact fun record hrecord => absurd hrecord List.not_mem_nil
  constructor
  · intro task htask
    obtain ⟨record, hrecord, hcompletes⟩ := mem_completedSuccessTaskIds.mp htask
    rcases successTask_cases hcompletes with htype | htype
    · exact ⟨record, hrecord, hgated.completions record hrecord htype task hcompletes⟩
    · rw [hgated.flat record hrecord htype] at hcompletes
      cases hcompletes
  · intro task htask
    obtain ⟨-, record, hrecord, htype, hmember⟩ := mem_closedTaskIds.mp htask
    exact ⟨record, hrecord, hgated.closures record hrecord htype task hmember⟩
  · exact hgated.flat

end

def sampleCompletionEnv : CompletionEnv where
  gate := sampleGateEnv
  verdict := Snapshot.sampleVerdictEnv
  contracts := { retired := fun _ _ _ _ => none, doneElsewhere := fun _ _ _ _ => none, repr := sampleStr }

def reviewedRun : List CompletionAction :=
  [.direct sampleEnvelope (sampleDraw 0),
    .accept 1 (sampleAttempt 0 emptyPayload [Snapshot.reviewTask]) "evt-g" {} [],
    .direct sampleEnvelope (sampleDraw 5),
    .accept 3 (sampleAttempt 5 emptyPayload [Snapshot.reviewCompleted]) "evt-gxxxxx" {} []]

def reviewedState : CompletionState :=
  (reviewedRun.foldlM (completionStep sampleCompletionEnv) .initial).getD .initial

theorem reviewedRun_only_gated_unlock :
    OnlyGatedUnlock sampleCompletionEnv sampleStr reviewedState ∧
      completedSuccessTaskIds sampleStr (allEventsAsDicts reviewedState.log.records) = ["task-1"] ∧
      dispatcherType sampleStr reviewedState.log "task-1" = some "review" :=
  ⟨only_gated_unlock (Run.of_check_isSome (fun _ _ => of_decide_eq_true) (by decide +kernel)),
    by decide +kernel, by decide +kernel⟩

def wrappedCompletion : EventIntent :=
  { sampleIntent with
    payload := ⟨[("kind", .str "TaskRunCompleted"), ("stub_original_payload", .obj
      [("after_state", .obj [("task_id", .str "task-1"), ("outcome", .str "success")])])], by decide⟩ }

/-- The stub alone unlocks what waits for its task. -/
theorem wrapped_completion_unlocks :
    ¬ ∀ (actions : List CompletionAction) (state : CompletionState),
      Run (completionStep sampleCompletionEnv) (fun _ _ => True) .initial actions state →
        OnlyGatedUnlock sampleCompletionEnv sampleStr state := by
  intro hclaim
  have hsome : (([.direct wrappedCompletion (sampleDraw 0)] : List CompletionAction).foldlM
      (completionStep sampleCompletionEnv) .initial).isSome = true := by decide +kernel
  have hunlock := hclaim _ _ (Run.of_isSome hsome)
  obtain ⟨record, -, -, batch, hbatch, -⟩ := hunlock.completed "task-1" (by decide +kernel)
  have hnone : ((([.direct wrappedCompletion (sampleDraw 0)] : List CompletionAction).foldlM
      (completionStep sampleCompletionEnv) .initial).getD .initial).accepted = [] := rfl
  rw [hnone] at hbatch
  cases hbatch

end Flowness.Planning
