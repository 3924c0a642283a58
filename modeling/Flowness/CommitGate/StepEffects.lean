import Flowness.CommitGate.Outcomes

/-!
What one step of the running calls does to the stream and to the scans: which outcomes it appends,
which envelopes a scan still has before it and which one it is about to reject.
-/

namespace Flowness.CommitGate

open Option Library Schemas Ledger

def Stage.listed : Stage → List String
  | .listing envelopes | .scanning envelopes _ | .recovering _ _ envelopes _ =>
    envelopes.map (·.eventId.val)
  | _ => []

def Stage.recovers : Stage → Option String
  | .recovering envelope .. => some envelope.eventId.val
  | _ => none

def Stage.finalises : Stage → List String
  | .rejecting job _ => [job.envelope.eventId.val]
  | .accepting job _ => collectEnvelopeOutcomes job.domain ++ [job.envelope.eventId.val]
  | .recovering envelope .. => [envelope.eventId.val]
  | _ => []

def GateState.finalised (state : GateState) : Action → List String
  | .write call _ => (state.calls[call]?.map Stage.finalises).getD []
  | _ => []

def envelopeIds (records : List EventRecord) : List String :=
  (records.filter (·.eventType == .transactionEnvelopeSubmitted)).map (·.eventId.val)

/-- A scan takes its envelopes from the stream or from where it was, and one that it is about to
reject has no outcome on the stream. -/
structure NewStage (state : GateState) (stage : Stage) : Prop where
  listed : ∀ id ∈ stage.listed,
    (∃ old ∈ state.calls, id ∈ old.listed) ∨ id ∈ envelopeIds state.log.records
  recovers : ∀ id, stage.recovers = some id →
    id ∉ state.log.outcomes ∧ ∃ old ∈ state.calls, id ∈ old.listed

inductive CallsAfter (state : GateState) (action : Action) : List Stage → Prop
  | kept (hwrite : ∀ call draw, action ≠ .write call draw) : CallsAfter state action state.calls
  | moved {call : Nat} {stage : Stage} (hnew : NewStage state stage)
      (hwrite : ∀ other draw, action = .write other draw → other = call ∧ stage.recovers = none) :
      CallsAfter state action (state.calls.set call stage)
  | started {stage : Stage} (hnew : NewStage state stage) (hwrite : ∀ call draw, action ≠ .write call draw) :
      CallsAfter state action (state.calls ++ [stage])

section

variable {env : GateEnv} {log next : CommittedLog} {state after : GateState}

@[simp] theorem envelopeIds_append (left right : List EventRecord) :
    envelopeIds (left ++ right) = envelopeIds left ++ envelopeIds right := by
  simp [envelopeIds]

theorem newStage_of_quiet (hlisted : stage.listed = []) (hrecovers : stage.recovers = none) :
    NewStage state stage :=
  ⟨by simp [hlisted], by simp [hrecovers]⟩

theorem quiet_decideStage (job : Job) (waits : Bool) :
    (decideStage job waits).listed = [] ∧ (decideStage job waits).recovers = none := by
  unfold decideStage
  split
  · split <;> exact ⟨rfl, rfl⟩
  · split <;> exact ⟨rfl, rfl⟩

theorem quiet_resume (audit : PendingAudit) (eventId verdict : String) :
    (resume audit eventId verdict).listed = [] ∧ (resume audit eventId verdict).recovers = none := by
  unfold resume
  split <;> exact ⟨rfl, rfl⟩

theorem newStage_of_listed {call : Nat} (hget : state.calls[call]? = some old)
    (hlisted : ∀ id ∈ stage.listed, id ∈ old.listed) (hrecovers : stage.recovers = none) :
    NewStage state stage :=
  ⟨fun id hmem => .inl ⟨old, List.mem_of_getElem? hget, hlisted id hmem⟩, by simp [hrecovers]⟩

theorem stepWrite_effect {draw : Nat → Draw} {stage : Stage}
    (hget : state.calls[call]? = some stage)
    (hstep : stepWrite env state call draw stage = some after) :
    Extends state.log after.log stage.finalises ∧
      ∃ new, NewStage state new ∧ new.recovers = none ∧ after.calls = state.calls.set call new := by
  cases stage with
  | triggering job auditBlocking intent subjects scope =>
    obtain ⟨⟨log, record⟩, hwrite, hsome⟩ := bind_eq_some_iff.mp hstep
    cases hsome
    obtain ⟨hlisted, hrecovers⟩ :=
      quiet_decideStage job (auditBlocking && job.outcome.rejectionType.isNone)
    exact ⟨(wrote_writeAuditEvent hwrite).extended, _, newStage_of_quiet hlisted hrecovers, hrecovers, rfl⟩
  | drifting job drift rejection =>
    obtain ⟨intent, _, hstep⟩ := bind_eq_some_iff.mp hstep
    obtain ⟨⟨log, record⟩, hwrite, hsome⟩ := bind_eq_some_iff.mp hstep
    cases hsome
    exact ⟨(wrote_writeDirectTo hwrite).extended, _, newStage_of_quiet rfl rfl, rfl, rfl⟩
  | rejecting job rejection =>
    obtain ⟨records, hrecords, hstep⟩ := bind_eq_some_iff.mp hstep
    obtain ⟨log, happend, hsome⟩ := bind_eq_some_iff.mp hstep
    cases hsome
    have hext := extends_appendBatch happend
    rw [collectEnvelopeOutcomes_rejectedRecords env hrecords] at hext
    exact ⟨hext, .done, newStage_of_quiet rfl rfl, rfl, rfl⟩
  | accepting job auditChain =>
    obtain ⟨log, happend, hsome⟩ := bind_eq_some_iff.mp hstep
    cases hsome
    have hext := extends_appendBatch happend
    rw [collectEnvelopeOutcomes_acceptedRecords env] at hext
    exact ⟨hext, .done, newStage_of_quiet rfl rfl, rfl, rfl⟩
  | recovering envelope ids rest snapshot =>
    obtain ⟨records, hrecords, hstep⟩ := bind_eq_some_iff.mp hstep
    obtain ⟨log, happend, hsome⟩ := bind_eq_some_iff.mp hstep
    cases hsome
    have hext := extends_appendBatch happend
    rw [collectEnvelopeOutcomes_rejectedRecords env hrecords] at hext
    exact ⟨hext, .scanning rest snapshot, newStage_of_listed hget (fun _ hmem => hmem) rfl, rfl, rfl⟩
  | _ => cases hstep

theorem step_effect {action : Action} (hstep : step env state action = some after) :
    Extends state.log after.log (state.finalised action) ∧ CallsAfter state action after.calls := by
  cases action with
  | submit envelope draw domain ids auditBlocking =>
    simp only [step] at hstep
    split at hstep
    · obtain ⟨⟨log, record⟩, hwrite, hsome⟩ := bind_eq_some_iff.mp hstep
      cases hsome
      exact ⟨(wrote_writeDirectTo hwrite).extended, .started (newStage_of_quiet rfl rfl) (by simp)⟩
    · cases hstep
  | check call outcome trigger =>
    simp only [step] at hstep
    split at hstep
    next job auditBlocking hget =>
      split at hstep
      · cases hstep
        exact ⟨Extends.refl _, .moved (newStage_of_quiet rfl rfl) (by simp)⟩
      · cases hstep
        obtain ⟨hlisted, hrecovers⟩ := quiet_decideStage { job with outcome } false
        exact ⟨Extends.refl _, .moved (newStage_of_quiet hlisted hrecovers) (by simp)⟩
    · cases hstep
  | write call draw =>
    simp only [step] at hstep
    split at hstep
    next stage hget =>
      obtain ⟨hext, new, hnew, hrecovers, hcalls⟩ := stepWrite_effect hget hstep
      refine ⟨by simpa [GateState.finalised, hget] using hext, ?_⟩
      rw [hcalls]
      refine .moved hnew fun other _ heq => ?_
      cases heq
      exact ⟨rfl, hrecovers⟩
    · cases hstep
  | recheck call drift =>
    simp only [step] at hstep
    split at hstep
    · split at hstep
      all_goals
        cases hstep
        exact ⟨Extends.refl _, .moved (newStage_of_quiet rfl rfl) (by simp)⟩
    · cases hstep
  | continueAttempt pending auditVerdictEventId =>
    simp only [step] at hstep
    split at hstep
    · cases hstep
      obtain ⟨hlisted, hrecovers⟩ := quiet_resume _ auditVerdictEventId _
      exact ⟨Extends.refl _, .started (newStage_of_quiet hlisted hrecovers) (by simp)⟩
    · cases hstep
  | scanAbandoned =>
    cases hstep
    exact ⟨Extends.refl _, .started ⟨fun id hmem => .inr hmem, by simp [Stage.recovers]⟩ (by simp)⟩
  | snapshot call =>
    simp only [step] at hstep
    split at hstep
    next envelopes hget =>
      cases hstep
      exact ⟨Extends.refl _, .moved (newStage_of_listed hget (fun _ hmem => hmem) rfl) (by simp)⟩
    · cases hstep
  | reread call aged ids =>
    simp only [step] at hstep
    split at hstep
    next envelope rest snapshot hget =>
      have hrest : ∀ id ∈ rest.map (·.eventId.val), id ∈ (envelope :: rest).map (·.eventId.val) :=
        fun id hmem => List.mem_cons_of_mem _ hmem
      split at hstep
      next hfound =>
        cases hstep
        have hold : Stage.scanning (envelope :: rest) snapshot ∈ state.calls := List.mem_of_getElem? hget
        refine ⟨Extends.refl _, .moved ⟨fun id hmem => .inl ⟨_, hold, hrest id hmem⟩, ?_⟩ (by simp)⟩
        intro id hid
        obtain rfl : envelope.eventId.val = id := by simpa [Stage.recovers] using hid
        exact ⟨hfound.2.2, _, hold, List.mem_map_of_mem List.mem_cons_self⟩
      · cases hstep
        exact ⟨Extends.refl _, .moved (newStage_of_listed hget hrest rfl) (by simp)⟩
    · cases hstep
  | direct intent draw =>
    obtain ⟨⟨log, record⟩, hwrite, hsome⟩ := bind_eq_some_iff.mp hstep
    cases hsome
    exact ⟨(wrote_writeDirectTo hwrite).extended, .kept (by simp)⟩
  | audit intent draw =>
    obtain ⟨⟨log, record⟩, hwrite, hsome⟩ := bind_eq_some_iff.mp hstep
    cases hsome
    exact ⟨(wrote_writeAuditEvent hwrite).extended, .kept (by simp)⟩
  | crash call =>
    cases hstep
    exact ⟨Extends.refl _, .moved (newStage_of_quiet rfl rfl) (by simp)⟩

end

end Flowness.CommitGate
