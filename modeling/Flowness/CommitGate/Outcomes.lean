import Flowness.CommitGate.Protocol

/-!
How often an envelope is finalised. Each running call that may still append an outcome holds its
envelope; outcomes and holders together number at most one as long as nobody takes an envelope
that another call holds.
-/

namespace Flowness.CommitGate

open Option List Library Schemas Ledger CommittedLog

def Stage.envelope : Stage → Option EventRecord
  | .checking job _ | .triggering job .. | .drifting job .. | .rejecting job _
  | .finalizing job _ | .accepting job _ => some job.envelope
  | .recovering envelope .. => some envelope
  | .listing _ | .scanning .. | .done => none

def Stage.holds (envelopeId : String) (stage : Stage) : Bool :=
  stage.envelope.map (·.eventId.val) == some envelopeId

def holders (calls : List Stage) (envelopeId : String) : Nat :=
  calls.countP (Stage.holds envelopeId)

namespace CommittedLog

def outcomes (log : CommittedLog) : List String := collectEnvelopeOutcomes log.records

end CommittedLog

/-- No call holds the envelope and the stream has no outcome of it. -/
def GateState.Free (state : GateState) (envelopeId : String) : Prop :=
  envelopeId ∉ state.log.outcomes ∧ holders state.calls envelopeId = 0

/-- Nobody takes an envelope that is held: the domain events of an attempt are no sentinels, an
audit is resumed while its envelope is free, and a scan that finds an old envelope without an
outcome finds it in nobody's hands. -/
def Unshared (state : GateState) : Action → Prop
  | .submit _ _ domain _ _ => ∀ record ∈ domain, record.isSentinel = false
  | .continueAttempt pending _ => ∀ audit, state.pending[pending]? = some audit →
      state.Free audit.job.envelope.eventId.val
  | .reread call aged _ => ∀ envelope rest snapshot,
      state.calls[call]? = some (.scanning (envelope :: rest) snapshot) → aged = true →
      envelope.eventId.val ∉ state.log.outcomes → holders state.calls envelope.eventId.val = 0
  | _ => True

@[simp] theorem collectEnvelopeOutcomes_append (left right : List EventRecord) :
    collectEnvelopeOutcomes (left ++ right) =
      collectEnvelopeOutcomes left ++ collectEnvelopeOutcomes right := by
  simp [collectEnvelopeOutcomes]

theorem collectEnvelopeOutcomes_reseqFrom (env : WriterEnv) (base : Nat)
    (records : List EventRecord) :
    collectEnvelopeOutcomes (reseqFrom env base records) = collectEnvelopeOutcomes records := by
  have hmap := map_reseqFrom env (fun record => outcomeOf record.eventType record.payload)
    (fun record newSeq => by
      obtain ⟨recordHash, heq⟩ := reseq_eq env record newSeq
      rw [heq]) base records
  have hfilter := congrArg (List.filterMap id) hmap
  rwa [filterMap_map, filterMap_map] at hfilter

variable {records : List EventRecord} {call : Nat} {draw : Nat → Draw} {new old stage : Stage}
  {id : String}

theorem collectEnvelopeOutcomes_of_plain (h : ∀ record ∈ records, record.isSentinel = false) :
    collectEnvelopeOutcomes records = [] := by
  rw [collectEnvelopeOutcomes, filterMap_eq_nil_iff]
  intro record hrecord
  have hplain : EventRecord.isSentinelType record.eventType = false := h record hrecord
  simp [outcomeOf, hplain]

theorem holders_set (h : calls[call]? = some old) (new : Stage) (envelopeId : String) :
    holders (calls.set call new) envelopeId + (old.holds envelopeId).toNat =
      holders calls envelopeId + (new.holds envelopeId).toNat := by
  obtain ⟨hlt, hold⟩ := List.getElem?_eq_some_iff.mp h
  have hset := countP_set (p := Stage.holds envelopeId) (a := new) hlt
  have hpos : old.holds envelopeId = true → 0 < holders calls envelopeId := fun hholds =>
    countP_pos_iff.mpr ⟨old, hold ▸ getElem_mem hlt, hholds⟩
  rw [holders, holders, hset]
  rw [holders] at hpos
  cases hcase : old.holds envelopeId <;> cases new.holds envelopeId <;>
    simp_all

theorem holders_append (calls : List Stage) (stage : Stage) (envelopeId : String) :
    holders (calls ++ [stage]) envelopeId =
      holders calls envelopeId + (stage.holds envelopeId).toNat := by
  rw [holders, countP_append, countP_singleton]
  cases stage.holds envelopeId <;> rfl

section Batches

variable (env : GateEnv)

theorem collectEnvelopeOutcomes_stampFrom (ids : AttemptIds) (base position : Nat)
    (events : List (EventIntent × Draw)) :
    collectEnvelopeOutcomes (stampFrom env ids base position events) =
      events.filterMap fun event => outcomeOf event.1.eventType event.1.payload := by
  induction events generalizing position with
  | nil => rfl
  | cons event events ih =>
    have htail := ih (position + 1)
    simp only [collectEnvelopeOutcomes] at htail
    simp only [stampFrom, collectEnvelopeOutcomes, filterMap_cons, htail]
    rfl

variable {log : CommittedLog} {envelope : EventRecord}

theorem outcomeOf_releasedEvents {draw : Draw}
    (h : releasedEvents env draw envelope rejection = some events) :
    events.filterMap (fun event => outcomeOf event.1.eventType event.1.payload) = [] := by
  unfold releasedEvents at h
  split at h
  · obtain ⟨intent, hintent, rfl⟩ := map_eq_some_iff.mp h
    obtain ⟨task, -, hintent⟩ := bind_eq_some_iff.mp hintent
    cases hintent
    rfl
  · cases h
    rfl

theorem outcomeOf_violatedEvents
    (h : violatedEvents draw envelope position violations = some events) :
    events.filterMap (fun event => outcomeOf event.1.eventType event.1.payload) = [] := by
  induction violations generalizing position events with
  | nil =>
    cases h
    rfl
  | cons violation violations ih =>
    obtain ⟨intent, hintent, h⟩ := bind_eq_some_iff.mp h
    obtain ⟨rest, hrest, h⟩ := bind_eq_some_iff.mp h
    cases h
    obtain ⟨obligation, -, hintent⟩ := bind_eq_some_iff.mp hintent
    cases hintent
    have htail := ih hrest
    rwa [filterMap_cons_none rfl]

theorem collectEnvelopeOutcomes_rejectedRecords {ids : AttemptIds}
    (h : rejectedRecords env log ids draw envelope rejection = some records) :
    collectEnvelopeOutcomes records = [envelope.eventId.val] := by
  obtain ⟨released, hreleased, h⟩ := bind_eq_some_iff.mp h
  obtain ⟨violated, hviolated, h⟩ := bind_eq_some_iff.mp h
  cases h
  rw [collectEnvelopeOutcomes_stampFrom, filterMap_append, filterMap_append,
    outcomeOf_releasedEvents env hreleased, outcomeOf_violatedEvents hviolated]
  rfl

theorem collectEnvelopeOutcomes_acceptedRecords {ids : AttemptIds} : collectEnvelopeOutcomes
        (acceptedRecords env log ids draw envelope domain outcome auditChain) =
      collectEnvelopeOutcomes domain ++ [envelope.eventId.val] := by
  have hchecked : ∀ events : List (EventIntent × Draw),
      (∀ event ∈ events, event.1.eventType = .obligationChecked) →
        events.filterMap (fun event => outcomeOf event.1.eventType event.1.payload) = [] := by
    intro events hevents
    rw [filterMap_eq_nil_iff]
    intro event hevent
    simp [outcomeOf, hevents event hevent, EventRecord.isSentinelType]
  unfold acceptedRecords
  simp only [collectEnvelopeOutcomes_append, collectEnvelopeOutcomes_stampFrom]
  rw [hchecked _ (fun event hevent => by
    obtain ⟨⟨intent, i⟩, hmem, rfl⟩ := mem_map.mp hevent
    obtain ⟨⟨⟨obligation, status⟩, j⟩, -, rfl⟩ := mem_map.mp (fst_mem_of_mem_zipIdx hmem)
    rfl), append_nil]
  rfl

variable {env}

section

variable {next : CommittedLog} (h : log.append env.toWriterEnv records = some next)
include h

theorem ids_append : next.ids = log.ids ++ records.map (·.eventId.val) := by
  rw [ids, append_records h, map_append, eventIds_reseqFrom]
  rfl

end

end Batches

/-- New records at the end of the stream, with these outcomes. -/
def Extends (log next : CommittedLog) (news : List String) : Prop :=
  ∃ added, next.records = log.records ++ added ∧ collectEnvelopeOutcomes added = news

theorem Extends.refl (log : CommittedLog) : Extends log log [] := ⟨[], (append_nil _).symm, rfl⟩

section

variable {next : CommittedLog} (h : Extends log next news)
include h

theorem Extends.ids : ∀ id ∈ log.ids, id ∈ next.ids := by
  obtain ⟨added, hrecords, -⟩ := h
  intro id hid
  rw [CommittedLog.ids, hrecords, map_append]
  exact mem_append_left _ hid

theorem Extends.outcomes : next.outcomes = log.outcomes ++ news := by
  obtain ⟨added, hrecords, rfl⟩ := h
  rw [CommittedLog.outcomes, hrecords, collectEnvelopeOutcomes_append]
  rfl

end

/-- The envelope was written and the domain events are no sentinels. -/
structure Job.Known (log : CommittedLog) (job : Job) : Prop where
  written : job.envelope.eventId.val ∈ log.ids
  plain : ∀ record ∈ job.domain, record.isSentinel = false

def Stage.Known (log : CommittedLog) : Stage → Prop
  | .checking job _ | .triggering job .. | .drifting job .. | .rejecting job _
  | .finalizing job _ | .accepting job _ => job.Known log
  | .listing envelopes | .scanning envelopes _ =>
    ∀ envelope ∈ envelopes, envelope.eventId.val ∈ log.ids
  | .recovering envelope _ rest _ =>
    envelope.eventId.val ∈ log.ids ∧ ∀ envelope ∈ rest, envelope.eventId.val ∈ log.ids
  | .done => True

structure Sound (state : GateState) : Prop where
  once : ∀ id, state.log.outcomes.count id + holders state.calls id ≤ 1
  named : ∀ id ∈ state.log.outcomes, id ∈ state.log.ids
  known : ∀ stage ∈ state.calls, stage.Known state.log
  waiting : ∀ audit ∈ state.pending, audit.job.Known state.log

theorem sound_initial : Sound GateState.initial where
  once := fun _ => Nat.zero_le 1
  named := by simp [GateState.initial, CommittedLog.outcomes, CommittedLog.empty,
    collectEnvelopeOutcomes]
  known := by simp [GateState.initial]
  waiting := by simp [GateState.initial]

section

variable {log next : CommittedLog} {news : List String} {state : GateState}

theorem Job.Known.mono {job : Job} (h : job.Known log) (hext : Extends log next news) :
    job.Known next := ⟨hext.ids _ h.written, h.plain⟩

theorem Stage.Known.mono (h : stage.Known log) (hext : Extends log next news) :
    stage.Known next := by
  cases stage with
  | listing | scanning => exact fun envelope hmem => hext.ids _ (h envelope hmem)
  | recovering => exact ⟨hext.ids _ h.1, fun envelope hmem => hext.ids _ (h.2 envelope hmem)⟩
  | done => trivial
  | _ => exact Job.Known.mono h hext

theorem Stage.Known.written (h : stage.Known log) (hholds : stage.holds id = true) :
    id ∈ log.ids := by
  have hid : stage.envelope.map (·.eventId.val) = some id := by simpa [holds] using hholds
  cases stage with
  | listing | scanning | done => cases hid
  | recovering =>
    cases hid
    exact h.1
  | _ =>
    cases hid
    exact Job.Known.written h

section

variable (h : Sound state)
include h

theorem Sound.free_of_unwritten (hid : id ∉ state.log.ids) : state.Free id := by
  refine ⟨fun hmem => hid (h.named id hmem), ?_⟩
  rw [holders, countP_eq_zero]
  intro stage hmem hholds
  exact hid ((h.known stage hmem).written hholds)

theorem Sound.moved (hold : state.calls[call]? = some old) (hext : Extends state.log next news)
    (hnews : ∀ id ∈ news, id ∈ state.log.ids) (hknown : new.Known next)
    (hpending : ∀ audit ∈ pending, audit.job.Known next)
    (hcount : ∀ id, state.log.outcomes.count id + holders state.calls id + news.count id +
      (new.holds id).toNat ≤ 1 + (old.holds id).toNat) :
    Sound { state.move call next new with pending := pending } where
  once := by
    intro id
    have hset := holders_set hold new id
    have hle := hcount id
    change next.outcomes.count id + holders (state.calls.set call new) id ≤ 1
    rw [hext.outcomes, count_append]
    omega
  named := by
    intro id hid
    change id ∈ next.outcomes at hid
    rw [hext.outcomes, mem_append] at hid
    rcases hid with hid | hid
    · exact hext.ids id (h.named id hid)
    · exact hext.ids id (hnews id hid)
  known := by
    intro stage hmem
    rcases mem_or_eq_of_mem_set hmem with hmem | rfl
    · exact (h.known stage hmem).mono hext
    · exact hknown
  waiting := hpending

theorem Sound.handed (hold : state.calls[call]? = some old) (hext : Extends state.log next news)
    (hnews : ∀ id ∈ news, id ∈ state.log.ids) (hknown : new.Known next)
    (hle : ∀ id, news.count id + (new.holds id).toNat ≤ (old.holds id).toNat) :
    Sound (state.move call next new) := by
  refine h.moved hold hext hnews hknown (fun audit hmem => (h.waiting audit hmem).mono hext) ?_
  intro id
  have := h.once id
  have := hle id
  omega

theorem Sound.relayed (hold : state.calls[call]? = some old) (hext : Extends state.log next [])
    (hknown : new.Known next) (hle : ∀ id, (new.holds id).toNat ≤ (old.holds id).toNat) :
    Sound (state.move call next new) := by
  refine h.handed hold hext (by simp) hknown fun id => ?_
  rw [count_nil, Nat.zero_add]
  exact hle id

theorem Sound.started (hext : Extends state.log next []) (hknown : new.Known next)
    (hfree : ∀ id, new.holds id = true → state.Free id) :
    Sound { state with log := next, calls := state.calls ++ [new] } where
  once := by
    intro id
    have honce := h.once id
    rw [hext.outcomes, append_nil, holders_append]
    cases hholds : new.holds id with
    | false => simpa using honce
    | true =>
      obtain ⟨hnone, hholders⟩ := hfree id hholds
      rw [count_eq_zero.mpr hnone, hholders]
      rfl
  named := by
    intro id hid
    rw [hext.outcomes, append_nil] at hid
    exact hext.ids id (h.named id hid)
  known := by
    intro stage hmem
    rcases mem_append.mp hmem with hmem | hmem
    · exact (h.known stage hmem).mono hext
    · rw [mem_singleton.mp hmem]
      exact hknown
  waiting := fun audit hmem => (h.waiting audit hmem).mono hext

theorem Sound.extended (hext : Extends state.log next []) : Sound { state with log := next } where
  once := by
    intro id
    rw [hext.outcomes, append_nil]
    exact h.once id
  named := by
    intro id hid
    rw [hext.outcomes, append_nil] at hid
    exact hext.ids id (h.named id hid)
  known := fun stage hmem => (h.known stage hmem).mono hext
  waiting := fun audit hmem => (h.waiting audit hmem).mono hext

theorem Sound.known_of_get (hget : state.calls[call]? = some stage) : stage.Known state.log :=
  h.known stage (mem_of_getElem? hget)

end

end

section Steps

variable {env : GateEnv} {log next : CommittedLog} {state after : GateState}

theorem extends_append (h : log.append env.toWriterEnv records = some next) :
    Extends log next (collectEnvelopeOutcomes records) :=
  ⟨_, append_records h, collectEnvelopeOutcomes_reseqFrom _ _ _⟩

/-- A single record that is no sentinel: its identifier is new, no outcome is. -/
structure Wrote (log next : CommittedLog) (record : EventRecord) : Prop where
  extended : Extends log next []
  written : record.eventId.val ∈ next.ids
  fresh : record.eventId.val ∉ log.ids

variable {intent : EventIntent}

theorem wrote_of_append {draw : Draw} (hplain : EventRecord.isSentinelType intent.eventType = false)
    (h : log.append env.toWriterEnv [stamp env.toWriterEnv intent draw.eventId draw.timestamp
      log.nextSequence batch] = some next) : Wrote log next
      (stamp env.toWriterEnv intent draw.eventId draw.timestamp log.nextSequence batch) where
  extended := by
    have hext := extends_append h
    rwa [collectEnvelopeOutcomes_of_plain (fun record hmem => by
      rw [mem_singleton.mp hmem]
      exact hplain)] at hext
  written := by
    rw [ids_append h]
    simp
  fresh := (append_admissible h).unused _ (mem_singleton_self _)

theorem wrote_writeDirectTo {draw : Draw}
    (h : writeDirectTo env log intent draw = some (next, record)) : Wrote log next record := by
  have hplain : ∀ eventType ∈ pathBAllowed, EventRecord.isSentinelType eventType = false := by
    decide
  unfold writeDirectTo at h
  split at h
  next hallowed =>
    obtain ⟨log, happend, hsome⟩ := bind_eq_some_iff.mp h
    cases hsome
    exact wrote_of_append (hplain _ hallowed) happend
  · cases h

theorem wrote_writeAuditEvent {draw : Draw}
    (h : writeAuditEvent env log intent draw = some (next, record)) : Wrote log next record := by
  have hplain : ∀ eventType ∈ auditProducerOnlyTypes,
      EventRecord.isSentinelType eventType = false := by decide
  unfold writeAuditEvent at h
  split at h
  next hallowed =>
    obtain ⟨log, happend, hsome⟩ := bind_eq_some_iff.mp h
    cases hsome
    exact wrote_of_append (hplain _ hallowed) happend
  · cases h

theorem extends_appendBatch (h : appendBatch env log records = some next) :
    Extends log next (collectEnvelopeOutcomes records) := by
  unfold appendBatch at h
  split at h
  · exact extends_append h
  · cases h

theorem known_decideStage (h : job.Known log) (waits : Bool) :
    (decideStage job waits).Known log := by
  unfold decideStage
  split
  · split <;> exact h
  · split
    · trivial
    · exact h

theorem holds_decideStage (job : Job) (waits : Bool) (id : String) :
    ((decideStage job waits).holds id).toNat ≤
      ((Stage.checking job false).holds id).toNat := by
  unfold decideStage
  split
  · split <;> exact le_rfl
  · split
    · exact Nat.zero_le _
    · exact le_rfl

theorem known_resume (h : audit.job.Known log) (eventId verdict : String) :
    (resume audit eventId verdict).Known log := by
  unfold resume
  split
  · exact h
  · exact ⟨h.written, h.plain⟩

theorem holds_resume (h : (resume audit eventId verdict).holds id = true) :
    audit.job.envelope.eventId.val = id := by
  unfold resume at h
  split at h <;> simpa [Stage.holds, Stage.envelope] using h

theorem count_finalised (envelope : EventRecord) (old : Stage) (hold : old.envelope = some envelope)
    (hnew : new.envelope = none) (id : String) :
    [envelope.eventId.val].count id + (new.holds id).toNat ≤ (old.holds id).toNat := by
  by_cases heq : envelope.eventId.val = id <;> simp [Stage.holds, hold, hnew, heq]

theorem Sound.stepWrite (h : Sound state) (hget : state.calls[call]? = some stage)
    (hstep : stepWrite env state call draw stage = some after) : Sound after := by
  have hknown := h.known_of_get hget
  cases stage with
  | triggering job auditBlocking intent subjects scope =>
    obtain ⟨⟨log, record⟩, hwrite, hsome⟩ := bind_eq_some_iff.mp hstep
    cases hsome
    have hwrote := wrote_writeAuditEvent hwrite
    have hjob : job.Known log := Job.Known.mono hknown hwrote.extended
    refine h.moved hget hwrote.extended (by simp) (known_decideStage hjob _) ?_ ?_
    · intro audit hmem
      split at hmem
      · rcases mem_append.mp hmem with hmem | hmem
        · exact (h.waiting audit hmem).mono hwrote.extended
        · rw [mem_singleton.mp hmem]
          exact hjob
      · exact (h.waiting audit hmem).mono hwrote.extended
    · intro id
      have := h.once id
      have hle := holds_decideStage job (auditBlocking && job.outcome.rejectionType.isNone) id
      change _ ≤ ((Stage.triggering job auditBlocking intent subjects scope).holds id).toNat at hle
      rw [count_nil]
      omega
  | drifting job drift rejection =>
    obtain ⟨intent, -, hstep⟩ := bind_eq_some_iff.mp hstep
    obtain ⟨⟨log, record⟩, hwrite, hsome⟩ := bind_eq_some_iff.mp hstep
    cases hsome
    have hwrote := wrote_writeDirectTo hwrite
    exact h.relayed hget hwrote.extended (Job.Known.mono hknown hwrote.extended)
      fun _ => le_rfl
  | rejecting job rejection =>
    obtain ⟨records, hrecords, hstep⟩ := bind_eq_some_iff.mp hstep
    obtain ⟨log, happend, hsome⟩ := bind_eq_some_iff.mp hstep
    cases hsome
    have hext := extends_appendBatch happend
    rw [collectEnvelopeOutcomes_rejectedRecords env hrecords] at hext
    refine h.handed hget hext ?_ trivial (count_finalised job.envelope _ rfl rfl)
    simpa using Job.Known.written hknown
  | accepting job auditChain =>
    obtain ⟨log, happend, hsome⟩ := bind_eq_some_iff.mp hstep
    cases hsome
    have hext := extends_appendBatch happend
    rw [collectEnvelopeOutcomes_acceptedRecords env,
      collectEnvelopeOutcomes_of_plain (Job.Known.plain hknown), nil_append] at hext
    refine h.handed hget hext ?_ trivial (count_finalised job.envelope _ rfl rfl)
    simpa using Job.Known.written hknown
  | recovering envelope ids rest snapshot =>
    obtain ⟨records, hrecords, hstep⟩ := bind_eq_some_iff.mp hstep
    obtain ⟨log, happend, hsome⟩ := bind_eq_some_iff.mp hstep
    cases hsome
    have hext := extends_appendBatch happend
    rw [collectEnvelopeOutcomes_rejectedRecords env hrecords] at hext
    refine h.handed hget hext ?_ (fun envelope hmem => hext.ids _ (hknown.2 envelope hmem))
      (count_finalised envelope _ rfl rfl)
    simpa using hknown.1
  | _ => cases hstep

section

variable (h : Sound state)
include h

theorem Sound.submit {draw : Draw} {ids : AttemptIds}
    (hunshared : Unshared state (.submit envelope draw domain ids auditBlocking))
    (hstep : step env state (.submit envelope draw domain ids auditBlocking) = some after) :
    Sound after := by
  simp only [CommitGate.step] at hstep
  split at hstep
  · obtain ⟨⟨log, record⟩, hwrite, hsome⟩ := bind_eq_some_iff.mp hstep
    cases hsome
    have hwrote := wrote_writeDirectTo hwrite
    refine h.started hwrote.extended ⟨hwrote.written, hunshared⟩ fun id hholds => ?_
    have hid : record.eventId.val = id := by simpa [Stage.holds, Stage.envelope] using hholds
    exact h.free_of_unwritten (hid ▸ hwrote.fresh)
  · cases hstep

theorem Sound.check (hstep : step env state (.check call outcome trigger) = some after) :
    Sound after := by
  simp only [CommitGate.step] at hstep
  split at hstep
  next job auditBlocking hget =>
    have hknown : job.Known state.log := h.known_of_get hget
    have hjob : Job.Known state.log { job with outcome } := ⟨hknown.written, hknown.plain⟩
    split at hstep
    · cases hstep
      exact h.relayed hget (Extends.refl _) hjob fun _ => le_rfl
    · cases hstep
      exact h.relayed hget (Extends.refl _) (known_decideStage hjob false)
        (holds_decideStage { job with outcome } false)
  · cases hstep

theorem Sound.reread {ids : AttemptIds} (hunshared : Unshared state (.reread call aged ids))
    (hstep : step env state (.reread call aged ids) = some after) : Sound after := by
  simp only [CommitGate.step] at hstep
  split at hstep
  next envelope rest snapshot hget =>
    have hknown := h.known_of_get hget
    have hrest : ∀ other ∈ rest, other.eventId.val ∈ state.log.ids :=
      fun other hmem => hknown other (mem_cons_of_mem _ hmem)
    split at hstep
    next hfound =>
      obtain ⟨-, haged, hnone⟩ := hfound
      cases hstep
      refine h.moved hget (Extends.refl _) (by simp) ⟨hknown _ mem_cons_self, hrest⟩
        h.waiting fun id => ?_
      -- the re-read and the condition leave the envelope free
      have hholders := hunshared envelope rest snapshot hget haged hnone
      have honce := h.once id
      by_cases hid : envelope.eventId.val = id
      · subst hid
        have hcount : state.log.outcomes.count envelope.eventId.val = 0 :=
          count_eq_zero.mpr hnone
        simp [hcount, hholders, Stage.holds, Stage.envelope]
      · have hother : (envelope.eventId.val == id) = false := by simpa using hid
        simpa [Stage.holds, Stage.envelope, hother] using honce
    · cases hstep
      exact h.relayed hget (Extends.refl _) hrest fun _ => le_rfl
  · cases hstep

theorem Sound.step (hunshared : Unshared state action)
    (hstep : step env state action = some after) : Sound after := by
  cases action with
  | submit envelope draw domain ids auditBlocking => exact h.submit hunshared hstep
  | check call outcome trigger => exact h.check hstep
  | write call draw =>
    simp only [CommitGate.step] at hstep
    split at hstep
    next stage hget =>
      exact h.stepWrite hget hstep
    · cases hstep
  | recheck call drift =>
    simp only [CommitGate.step] at hstep
    split at hstep
    next job auditChain hget =>
      have hknown : job.Known state.log := h.known_of_get hget
      split at hstep
      all_goals
        cases hstep
        exact h.relayed hget (Extends.refl _) hknown fun _ => le_rfl
    · cases hstep
  | continueAttempt pending auditVerdictEventId =>
    simp only [CommitGate.step] at hstep
    split at hstep
    next audit hget =>
      cases hstep
      have haudit := h.waiting audit (mem_of_getElem? hget)
      refine h.started (Extends.refl _) (known_resume haudit _ _) fun id hholds => ?_
      exact holds_resume hholds ▸ hunshared audit hget
    · cases hstep
  | scanAbandoned =>
    cases hstep
    refine h.started (Extends.refl _) ?_ (fun id hholds => by cases hholds)
    exact fun envelope hmem => mem_map_of_mem (mem_filter.mp hmem).1
  | snapshot call =>
    simp only [CommitGate.step] at hstep
    split at hstep
    next envelopes hget =>
      cases hstep
      have hknown : (Stage.listing envelopes).Known state.log := h.known_of_get hget
      exact h.relayed hget (Extends.refl _) hknown fun _ => le_rfl
    · cases hstep
  | reread call aged ids => exact h.reread hunshared hstep
  | direct intent draw =>
    obtain ⟨⟨log, record⟩, hwrite, hsome⟩ := bind_eq_some_iff.mp hstep
    cases hsome
    exact h.extended (wrote_writeDirectTo hwrite).extended
  | audit intent draw =>
    obtain ⟨⟨log, record⟩, hwrite, hsome⟩ := bind_eq_some_iff.mp hstep
    cases hsome
    exact h.extended (wrote_writeAuditEvent hwrite).extended
  | crash call =>
    cases hstep
    cases hget : state.calls[call]? with
    | none =>
      rw [List.getElem?_eq_none_iff] at hget
      rwa [GateState.move, set_eq_of_length_le hget]
    | some stage =>
      exact h.relayed hget (Extends.refl _) trivial fun _ => Nat.zero_le _

end

end Steps

/-- Each envelope has at most one outcome in every run in which no call takes an envelope that
another one holds. -/
theorem one_outcome_per_envelope {env : GateEnv} {actions : List Action} {state : GateState}
    (hrun : Run (step env) Unshared GateState.initial actions state) (envelopeId : String) :
    (collectEnvelopeOutcomes state.log.records).count envelopeId ≤ 1 := by
  have hsound : Sound state := hrun.invariant sound_initial
    fun _ _ _ hstate hunshared hnext => hstate.step hunshared hnext
  have honce := hsound.once envelopeId
  exact Nat.le_of_add_right_le honce

def sampleGateEnv : GateEnv where
  toWriterEnv := sampleEnv
  str := fun value => value.text?.getD ""
  str_text := fun _ => rfl

def sampleDraw (n : Nat) : Draw where
  localIntentId := ⟨"lid-g", by decide⟩
  eventId := ⟨"evt-g" ++ String.ofList (List.replicate n 'x'), by
    simp [isEventId, isEventIdChar, String.toList_append]⟩
  timestamp := sampleTime

def sampleEnvelope : EventIntent :=
  { sampleIntent with eventType := .transactionEnvelopeSubmitted, eventCategory := .envelope }

def sampleIds : AttemptIds := { gateRunId := "gr-1", transactionId := "tx-1", batchId := "b-1" }

def sampleTrigger : EventIntent :=
  { sampleIntent with eventType := .auditTriggered, eventCategory := .semanticJudgment }

def sampleVerdict : EventIntent :=
  { sampleIntent with
    eventType := .auditVerdictReceived, eventCategory := .semanticJudgment
    payload := ⟨[("after_state", .obj [("verdict", .str "pass")])], by decide⟩ }

/-- An audit passes while the second process, whose own attempt dies, scans: its re-read finds the
outcome of the first envelope, and it rejects its own as abandoned. -/
def timelyAudit : List Action :=
  [.submit sampleEnvelope (sampleDraw 0) [sampleRecord] sampleIds true,
    .check 0 {} (some (sampleTrigger, [], "scope")), .write 0 (fun n => sampleDraw (n + 1)),
    .submit sampleEnvelope (sampleDraw 2) [] sampleIds false, .scanAbandoned, .snapshot 2,
    .audit sampleVerdict (sampleDraw 3), .continueAttempt 0 "evt-gxxx", .recheck 3 none,
    .write 3 (fun n => sampleDraw (n + 4)), .reread 2 true sampleIds, .crash 1,
    .reread 2 true sampleIds, .write 2 (fun n => sampleDraw (n + 8))]

/-- The audit outlasts the lock timeout: a scan rejects the envelope as abandoned, then the audit
passes and the attempt is continued. -/
def slowAudit : List Action :=
  [.submit sampleEnvelope (sampleDraw 0) [] sampleIds true,
    .check 0 {} (some (sampleTrigger, [], "scope")), .write 0 (fun n => sampleDraw (n + 1)),
    .scanAbandoned, .snapshot 1, .reread 1 true sampleIds,
    .write 1 (fun n => sampleDraw (n + 2)), .audit sampleVerdict (sampleDraw 4),
    .continueAttempt 0 "evt-gxxxx", .recheck 2 none, .write 2 (fun n => sampleDraw (n + 5))]

instance (state : GateState) (envelopeId : String) : Decidable (state.Free envelopeId) :=
  inferInstanceAs (Decidable (_ ∧ _))

/-- `Unshared` by cases on the audit or the envelope that the action takes. -/
def takesFree (state : GateState) : Action → Bool
  | .submit _ _ domain _ _ => domain.all (!·.isSentinel)
  | .continueAttempt pending _ => state.pending[pending]?.all fun audit =>
      decide (state.Free audit.job.envelope.eventId.val)
  | .reread call _ _ => state.calls[call]?.all fun stage => match stage with
      | .scanning (envelope :: _) _ => decide (envelope.eventId.val ∈ state.log.outcomes) ||
          decide (holders state.calls envelope.eventId.val = 0)
      | _ => true
  | _ => true

theorem unshared_of_takesFree (state : GateState) (action : Action)
    (h : takesFree state action = true) : Unshared state action := by
  cases action with
  | submit envelope draw domain ids auditBlocking => simpa [takesFree, Unshared] using h
  | continueAttempt pending auditVerdictEventId =>
    intro audit hget
    simpa [takesFree, hget] using h
  | reread call aged ids =>
    intro envelope rest snapshot hget _ hout
    simpa [takesFree, hget, hout] using h
  | _ => trivial

theorem timelyAudit_outcomes_once :
    ∃ state, Run (step sampleGateEnv) Unshared GateState.initial timelyAudit state ∧
      collectEnvelopeOutcomes state.log.records = ["evt-g", "evt-gxx"] ∧
      ∀ envelopeId, (collectEnvelopeOutcomes state.log.records).count envelopeId ≤ 1 := by
  have houtcomes : ((timelyAudit.foldlM (fun state action =>
      if takesFree state action then step sampleGateEnv state action else none)
        GateState.initial).map fun state => collectEnvelopeOutcomes state.log.records) =
          some ["evt-g", "evt-gxx"] := by decide +kernel
  obtain ⟨state, hstate, houtcomes⟩ := Option.map_eq_some_iff.mp houtcomes
  have hrun : Run (step sampleGateEnv) Unshared GateState.initial timelyAudit state :=
    Run.of_checked unshared_of_takesFree hstate
  exact ⟨state, hrun, houtcomes, one_outcome_per_envelope hrun⟩

/-- A slow audit and a scan give one envelope two outcomes. -/
theorem slowAudit_two_outcomes :
    ¬ ∀ (actions : List Action) (state : GateState),
      Run (step sampleGateEnv) (fun _ _ => True) GateState.initial actions state →
        ∀ envelopeId, (collectEnvelopeOutcomes state.log.records).count envelopeId ≤ 1 := by
  intro hclaim
  have hcount : ((slowAudit.foldlM (step sampleGateEnv) GateState.initial).map fun state =>
      (collectEnvelopeOutcomes state.log.records).count "evt-g") = some 2 := by decide +kernel
  obtain ⟨state, hstate, htwo⟩ := Option.map_eq_some_iff.mp hcount
  have hrun := Run.of_steps hstate
  have hone := hclaim slowAudit state hrun "evt-g"
  omega

end Flowness.CommitGate
