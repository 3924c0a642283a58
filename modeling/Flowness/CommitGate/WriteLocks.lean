import Flowness.CommitGate.Effects

/-!
On whose behalf write locks are released. The gate looks at locks in one check of the pipeline;
every attempt that gets past it, or past the others without it, releases by entity.
-/

namespace Flowness.CommitGate

open Option List Library Schemas Ledger Projection CommittedLog

inductive LockAction where
  | attempt (attempt : Attempt)
  /-- The attempt ends behind its envelope: the process dies, or an audit is awaited. -/
  | interrupted (attempt : Attempt)
  /-- `continue_attempt` behind a passed audit. -/
  | resume (attempt : Attempt) (envelopeEventId : String) (outcome : CheckOutcome)
    (auditChain : List AuditChainItem)
  /-- `scan_abandoned`, or a failed audit. -/
  | reject (envelopeEventId : String) (ids : AttemptIds) (draw : Nat → Draw)
    (rejection : Rejection)

section

variable (env : GateEnv)

def envelopeOf (log : CommittedLog) (envelopeEventId : String) : Option EventRecord :=
  (log.getEvent envelopeEventId).filter (·.eventType == .transactionEnvelopeSubmitted)

def resumeStep (log : CommittedLog) (attempt : Attempt) (envelope : EventRecord)
    (outcome : CheckOutcome) (auditChain : List AuditChainItem) : Option CommittedLog :=
  appendBatch env log (acceptedRecords env log attempt.ids attempt.draw envelope
    ((stampFrom env attempt.ids envelope.sequenceNumber 0 attempt.domain).map
      (backfilled envelope.eventId.val)) outcome auditChain)

def rejectStep (log : CommittedLog) (envelope : EventRecord) (ids : AttemptIds)
    (draw : Nat → Draw) (rejection : Rejection) : Option CommittedLog := do
  let records ← rejectedRecords env log ids draw envelope rejection
  appendBatch env log records

def interruptedStep (log : CommittedLog) (attempt : Attempt) : Option CommittedLog :=
  if attempt.envelope.eventType = .transactionEnvelopeSubmitted then do
    let (written, _) ← writeDirectTo env log attempt.envelope attempt.envelopeDraw
    emitTrigger env written attempt.trigger
  else none

def lockStep (log : CommittedLog) : LockAction → Option CommittedLog
  | .attempt attempt => (attemptCommit env log attempt).map Conclusion.log
  | .interrupted attempt => interruptedStep env log attempt
  | .resume attempt envelopeEventId outcome auditChain =>
    (envelopeOf log envelopeEventId).bind fun envelope =>
      resumeStep env log attempt envelope outcome auditChain
  | .reject envelopeEventId ids draw rejection =>
    (envelopeOf log envelopeEventId).bind fun envelope =>
      rejectStep env log envelope ids draw rejection

/-- The run an envelope is submitted by, as a `LockReleased` names it. -/
def runOf (payload : Payload) : String := env.str (payload.getD "run_id" (.str "unknown"))

def writeSetOf (payload : Payload) : List Entity :=
  entitiesOf (payload.getD "write_set" .null)

/-- An accepted commit of the run, or a `LockReleased` for an envelope of it. -/
inductive ReleasedBy (getEvent : String → Option EventRecord) (runId : String)
    (event : EventRecord) : Prop
  | accepted (htype : event.eventType = .commitAccepted) (envelope : EventRecord)
    (hnamed : (event.payload.getD "envelope_event_id" .null).text?.bind getEvent = some envelope)
    (hrun : runOf env envelope.payload = runId)
  | released (htype : event.eventType = .lockReleased)
    (hrun : Json.lookup event.payload.afterState "run_id" = .str runId)

/-- Whenever a lock of a run goes, it is released on behalf of that run. -/
def LocksKept (log : CommittedLog) : Prop :=
  ∀ front event rest, log.records = front ++ event :: rest → ∀ entity runId,
    lockHolder (ownership log.getEvent front) entity = some runId →
    lockHolder (ownership log.getEvent (front ++ [event])) entity ≠ some runId →
    ReleasedBy env log.getEvent runId event

variable {entity : Entity} {event : EventRecord}

theorem LocksKept.at_index {env : GateEnv} {log : CommittedLog} (h : LocksKept env log)
    (hget : log.records[position]? = some event) {runId : String}
    (hbefore : lockHolder (ownership log.getEvent (log.records.take position)) entity = some runId)
    (hafter : lockHolder (ownership log.getEvent (log.records.take (position + 1))) entity ≠ some
      runId) : ReleasedBy env log.getEvent runId event := by
  have hsplit : log.records = log.records.take position ++ event ::
      log.records.drop (position + 1) := by
    obtain ⟨hlt, rfl⟩ := List.getElem?_eq_some_iff.mp hget
    rw [← drop_eq_getElem_cons hlt, take_append_drop]
  refine h _ event _ hsplit entity runId hbefore ?_
  rwa [take_add_one, hget] at hafter

def FreeOrOwn (log : CommittedLog) (runId : String) (entity : Entity) : Prop :=
  ∀ holder, lockHolder (ownership log.getEvent log.records) entity = some holder → holder = runId

/-- The claims and the releases among the domain events are the run's own, and no other run holds
what they name beside the write set of the envelope. -/
structure OwnLockEvents (log : CommittedLog) (runId : String) (writeSet : List Entity)
    (domain : List EventIntent) : Prop where
  claims : ∀ intent ∈ domain, intent.eventType = .taskWriteSetClaimed →
    intent.provenanceHint.runId = some runId ∧
      ∀ entity ∈ entitiesOf (Json.lookup intent.payload.afterState "write_set"),
        entity ∈ writeSet ∨ FreeOrOwn log runId entity
  releases : ∀ intent ∈ domain, intent.eventType = .lockReleased →
    Json.lookup intent.payload.afterState "run_id" = .str runId ∧
      ∀ entity ∈ entitiesOf (Json.lookup intent.payload.afterState "entities"),
        entity ∈ writeSet ∨ FreeOrOwn log runId entity
  plain : ∀ intent ∈ domain, intent.eventType ≠ .commitAccepted

/-- The ownership check is reached, and reads the run and the write set of the stored envelope. -/
structure SeenByCheck (attempt : Attempt) : Prop where
  run : attempt.payload.getD "run_id" .null = .str (runOf env attempt.envelope.payload)
  named : runOf env attempt.envelope.payload ≠ ""
  writeSet : ∀ entity ∈ writeSetOf attempt.envelope.payload,
    entity ∈ writeSetOf attempt.payload
  reached : attempt.checks.integrity = none ∧
    checkObligationCaptureProvenance attempt.intents = none ∧ attempt.checks.births = none ∧
    attempt.checks.versions = none

def RespectsLocks (log : CommittedLog) : LockAction → Prop
  | .attempt attempt =>
    let runId := runOf env attempt.envelope.payload
    OwnLockEvents log runId (writeSetOf attempt.envelope.payload) attempt.intents ∧
      ((∀ entity ∈ writeSetOf attempt.envelope.payload, FreeOrOwn log runId entity) ∨
        SeenByCheck env attempt)
  | .interrupted _ => True
  | .resume attempt envelopeEventId .. => ∀ envelope, envelopeOf log envelopeEventId = some envelope →
    OwnLockEvents log (runOf env envelope.payload) (writeSetOf envelope.payload) attempt.intents ∧
      ∀ entity ∈ writeSetOf envelope.payload, FreeOrOwn log (runOf env envelope.payload) entity
  | .reject envelopeEventId _ _ rejection => rejection.releasesLock = true →
    ∀ envelope, envelopeOf log envelopeEventId = some envelope →
      ∀ entity ∈ writeSetOf envelope.payload, FreeOrOwn log (runOf env envelope.payload) entity

variable {env}

/-- What an event of a run may do: touch entities of `mine` only, claim for the run, release on
its behalf. -/
structure ActsFor (env : GateEnv) (getEvent : String → Option EventRecord) (runId : String)
    (mine : Entity → Prop) (event : EventRecord) : Prop where
  touches : ∀ entity ∈ touchedEntities getEvent event, mine entity
  claims : event.eventType = .taskWriteSetClaimed → event.provenance.runId = some runId
  releases : event.eventType ≠ .taskWriteSetClaimed → touchedEntities getEvent event ≠ [] →
    ReleasedBy env getEvent runId event

/-- The locks of `mine` are the run's or nobody's. -/
def HeldBy (runId : String) (mine : Entity → Prop) (nodes : List OwnershipNode) : Prop :=
  ∀ entity, mine entity → ∀ holder, lockHolder nodes entity = some holder → holder = runId

section

variable {getEvent : String → Option EventRecord} {runId : String} {mine : Entity → Prop}
  {nodes : List OwnershipNode} {event : EventRecord}

theorem HeldBy.reduceOwnership (h : HeldBy runId mine nodes)
    (hacts : ActsFor env getEvent runId mine event) :
    HeldBy runId mine (reduceOwnership getEvent nodes event) := by
  intro entity hmine holder hholder
  by_cases htouched : entity ∈ touchedEntities getEvent event
  · by_cases hclaim : event.eventType = .taskWriteSetClaimed
    · rw [lockHolder_claimed getEvent nodes hclaim htouched, hacts.claims hclaim,
        filter_eq_some_iff] at hholder
      exact (some.inj hholder.1).symm
    · rw [lockHolder_released getEvent nodes hclaim htouched] at hholder
      cases hholder
  · rw [lockHolder_reduceOwnership getEvent nodes htouched] at hholder
    exact h entity hmine holder hholder

theorem HeldBy.foldl {events : List EventRecord} (h : HeldBy runId mine nodes)
    (hacts : ∀ event ∈ events, ActsFor env getEvent runId mine event) :
    HeldBy runId mine (events.foldl (Projection.reduceOwnership getEvent) nodes) := by
  induction events generalizing nodes with
  | nil => exact h
  | cons event events ih =>
    exact ih (h.reduceOwnership (hacts event mem_cons_self))
      fun other hother => hacts other (mem_cons_of_mem _ hother)

theorem HeldBy.releasedBy (h : HeldBy runId mine nodes)
    (hacts : ActsFor env getEvent runId mine event)
    (hbefore : lockHolder nodes entity = some holder)
    (hafter : lockHolder (Projection.reduceOwnership getEvent nodes event) entity ≠ some holder) :
    ReleasedBy env getEvent holder event := by
  have htouched : entity ∈ touchedEntities getEvent event := by
    by_contra hne
    rw [lockHolder_reduceOwnership getEvent nodes hne] at hafter
    exact hafter hbefore
  have hrun : holder = runId := h entity (hacts.touches entity htouched) holder hbefore
  subst hrun
  refine hacts.releases (fun hclaim => hafter ?_) (ne_nil_of_mem htouched)
  -- a claim leaves the lock with the run that claims
  rw [lockHolder_claimed getEvent nodes hclaim htouched, hacts.claims hclaim]
  simp [lockHolder_ne_empty hbefore]

end

def EnvelopesNamed (log : CommittedLog) : Prop :=
  ∀ record ∈ log.records, record.eventType = .commitAccepted →
    ∃ envelope, (record.payload.getD "envelope_event_id" .null).text?.bind log.getEvent =
      some envelope

section

variable {log next : CommittedLog} {added : List EventRecord} {runId : String}

theorem named_mono (hrecords : next.records = log.records ++ added) {name : Option String}
    {envelope : EventRecord} (h : name.bind log.getEvent = some envelope) :
    name.bind next.getEvent = some envelope := by
  obtain ⟨eventId, hname, hget⟩ := bind_eq_some_iff.mp h
  exact bind_eq_some_iff.mpr
    ⟨eventId, hname, getEvent_of_records_append hrecords hget⟩

theorem ReleasedBy.mono (hrecords : next.records = log.records ++ added)
    (h : ReleasedBy env log.getEvent runId event) : ReleasedBy env next.getEvent runId event := by
  cases h with
  | accepted htype envelope hnamed hrun =>
    exact .accepted htype envelope (named_mono hrecords hnamed) hrun
  | released htype hrun => exact .released htype hrun

theorem ownership_of_longer (hnamed : EnvelopesNamed log)
    (hrecords : next.records = log.records ++ added)
    (hfront : ∀ record ∈ front, record ∈ log.records) :
    ownership next.getEvent front = ownership log.getEvent front := by
  induction front using List.reverseRecOn with
  | nil => rfl
  | append_singleton front event ih =>
    rw [ownership_append, ownership_append,
      ih fun record hrecord => hfront record (mem_append_left _ hrecord)]
    refine reduceOwnership_congr (fun htype => ?_) _
    obtain ⟨envelope, henvelope⟩ := hnamed event (hfront event (by simp)) htype
    rw [committedWriteSet, committedWriteSet, henvelope, named_mono hrecords henvelope]

theorem split_append (h : old ++ new = front ++ event :: rest) :
    (∃ tail, old = front ++ event :: tail) ∨
      ∃ between, front = old ++ between ∧ new = between ++ event :: rest := by
  rcases append_eq_append_iff.mp h with ⟨between, hfront, hnew⟩ | ⟨tail, hold, hnew⟩
  · exact .inr ⟨between, hfront, hnew⟩
  · cases tail with
    | nil => exact .inr ⟨[], by simpa using hold.symm, hnew.symm⟩
    | cons first tail =>
      obtain ⟨rfl, -⟩ := cons_eq_cons.mp hnew
      exact .inl ⟨tail, hold⟩

theorem LocksKept.append (h : LocksKept env log) (hnamed : EnvelopesNamed log)
    (hrecords : next.records = log.records ++ added)
    (hacts : ∀ record ∈ added, ActsFor env next.getEvent runId (FreeOrOwn log runId) record) :
    LocksKept env next := by
  intro front event rest hsplit entity holder hbefore hafter
  rw [hrecords] at hsplit
  rcases split_append hsplit with ⟨tail, hold⟩ | ⟨between, rfl, hadded⟩
  · -- the event was in the log before
    have hmem : ∀ record ∈ front ++ [event], record ∈ log.records := by
      intro record hrecord
      rw [hold]
      rcases mem_append.mp hrecord with hrecord | hrecord
      · exact mem_append_left _ hrecord
      · rw [mem_singleton.mp hrecord]
        simp
    rw [ownership_of_longer hnamed hrecords
      fun record hrecord => hmem record (mem_append_left _ hrecord)] at hbefore
    rw [ownership_of_longer hnamed hrecords hmem] at hafter
    exact (h front event tail hold entity holder hbefore hafter).mono hrecords
  · -- the event is one of the new ones
    have hheld : HeldBy runId (FreeOrOwn log runId) (ownership next.getEvent log.records) := by
      intro entity hmine holder hholder
      rw [ownership_of_longer hnamed hrecords fun _ hmem => hmem] at hholder
      exact hmine holder hholder
    have hbetween : HeldBy runId (FreeOrOwn log runId)
        (between.foldl (reduceOwnership next.getEvent) (ownership next.getEvent log.records)) :=
      hheld.foldl fun record hrecord => hacts record (hadded ▸ mem_append_left _ hrecord)
    rw [ownership, foldl_append] at hbefore
    rw [ownership_append, ownership, foldl_append] at hafter
    exact hbetween.releasedBy (hacts event (by rw [hadded]; simp)) hbefore hafter

end

section

variable {getEvent : String → Option EventRecord} {runId : String} {mine : Entity → Prop}
  {event : EventRecord}

theorem actsFor_other (hclaim : event.eventType ≠ .taskWriteSetClaimed)
    (haccepted : event.eventType ≠ .commitAccepted) (hreleased : event.eventType ≠ .lockReleased) :
    ActsFor env getEvent runId mine event := by
  have htouched : touchedEntities getEvent event = [] := by
    unfold touchedEntities
    split
    next htype =>
      exact absurd htype hclaim
    next htype =>
      exact absurd htype haccepted
    next htype =>
      exact absurd htype hreleased
    · rfl
  exact ⟨by simp [htouched], fun h => absurd h hclaim, fun _ h => absurd htouched h⟩

theorem actsFor_audit (h : event.eventType ∈ auditProducerOnlyTypes) :
    ActsFor env getEvent runId mine event := by
  refine actsFor_other ?_ ?_ ?_ <;>
  · intro heq
    rw [heq] at h
    exact absurd h (by decide)

end

section

variable {log next : CommittedLog} {attempt : Attempt} {envelope record : EventRecord}
  {runId : String}

theorem actsFor_domain (hown : OwnLockEvents log runId writeSet attempt.intents)
    (hset : ∀ entity ∈ writeSet, FreeOrOwn log runId entity)
    (hintent : intent ∈ attempt.intents) (hrecord : DomainRecord attempt intent record) :
    ActsFor env next.getEvent runId (FreeOrOwn log runId) record := by
  have hafter : ∀ key, key ≠ "sibling_event_id" → key ≠ "envelope_event_id" →
      Json.lookup record.payload.afterState key = Json.lookup intent.payload.afterState key :=
    fun _ => hrecord.payload.lookup_after
  by_cases hclaim : record.eventType = .taskWriteSetClaimed
  · obtain ⟨hrun, hfree⟩ := hown.claims intent hintent (hrecord.eventType ▸ hclaim)
    refine ⟨fun entity hentity => (hfree entity ?_).elim (hset entity) id, fun _ => hrecord.runId.trans hrun,
      fun h => absurd hclaim h⟩
    rw [touchedEntities, hclaim] at hentity
    rwa [← hafter _ (by decide) (by decide)]
  by_cases hreleased : record.eventType = .lockReleased
  · obtain ⟨hrun, hfree⟩ := hown.releases intent hintent (hrecord.eventType ▸ hreleased)
    refine ⟨fun entity hentity => (hfree entity ?_).elim (hset entity) id, fun h => absurd h hclaim,
      fun _ _ => .released hreleased ?_⟩
    · rw [touchedEntities, hreleased] at hentity
      rwa [← hafter _ (by decide) (by decide)]
    · rw [hafter _ (by decide) (by decide), hrun]
  · refine actsFor_other hclaim (fun haccepted => ?_) hreleased
    exact hown.plain intent hintent (hrecord.eventType ▸ haccepted)

theorem named_of_accepted (hmem : envelope ∈ next.records)
    (hpayload : record.payload.get "envelope_event_id" = some (.str envelope.eventId.val)) :
    (record.payload.getD "envelope_event_id" .null).text?.bind next.getEvent = some envelope := by
  rw [Payload.getD, hpayload]
  exact getEvent_of_mem hmem

theorem actsFor_accepted (hmem : envelope ∈ next.records)
    (htype : envelope.eventType = .transactionEnvelopeSubmitted)
    (hrun : runOf env envelope.payload = runId)
    (hown : OwnLockEvents log runId (writeSetOf envelope.payload) attempt.intents)
    (hset : ∀ entity ∈ writeSetOf envelope.payload, FreeOrOwn log runId entity)
    (h : AcceptedRecord attempt envelope record) :
    ActsFor env next.getEvent runId (FreeOrOwn log runId) record := by
  cases h with
  | envelope hsame =>
    refine actsFor_other ?_ ?_ ?_ <;>
      simp [hsame.eventType, htype]
  | audit haudit => exact actsFor_audit haudit
  | domain intent hintent hrecord => exact actsFor_domain hown hset hintent hrecord
  | checked hchecked => refine actsFor_other ?_ ?_ ?_ <;> simp [hchecked]
  | accepted haccepted hpayload =>
    have hnamed := named_of_accepted hmem hpayload
    refine ⟨fun entity hentity => hset entity ?_, fun h => absurd h (by simp [haccepted]),
      fun _ _ => .accepted haccepted envelope hnamed hrun⟩
    rw [touchedEntities, haccepted] at hentity
    rwa [committedWriteSet, hnamed] at hentity

theorem actsFor_rejected (htype : envelope.eventType = .transactionEnvelopeSubmitted)
    (hrun : runOf env envelope.payload = runId)
    (hset : releasesLock = true → ∀ entity ∈ writeSetOf envelope.payload,
      FreeOrOwn log runId entity)
    (h : RejectedRecord env releasesLock releaseReason envelope record) :
    ActsFor env next.getEvent runId (FreeOrOwn log runId) record := by
  cases h with
  | envelope hsame =>
    refine actsFor_other ?_ ?_ ?_ <;>
      simp [hsame.eventType, htype]
  | audit haudit => exact actsFor_audit haudit
  | drift hdrift => refine actsFor_other ?_ ?_ ?_ <;> simp [hdrift]
  | violated hviolated => refine actsFor_other ?_ ?_ ?_ <;> simp [hviolated]
  | rejected hrejected => refine actsFor_other ?_ ?_ ?_ <;> simp [hrejected]
  | released hreleases hreleased hpayload =>
    have hentities : entitiesOf (Json.lookup record.payload.afterState "entities") =
        writeSetOf envelope.payload := by
      rw [hpayload]
      change entitiesOf (envelope.payload.getD "write_set" (.arr [])) = _
      unfold writeSetOf Payload.getD
      cases envelope.payload.get "write_set" <;> rfl
    refine ⟨fun entity hentity => hset hreleases entity ?_,
      fun h => absurd h (by simp [hreleased]), fun _ _ => .released hreleased ?_⟩
    · rw [touchedEntities, hreleased] at hentity
      exact hentities ▸ hentity
    · rw [hpayload, ← hrun]
      rfl

theorem ownershipRejection_some {failure : Failure}
    (h : ownershipRejection env log payload = some failure) :
    failure.val.rejectionType = some .writeConflict ∧
      failure.val.failureReason = some "write_conflict" := by
  unfold ownershipRejection at h
  dsimp only at h
  split at h
  all_goals
    split at h
    · cases h
    next hfailed =>
      cases h
      exact ⟨rfl, failureReason_of_conflict (by simpa using hfailed)⟩

theorem freeOrOwn_of_ownershipRejection (h : ownershipRejection env log payload = none)
    (hrun : payload.getD "run_id" .null = .str runId) (hne : runId ≠ "") :
    ∀ entity ∈ writeSetOf payload, FreeOrOwn log runId entity := by
  intro entity hentity holder hholder
  have hitems : entitiesOf (.arr (payload.getD "write_set" (.arr [])).asItems) =
      writeSetOf payload := by
    unfold writeSetOf Payload.getD
    cases payload.get "write_set" <;> rfl
  have hset : (payload.getD "write_set" (.arr [])).asItems ≠ [] := by
    intro hempty
    rw [← hitems, hempty] at hentity
    cases hentity
  have hread : ((some runId).isSome && some runId ≠ some "" &&
      (payload.getD "write_set" (.arr [])).asItems ≠ []) = true := by simp [hne, hset]
  have htext : (payload.getD "run_id" .null).text? = some runId := by rw [hrun, Json.text?]
  unfold ownershipRejection at h
  simp only [htext, if_pos hread] at h
  split at h
  next hpassed =>
    exact lockHolder_of_passed (distinct_ownership _ _) hne hpassed (hitems ▸ hentity) hholder
  · cases h

theorem freeOrOwn_of_reason {rejection : Rejection} (hreason : Reason env attempt log rejection)
    (hseen : SeenByCheck env attempt) (hreleases : rejection.releasesLock = true) :
    ownershipRejection env log attempt.payload = none := by
  obtain ⟨hintegrity, hprovenance, hbirths, hversions⟩ := hseen.reached
  cases hcheck : ownershipRejection env log attempt.payload with
  | none => rfl
  | some failure =>
    obtain ⟨htype, hwhy⟩ := ownershipRejection_some hcheck
    have houtcome : runChecks env attempt.checks log attempt.intents attempt.payload =
        failure.val := by
      simp [runChecks, verdicts, hintegrity, hprovenance, hbirths, hversions, hcheck]
    cases hreason with
    | failed hfailed =>
      rw [houtcome, htype] at hfailed
      cases hfailed
      simp [Rejection.releasesLock, outcomeRejection, houtcome, hwhy] at hreleases
    | drifted drift => simp [Rejection.releasesLock, toctouRejection] at hreleases

theorem freeOrOwn_of_written (hnamed : EnvelopesNamed log)
    (hrecords : written.records = log.records ++ [envelope])
    (htype : envelope.eventType = .transactionEnvelopeSubmitted)
    (h : FreeOrOwn written runId entity) : FreeOrOwn log runId entity := by
  intro holder hholder
  refine h holder ?_
  have huntouched : entity ∉ touchedEntities written.getEvent envelope := by
    rw [touchedEntities, htype]
    exact not_mem_nil
  rw [hrecords, ownership_append, lockHolder_reduceOwnership _ _ huntouched,
    ownership_of_longer hnamed hrecords fun _ hmem => hmem, hholder]

structure LocksSound (env : GateEnv) (log : CommittedLog) : Prop where
  kept : LocksKept env log
  named : EnvelopesNamed log

theorem locksSound_empty : LocksSound env CommittedLog.empty where
  kept := by
    intro front event rest hsplit
    have hlength := congrArg List.length hsplit
    simp [CommittedLog.empty] at hlength
  named := fun _ hrecord => absurd hrecord not_mem_nil

variable {added : List EventRecord}

section

variable (h : LocksSound env log) (hrecords : next.records = log.records ++ added)
include h hrecords

theorem LocksSound.append
    (hacts : ∀ record ∈ added, ActsFor env next.getEvent runId (FreeOrOwn log runId) record)
    (hnamed : ∀ record ∈ added, record.eventType = .commitAccepted → ∃ envelope,
      (record.payload.getD "envelope_event_id" .null).text?.bind next.getEvent = some envelope) :
    LocksSound env next where
  kept := h.kept.append h.named hrecords hacts
  named := by
    intro record hrecord htype
    rw [hrecords, mem_append] at hrecord
    rcases hrecord with hold | hnew
    · obtain ⟨envelope, henvelope⟩ := h.named record hold htype
      exact ⟨envelope, named_mono hrecords henvelope⟩
    · exact hnamed record hnew htype

theorem LocksSound.accepted (hmem : envelope ∈ next.records)
    (htype : envelope.eventType = .transactionEnvelopeSubmitted)
    (hown : OwnLockEvents log (runOf env envelope.payload) (writeSetOf envelope.payload)
      attempt.intents)
    (hset : ∀ entity ∈ writeSetOf envelope.payload, FreeOrOwn log (runOf env envelope.payload) entity)
    (horigin : ∀ record ∈ added, AcceptedRecord attempt envelope record) : LocksSound env next := by
  refine h.append hrecords (fun record hrecord =>
    actsFor_accepted hmem htype rfl hown hset (horigin record hrecord)) ?_
  intro record hrecord haccepted
  cases horigin record hrecord with
  | envelope hsame => simp [hsame.eventType, htype] at haccepted
  | audit haudit =>
    rw [haccepted] at haudit
    exact absurd haudit (by decide)
  | domain intent hintent hdomain =>
    exact absurd (hdomain.eventType ▸ haccepted) (hown.plain intent hintent)
  | checked hchecked => simp [hchecked] at haccepted
  | accepted _ hpayload => exact ⟨envelope, named_of_accepted hmem hpayload⟩

theorem LocksSound.rejected (htype : envelope.eventType = .transactionEnvelopeSubmitted)
    (releasesLock : Bool) (releaseReason : String)
    (hset : releasesLock = true → ∀ entity ∈ writeSetOf envelope.payload,
      FreeOrOwn log (runOf env envelope.payload) entity)
    (horigin : ∀ record ∈ added, RejectedRecord env releasesLock releaseReason envelope record) :
    LocksSound env next := by
  refine h.append hrecords (fun record hrecord =>
    actsFor_rejected htype rfl hset (horigin record hrecord)) ?_
  intro record hrecord haccepted
  cases horigin record hrecord with
  | envelope hsame => simp [hsame.eventType, htype] at haccepted
  | audit haudit =>
    rw [haccepted] at haudit
    exact absurd haudit (by decide)
  | drift hdrift => simp [hdrift] at haccepted
  | released _ hreleased => simp [hreleased] at haccepted
  | violated hviolated => simp [hviolated] at haccepted
  | rejected hrejected => simp [hrejected] at haccepted

end

theorem LocksSound.attempted (h : LocksSound env log)
    (hguard : RespectsLocks env log (.attempt attempt))
    (hattempt : attemptCommit env log attempt = some conclusion) :
    LocksSound env conclusion.log := by
  obtain ⟨hown, hset⟩ := hguard
  rcases attemptCommit_cases hattempt with ⟨-, written, triggered, haccepted⟩ |
    ⟨-, written, triggered, drift, rejection, hrejected⟩
  · obtain ⟨added, hadded⟩ := haccepted.added
    obtain ⟨-, hpayload, hwritten⟩ := added_writeDirectTo haccepted.wrote
    rw [← hpayload] at hown hset
    refine h.accepted hadded.records ?_ haccepted.eventType_envelope hown ?_ hadded.origin
    · rw [hadded.records]
      exact mem_append_right _ hadded.envelope
    · rcases hset with hfree | hseen
      · exact hfree
      · have hcheck : ownershipRejection env written attempt.payload = none :=
          runChecks_passed haccepted.passed (by simp [verdicts])
        intro entity hentity
        rw [hpayload] at hentity ⊢
        exact freeOrOwn_of_written h.named hwritten haccepted.eventType_envelope
          (freeOrOwn_of_ownershipRejection hcheck hseen.run hseen.named entity
            (hseen.writeSet entity hentity))
  · obtain ⟨added, hrecords, horigin⟩ := hrejected.added
    obtain ⟨-, hpayload, hwritten⟩ := added_writeDirectTo hrejected.wrote
    refine h.rejected hrecords hrejected.eventType_envelope _ _ (fun hreleases => ?_) horigin
    rw [← hpayload] at hset
    rcases hset with hfree | hseen
    · exact hfree
    · have hcheck := freeOrOwn_of_reason hrejected.reason hseen hreleases
      intro entity hentity
      rw [hpayload] at hentity ⊢
      exact freeOrOwn_of_written h.named hwritten hrejected.eventType_envelope
        (freeOrOwn_of_ownershipRejection hcheck hseen.run hseen.named entity
          (hseen.writeSet entity hentity))

theorem envelopeOf_some (h : envelopeOf log envelopeEventId = some envelope) :
    envelope ∈ log.records ∧ envelope.eventType = .transactionEnvelopeSubmitted := by
  obtain ⟨hget, htype⟩ := filter_eq_some_iff.mp h
  exact ⟨(getEvent_some hget).1, eq_of_beq htype⟩

theorem LocksSound.step (h : LocksSound env log) (hguard : RespectsLocks env log action)
    (hstep : lockStep env log action = some next) : LocksSound env next := by
  cases action with
  | attempt attempt =>
    obtain ⟨conclusion, hattempt, rfl⟩ := map_eq_some_iff.mp hstep
    exact h.attempted hguard hattempt
  | interrupted attempt =>
    simp only [lockStep, interruptedStep] at hstep
    split at hstep
    next htype =>
      obtain ⟨⟨written, envelope⟩, hwrote, hstep⟩ := bind_eq_some_iff.mp hstep
      obtain ⟨henvelope, -, hwritten⟩ := added_writeDirectTo hwrote
      obtain ⟨added, hadded, haudit⟩ := added_emitTrigger hstep
      have hrecords : next.records = log.records ++ ([envelope] ++ added) := by
        rw [hadded, hwritten, append_assoc]
      refine h.rejected hrecords (henvelope.trans htype) false "" (fun hfalse => by cases hfalse)
        fun record hrecord => ?_
      rcases mem_append.mp hrecord with hrecord | hrecord
      · exact .envelope (mem_singleton.mp hrecord ▸ SameEvent.refl record)
      · exact .audit (haudit record hrecord)
    · cases hstep
  | resume attempt envelopeEventId outcome auditChain =>
    obtain ⟨envelope, henvelope, hstep⟩ := bind_eq_some_iff.mp hstep
    obtain ⟨hown, hset⟩ := hguard envelope henvelope
    obtain ⟨hmem, htype⟩ := envelopeOf_some henvelope
    have hrecords := records_appendBatch hstep
    refine h.accepted hrecords ?_ htype hown hset fun record hrecord => ?_
    · rw [hrecords]
      exact mem_append_left _ hmem
    · obtain ⟨old, hold, hsame⟩ := exists_of_mem_reseqFrom hrecord
      exact (acceptedRecord_of_mem (fun _ h => exists_of_mem_domainRecords h) hold).of_sameEvent
        hsame
  | reject envelopeEventId ids draw rejection =>
    obtain ⟨envelope, henvelope, hstep⟩ := bind_eq_some_iff.mp hstep
    obtain ⟨records, hrejected, hstep⟩ := bind_eq_some_iff.mp hstep
    obtain ⟨-, htype⟩ := envelopeOf_some henvelope
    refine h.rejected (records_appendBatch hstep) htype rejection.releasesLock
      rejection.releaseReason (fun hreleases => hguard hreleases envelope henvelope)
      fun record hrecord => ?_
    obtain ⟨old, hold, hsame⟩ := exists_of_mem_reseqFrom hrecord
    exact (rejectedRecord_of_mem hrejected hold).of_sameEvent hsame

/-- A write lock is released on behalf of its holder only, in every run that respects locks. -/
theorem locks_released_by_holder {actions : List LockAction}
    (hrun : Run (lockStep env) (RespectsLocks env) CommittedLog.empty actions log) :
    LocksKept env log :=
  (hrun.invariant locksSound_empty
    fun _ _ _ hsound hguard hnext => hsound.step hguard hnext).kept

end

end

def lockedEntity : Dict String Json :=
  [("entity_type", .str "code"), ("entity_id", .str "main.py")]

def claimBy (runId : String) : EventIntent :=
  { sampleIntent with
    eventType := .taskWriteSetClaimed, eventCategory := .stateTransition
    provenanceHint := { sampleIntent.provenanceHint with runId }
    payload := ⟨[("after_state", .obj [("task_id", .str "t-1"),
      ("write_set", .arr [.obj lockedEntity])])], by decide⟩ }

/-- Run `r-1` claims the entity in a commit that writes something else. -/
def claimingAttempt : Attempt :=
  sampleAttempt 0 ⟨[("run_id", .str "r-1"), ("task_id", .str "t-1")], by decide⟩ [claimBy "r-1"]

/-- Run `r-2` writes the entity that `r-1` holds. -/
def competingAttempt (domain : List EventIntent) : Attempt :=
  sampleAttempt 4 ⟨[("run_id", .str "r-2"), ("task_id", .str "t-2"),
    ("write_set", .arr [.obj lockedEntity])], by decide⟩ domain

def untriggeredCapture : EventIntent :=
  { sampleIntent with
    eventType := .obligationCaptured, eventCategory := .obligation
    payload := ⟨[("obligation_id", .str "o-1")], by decide⟩ }

/-- Run `r-2` claims it as well, and the ownership check rejects the attempt. -/
def competingClaims : List LockAction :=
  [.attempt claimingAttempt, .attempt (competingAttempt [claimBy "r-2"])]

theorem competingAttempt_keeps_locks :
    ∃ log, Run (lockStep sampleGateEnv) (RespectsLocks sampleGateEnv) CommittedLog.empty
      competingClaims log ∧ LocksKept sampleGateEnv log := by
  have hsome : (competingClaims.foldlM (lockStep sampleGateEnv) CommittedLog.empty).isSome =
      true := by decide +kernel
  obtain ⟨log, hlog⟩ := Option.isSome_iff_exists.mp hsome
  rw [competingClaims, foldlM_cons] at hlog
  obtain ⟨first, hfirst, hlog⟩ := Option.bind_eq_some_iff.mp hlog
  have hclaim : RespectsLocks sampleGateEnv CommittedLog.empty (.attempt claimingAttempt) := by
    refine ⟨⟨fun intent hintent _ => ?_, fun intent hintent htype => ?_, fun intent hintent htype => ?_⟩,
      Or.inl fun entity hentity => ?_⟩
    all_goals try
      rw [mem_singleton.mp (hintent : intent ∈ [_])] at *
    · exact ⟨rfl, fun entity _ => .inr fun holder hholder => by cases hholder⟩
    · cases htype
    · cases htype
    · cases hentity
  have hcompete : ∀ state,
      RespectsLocks sampleGateEnv state (.attempt (competingAttempt [claimBy "r-2"])) := by
    intro state
    refine ⟨⟨fun intent hintent _ => ?_, fun intent hintent htype => ?_,
      fun intent hintent htype => ?_⟩,
      Or.inr ⟨rfl, by decide, fun entity hentity => hentity, rfl, rfl, rfl, rfl⟩⟩
    all_goals rw [mem_singleton.mp (hintent : intent ∈ [_])] at *
    · exact ⟨rfl, fun entity hentity => .inl hentity⟩
    · cases htype
    · cases htype
  have hrun : Run (lockStep sampleGateEnv) (RespectsLocks sampleGateEnv) CommittedLog.empty
      competingClaims log := by
    refine Run.cons hclaim hfirst (Run.of_foldlM (fun action hmem state => ?_) hlog)
    rw [mem_singleton.mp hmem]
    exact hcompete state
  exact ⟨log, hrun, locks_released_by_holder hrun⟩

/-- A rejection of `r-2` releases the lock of `r-1`. -/
theorem untriggeredCapture_releases_foreign_lock :
    ¬ ∀ (actions : List LockAction) (log : CommittedLog),
      Run (lockStep sampleGateEnv) (fun _ _ => True) CommittedLog.empty actions log →
        LocksKept sampleGateEnv log := by
  intro hclaim
  have hlost : (([LockAction.attempt claimingAttempt,
      .attempt (competingAttempt [untriggeredCapture])].foldlM (lockStep sampleGateEnv)
        CommittedLog.empty).map fun log => (log.records[4]?.map fun event => (event.eventType,
            Json.lookup event.payload.afterState "run_id"),
          lockHolder (ownership log.getEvent (log.records.take 4)) ("code", "main.py"),
          lockHolder (ownership log.getEvent (log.records.take 5)) ("code", "main.py"))) =
      some (some (.lockReleased, .str "r-2"), some "r-1", none) := by decide +kernel
  obtain ⟨log, hlog, hfacts⟩ := Option.map_eq_some_iff.mp hlost
  obtain ⟨hevent, hholders⟩ := Prod.mk.inj hfacts
  obtain ⟨hbefore, hafter⟩ := Prod.mk.inj hholders
  obtain ⟨event, hget, hevent⟩ := Option.map_eq_some_iff.mp hevent
  obtain ⟨htype, hrun⟩ := Prod.mk.inj hevent
  have hkept := hclaim _ log (Run.of_steps hlog)
  cases hkept.at_index hget hbefore (by rw [hafter]; simp) with
  | accepted haccepted => simp [htype] at haccepted
  | released _ hreleased => simp [hrun] at hreleased

end Flowness.CommitGate
