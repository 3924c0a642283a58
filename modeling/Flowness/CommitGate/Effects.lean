import Flowness.CommitGate.Attempt

/-!
What an attempt appends to the log, record by record: where each new record comes from and which
of its fields it shares with its source.
-/

namespace Flowness.CommitGate

open Option List Library Schemas Ledger

structure SameEvent (left right : EventRecord) : Prop where
  eventId : left.eventId = right.eventId
  eventType : left.eventType = right.eventType
  payload : left.payload = right.payload
  provenance : left.provenance = right.provenance
  batchId : left.batchId = right.batchId

theorem SameEvent.refl (record : EventRecord) : SameEvent record record := ⟨rfl, rfl, rfl, rfl, rfl⟩

theorem SameEvent.trans (h : SameEvent first second) (h' : SameEvent second third) :
    SameEvent first third :=
  ⟨h.eventId.trans h'.eventId, h.eventType.trans h'.eventType, h.payload.trans h'.payload,
    h.provenance.trans h'.provenance, h.batchId.trans h'.batchId⟩

theorem sameEvent_reseq (env : WriterEnv) (record : EventRecord) (newSeq : Nat) :
    SameEvent (reseq env record newSeq) record := by
  obtain ⟨recordHash, heq⟩ := reseq_eq env record newSeq
  rw [heq]
  exact ⟨rfl, rfl, rfl, rfl, rfl⟩

variable {event : EventIntent × Draw} {record : EventRecord} {records : List EventRecord}
  {key : String}

theorem exists_of_mem_reseqFrom {env : WriterEnv} (h : record ∈ reseqFrom env base records) :
    ∃ old ∈ records, SameEvent record old := by
  induction records generalizing base with
  | nil => cases h
  | cons first records ih =>
    rw [reseqFrom, mem_cons] at h
    rcases h with rfl | h
    · exact ⟨first, mem_cons_self, sameEvent_reseq env first base⟩
    · obtain ⟨old, hold, hsame⟩ := ih h
      exact ⟨old, mem_cons_of_mem _ hold, hsame⟩

theorem exists_mem_reseqFrom (env : WriterEnv) (base : Nat) (h : old ∈ records) :
    ∃ record ∈ reseqFrom env base records, SameEvent record old := by
  induction records generalizing base with
  | nil => cases h
  | cons first records ih =>
    rcases mem_cons.mp h with rfl | h
    · exact ⟨_, mem_cons_self, sameEvent_reseq env old base⟩
    · obtain ⟨record, hrecord, hsame⟩ := ih (base + 1) h
      exact ⟨record, mem_cons_of_mem _ hrecord, hsame⟩

theorem getLast?_reseqFrom (env : WriterEnv) (base : Nat) (h : records.getLast? = some old) :
    ∃ record, (reseqFrom env base records).getLast? = some record ∧ SameEvent record old := by
  induction records generalizing base with
  | nil => cases h
  | cons first records ih =>
    cases records with
    | nil =>
      cases h
      exact ⟨_, rfl, sameEvent_reseq env first base⟩
    | cons second records => exact ih (base + 1) (by simpa using h)

/-- The record an intent was stamped into, in the attempt's batch. -/
structure StampOf (ids : AttemptIds) (record : EventRecord) (event : EventIntent × Draw) : Prop where
  eventId : record.eventId = event.2.eventId
  eventType : record.eventType = event.1.eventType
  payload : record.payload = event.1.payload
  runId : record.provenance.runId = event.1.provenanceHint.runId
  batchId : record.batchId = some ids.batchId

theorem exists_of_mem_stampFrom {env : GateEnv}
    (h : record ∈ stampFrom env ids base position events) :
    ∃ event ∈ events, StampOf ids record event := by
  induction events generalizing position with
  | nil => cases h
  | cons event events ih =>
    rw [stampFrom, mem_cons] at h
    rcases h with rfl | h
    · exact ⟨event, mem_cons_self, rfl, rfl, rfl, rfl, rfl⟩
    · obtain ⟨event, hevent, hstamp⟩ := ih h
      exact ⟨event, mem_cons_of_mem _ hevent, hstamp⟩

theorem exists_mem_stampFrom (env : GateEnv) (ids : AttemptIds) (base position : Nat)
    (h : event ∈ events) :
    ∃ record ∈ stampFrom env ids base position events, StampOf ids record event := by
  induction events generalizing position with
  | nil => cases h
  | cons first events ih =>
    rcases mem_cons.mp h with rfl | h
    · exact ⟨_, mem_cons_self, rfl, rfl, rfl, rfl, rfl⟩
    · obtain ⟨record, hrecord, hstamp⟩ := ih (position + 1) h
      exact ⟨record, mem_cons_of_mem _ hrecord, hstamp⟩

/-- The members no backfill writes are the same in both payloads. -/
structure SameMembers (left right : Payload) : Prop where
  after : ∀ key, key ≠ "sibling_event_id" → key ≠ "envelope_event_id" →
    Dict.get left.afterState key = Dict.get right.afterState key
  empty : left.afterState = [] ↔ right.afterState = []
  top : ∀ key, key ≠ "after_state" → Dict.get left.entries key = Dict.get right.entries key

theorem sameMembers_backfillRef (hkey : key = "sibling_event_id" ∨ key = "envelope_event_id")
    (envelopeEventId : String) (payload : Payload) :
    SameMembers (backfillRef key envelopeEventId payload) payload := by
  have hrefl : SameMembers payload payload := ⟨fun _ _ _ => rfl, Iff.rfl, fun _ _ => rfl⟩
  unfold backfillRef
  split
  next after hafter =>
    split
    next hplaceholder =>
      have hold : payload.afterState = after := by
        simp [Payload.afterState, Payload.getD, hafter, Json.asDict]
      have hnew : ∀ hproper, Payload.afterState ⟨Dict.set payload.val "after_state"
          (.obj (Dict.set after key (.str envelopeEventId))), hproper⟩ =
            Dict.set after key (.str envelopeEventId) := by
        intro hproper
        simp [Payload.afterState, Payload.getD, Payload.get, Json.asDict]
      constructor
      · intro other hsibling henvelope
        rw [hnew, hold]
        refine Dict.get_set_of_ne after _ ?_
        rcases hkey with rfl | rfl
        · exact hsibling
        · exact henvelope
      · rw [hnew, hold]
        -- the placeholder was a member, so neither is empty
        have hset : Dict.set after key (.str envelopeEventId) ≠ [] := by
          intro hempty
          have hget := Dict.get_set_self after key (.str envelopeEventId)
          rw [hempty] at hget
          cases hget
        have hsome : after ≠ [] := by
          rintro rfl
          cases hplaceholder
        simp [hset, hsome]
      · intro other hother
        exact Dict.get_set_of_ne payload.val _ hother
    · exact hrefl
  · exact hrefl

section

variable (envelopeEventId : String) (record : EventRecord)

theorem sameMembers_backfilled :
    SameMembers (backfilled envelopeEventId record).payload record.payload := by
  have henvelope : SameMembers (backfilled envelopeEventId record).payload
      (backfillSemanticSiblingRef envelopeEventId record).payload :=
    sameMembers_backfillRef (.inr rfl) envelopeEventId _
  have hsibling : SameMembers (backfillSemanticSiblingRef envelopeEventId record).payload
      record.payload := by
    unfold backfillSemanticSiblingRef
    split
    · exact sameMembers_backfillRef (.inl rfl) envelopeEventId _
    · exact ⟨fun _ _ _ => rfl, Iff.rfl, fun _ _ => rfl⟩
  exact ⟨fun key h h' => (henvelope.after key h h').trans (hsibling.after key h h'),
    henvelope.empty.trans hsibling.empty,
    fun key h => (henvelope.top key h).trans (hsibling.top key h)⟩

theorem eventType_backfilled :
    (backfilled envelopeEventId record).eventType = record.eventType := by
  unfold backfilled backfillSemanticSiblingRef
  split <;> rfl

theorem batchId_backfilled : (backfilled envelopeEventId record).batchId = record.batchId := by
  unfold backfilled backfillSemanticSiblingRef
  split <;> rfl

end

section

variable {left right : Payload} (h : SameMembers left right)
include h

theorem SameMembers.lookup_after (hsibling : key ≠ "sibling_event_id")
    (henvelope : key ≠ "envelope_event_id") :
    Json.lookup left.afterState key = Json.lookup right.afterState key := by
  rw [Json.lookup, h.after key hsibling henvelope, Json.lookup]

theorem SameMembers.getD (hkey : key ≠ "after_state") (default : Json) :
    left.getD key default = right.getD key default := by
  unfold Payload.getD
  have hget : left.get key = right.get key := h.top key hkey
  rw [hget]

end

structure DomainRecord (attempt : Attempt) (intent : EventIntent) (record : EventRecord) :
    Prop where
  eventType : record.eventType = intent.eventType
  runId : record.provenance.runId = intent.provenanceHint.runId
  batchId : record.batchId = some attempt.ids.batchId
  payload : SameMembers record.payload intent.payload

inductive AcceptedRecord (attempt : Attempt) (envelope record : EventRecord) : Prop
  | envelope (hsame : SameEvent record envelope)
  | audit (htype : record.eventType ∈ auditProducerOnlyTypes)
  | domain (intent : EventIntent) (hintent : intent ∈ attempt.intents)
    (hrecord : DomainRecord attempt intent record)
  | checked (htype : record.eventType = .obligationChecked)
  | accepted (htype : record.eventType = .commitAccepted)
    (hpayload : record.payload.get "envelope_event_id" = some (.str envelope.eventId.val))

inductive RejectedRecord (env : GateEnv) (releasesLock : Bool) (releaseReason : String)
    (envelope record : EventRecord) : Prop
  | envelope (hsame : SameEvent record envelope)
  | audit (htype : record.eventType ∈ auditProducerOnlyTypes)
  | drift (htype : record.eventType = .driftDetected)
  | released (hreleases : releasesLock = true) (htype : record.eventType = .lockReleased)
    (hpayload : record.payload = lockReleasedPayload env envelope releaseReason)
  | violated (htype : record.eventType = .obligationViolated)
  | rejected (htype : record.eventType = .commitRejected)

section

variable {env : GateEnv}

variable {log next : CommittedLog} {draw : Draw} {intent : EventIntent} {envelope : EventRecord}
  {drift : Option DriftInfo} {rejection : Rejection}

theorem added_writeDirectTo (h : writeDirectTo env log intent draw = some (next, record)) :
    record.eventType = intent.eventType ∧ record.payload = intent.payload ∧
      next.records = log.records ++ [record] := by
  unfold writeDirectTo at h
  split at h
  · obtain ⟨written, hwritten, h⟩ := bind_eq_some_iff.mp h
    cases h
    exact ⟨rfl, rfl, CommittedLog.append_stamped rfl hwritten⟩
  · cases h

theorem added_emitTrigger (h : emitTrigger env log trigger = some next) :
    ∃ added, next.records = log.records ++ added ∧
      ∀ new ∈ added, new.eventType ∈ auditProducerOnlyTypes := by
  cases trigger with
  | none =>
    cases h
    exact ⟨[], (append_nil _).symm, fun _ hnew => absurd hnew not_mem_nil⟩
  | some trigger =>
    obtain ⟨⟨written, record⟩, hwrite, rfl⟩ := map_eq_some_iff.mp h
    unfold writeAuditEvent at hwrite
    split at hwrite
    next haudit =>
      obtain ⟨written, hwritten, hwrite⟩ := bind_eq_some_iff.mp hwrite
      cases hwrite
      refine ⟨_, CommittedLog.append_records hwritten, fun new hnew => ?_⟩
      obtain ⟨old, hold, hsame⟩ := exists_of_mem_reseqFrom hnew
      rw [mem_singleton.mp hold] at hsame
      rw [hsame.eventType]
      exact haudit
    · cases hwrite

theorem records_appendBatch (h : appendBatch env log records = some next) :
    next.records = log.records ++ reseqFrom env.toWriterEnv log.nextSequence records := by
  unfold appendBatch at h
  split at h
  · exact CommittedLog.append_records h
  · cases h

variable {log : CommittedLog} {attempt : Attempt} {conclusion : Conclusion}
  {written triggered : CommittedLog}

theorem runId_backfilled (envelopeEventId : String) (record : EventRecord) :
    (backfilled envelopeEventId record).provenance = record.provenance := by
  unfold backfilled backfillSemanticSiblingRef
  split <;> rfl

theorem domainRecord_backfilled (h : StampOf attempt.ids record event) (envelopeEventId : String) :
    DomainRecord attempt event.1 (backfilled envelopeEventId record) where
  eventType := (eventType_backfilled envelopeEventId record).trans h.eventType
  runId := by rw [runId_backfilled, h.runId]
  batchId := (batchId_backfilled envelopeEventId record).trans h.batchId
  payload := h.payload ▸ sameMembers_backfilled envelopeEventId record

theorem DomainRecord.of_sameEvent (h : DomainRecord attempt intent old)
    (hsame : SameEvent record old) : DomainRecord attempt intent record where
  eventType := hsame.eventType.trans h.eventType
  runId := by rw [hsame.provenance, h.runId]
  batchId := hsame.batchId.trans h.batchId
  payload := hsame.payload ▸ h.payload

theorem exists_of_mem_domainRecords {envelopeEventId : String}
    (h : record ∈ (stampFrom env attempt.ids base 0 attempt.domain).map (backfilled envelopeEventId)) :
    ∃ intent ∈ attempt.intents, DomainRecord attempt intent record := by
  obtain ⟨stamped, hstamped, rfl⟩ := mem_map.mp h
  obtain ⟨event, hevent, hstamp⟩ := exists_of_mem_stampFrom hstamped
  exact ⟨event.1, mem_map_of_mem hevent, domainRecord_backfilled hstamp _⟩

theorem exists_mem_domainRecords (env : GateEnv) (log : CommittedLog) (envelope : EventRecord)
    (h : intent ∈ attempt.intents) :
    ∃ record ∈ attempt.domainRecords env log envelope, DomainRecord attempt intent record := by
  obtain ⟨event, hevent, rfl⟩ := mem_map.mp h
  obtain ⟨stamped, hstamped, hstamp⟩ :=
    exists_mem_stampFrom env attempt.ids log.nextSequence 0 hevent
  exact ⟨_, mem_map_of_mem hstamped, domainRecord_backfilled hstamp _⟩

theorem AcceptedRecord.of_sameEvent (h : AcceptedRecord attempt envelope old)
    (hsame : SameEvent record old) : AcceptedRecord attempt envelope record := by
  cases h with
  | envelope h => exact .envelope (hsame.trans h)
  | audit htype => exact .audit (hsame.eventType ▸ htype)
  | domain intent hintent hrecord => exact .domain intent hintent (hrecord.of_sameEvent hsame)
  | checked htype => exact .checked (hsame.eventType.trans htype)
  | accepted htype hpayload =>
    exact .accepted (hsame.eventType.trans htype) (hsame.payload ▸ hpayload)

theorem acceptedRecord_of_mem
    (hdomain : ∀ record ∈ domain, ∃ intent ∈ attempt.intents, DomainRecord attempt intent record)
    (h : record ∈ acceptedRecords env log attempt.ids attempt.draw envelope domain outcome
      auditChain) : AcceptedRecord attempt envelope record := by
  unfold acceptedRecords at h
  simp only [mem_append] at h
  rcases h with (h | h) | h
  · obtain ⟨intent, hintent, hrecord⟩ := hdomain record h
    exact .domain intent hintent hrecord
  · obtain ⟨event, hevent, hstamp⟩ := exists_of_mem_stampFrom h
    obtain ⟨⟨intent, i⟩, hmem, rfl⟩ := mem_map.mp hevent
    obtain ⟨⟨⟨obligation, status⟩, j⟩, -, rfl⟩ := mem_map.mp (fst_mem_of_mem_zipIdx hmem)
    exact .checked hstamp.eventType
  · obtain ⟨event, hevent, hstamp⟩ := exists_of_mem_stampFrom h
    rw [mem_singleton] at hevent
    subst hevent
    exact .accepted hstamp.eventType (hstamp.payload ▸ rfl)

theorem getLast?_acceptedRecords (env : GateEnv) (log : CommittedLog) (ids : AttemptIds)
    (draw : Nat → Draw) (envelope : EventRecord) (domain : List EventRecord)
    (outcome : CheckOutcome) (auditChain : List AuditChainItem) :
    ∃ last, (acceptedRecords env log ids draw envelope domain outcome auditChain).getLast? =
      some last ∧ last.eventType = .commitAccepted ∧ last.batchId = some ids.batchId := by
  refine ⟨_, List.getLast?_concat, rfl, rfl⟩

structure AcceptedRecords (attempt : Attempt) (log : CommittedLog) (conclusion : Conclusion)
    (added : List EventRecord) : Prop where
  records : conclusion.log.records = log.records ++ added
  origin : ∀ record ∈ added, AcceptedRecord attempt conclusion.envelope record
  envelope : conclusion.envelope ∈ added
  committed : ∀ intent ∈ attempt.intents, ∃ record ∈ added, DomainRecord attempt intent record
  closed : ∃ last, added.getLast? = some last ∧ last.isSentinel = true ∧
    last.batchId = some attempt.ids.batchId

section

variable (h : AcceptedBy env log attempt conclusion written triggered)
include h

theorem AcceptedBy.added : ∃ added, AcceptedRecords attempt log conclusion added := by
  obtain ⟨-, -, hfirst⟩ := added_writeDirectTo h.wrote
  obtain ⟨second, hsecond, haudit⟩ := added_emitTrigger h.triggers
  let batch := acceptedRecords env triggered attempt.ids attempt.draw conclusion.envelope
    (attempt.domainRecords env log conclusion.envelope)
    (runChecks env attempt.checks written attempt.intents attempt.payload) []
  have hbatch : conclusion.log.records =
      triggered.records ++ reseqFrom env.toWriterEnv triggered.nextSequence batch :=
    records_appendBatch h.appended
  refine ⟨[conclusion.envelope] ++ second ++
    reseqFrom env.toWriterEnv triggered.nextSequence batch, ?_, ?_, ?_, ?_, ?_⟩
  · rw [hbatch, hsecond, hfirst]
    simp only [append_assoc]
  · intro record hrecord
    simp only [mem_append] at hrecord
    rcases hrecord with (hrecord | hrecord) | hrecord
    · exact .envelope (mem_singleton.mp hrecord ▸ SameEvent.refl record)
    · exact .audit (haudit record hrecord)
    · obtain ⟨old, hold, hsame⟩ := exists_of_mem_reseqFrom hrecord
      exact (acceptedRecord_of_mem (fun _ h => exists_of_mem_domainRecords h) hold).of_sameEvent
        hsame
  · exact mem_append_left _ (mem_append_left _ (mem_singleton_self _))
  · intro intent hintent
    obtain ⟨old, hold, hdomain⟩ := exists_mem_domainRecords env log conclusion.envelope hintent
    obtain ⟨record, hrecord, hsame⟩ := exists_mem_reseqFrom env.toWriterEnv triggered.nextSequence
      (mem_append_left _ (mem_append_left _ hold))
    exact ⟨record, mem_append_right _ hrecord, hdomain.of_sameEvent hsame⟩
  · obtain ⟨old, hlast, htype, hbatchId⟩ := getLast?_acceptedRecords env triggered attempt.ids
      attempt.draw conclusion.envelope (attempt.domainRecords env log conclusion.envelope)
      (runChecks env attempt.checks written attempt.intents attempt.payload) []
    obtain ⟨last, hlast, hsame⟩ := getLast?_reseqFrom env.toWriterEnv triggered.nextSequence hlast
    refine ⟨last, ?_, ?_, hsame.batchId.trans hbatchId⟩
    · rw [List.getLast?_append, hlast, some_or]
    · rw [EventRecord.isSentinel, hsame.eventType, htype]
      rfl

theorem AcceptedBy.eventType_envelope :
    conclusion.envelope.eventType = .transactionEnvelopeSubmitted :=
  (added_writeDirectTo h.wrote).1.trans h.submitted

theorem AcceptedBy.written_subset (hrecord : record ∈ written.records) :
    record ∈ conclusion.log.records := by
  obtain ⟨second, hsecond, -⟩ := added_emitTrigger h.triggers
  rw [records_appendBatch h.appended, hsecond]
  exact mem_append_left _ (mem_append_left _ hrecord)

end

theorem RejectedBy.eventType_envelope
    (h : RejectedBy env log attempt conclusion written triggered drift rejection) :
    conclusion.envelope.eventType = .transactionEnvelopeSubmitted :=
  (added_writeDirectTo h.wrote).1.trans h.submitted

theorem RejectedRecord.of_sameEvent (h : RejectedRecord env releasesLock releaseReason envelope old)
    (hsame : SameEvent record old) :
    RejectedRecord env releasesLock releaseReason envelope record := by
  cases h with
  | envelope h => exact .envelope (hsame.trans h)
  | audit htype => exact .audit (hsame.eventType ▸ htype)
  | drift htype => exact .drift (hsame.eventType.trans htype)
  | released hreleases htype hpayload =>
    exact .released hreleases (hsame.eventType.trans htype) (hsame.payload.trans hpayload)
  | violated htype => exact .violated (hsame.eventType.trans htype)
  | rejected htype => exact .rejected (hsame.eventType.trans htype)

theorem eventType_of_mem_violatedEvents {draw : Nat → Draw}
    (h : violatedEvents draw envelope position violations = some events) (hevent : event ∈ events) :
    event.1.eventType = .obligationViolated := by
  induction violations generalizing position events with
  | nil =>
    cases h
    cases hevent
  | cons violation violations ih =>
    obtain ⟨intent, hintent, h⟩ := bind_eq_some_iff.mp h
    obtain ⟨rest, hrest, h⟩ := bind_eq_some_iff.mp h
    cases h
    rcases mem_cons.mp hevent with rfl | hevent
    · unfold buildObligationViolatedIntent at hintent
      obtain ⟨obligation, -, hintent⟩ := bind_eq_some_iff.mp hintent
      cases hintent
      rfl
    · exact ih hrest hevent

theorem released_of_mem_releasedEvents
    (h : releasedEvents env draw envelope rejection = some events) (hevent : event ∈ events) :
    rejection.releasesLock = true ∧ event.1.eventType = .lockReleased ∧
      event.1.payload = lockReleasedPayload env envelope rejection.releaseReason := by
  unfold releasedEvents at h
  split at h
  next hreleases =>
    obtain ⟨intent, hintent, rfl⟩ := map_eq_some_iff.mp h
    rw [mem_singleton] at hevent
    subst hevent
    obtain ⟨task, -, hintent⟩ := bind_eq_some_iff.mp hintent
    cases hintent
    exact ⟨hreleases, rfl, rfl⟩
  · cases h
    cases hevent

theorem rejectedRecord_of_mem {draw : Nat → Draw}
    (h : rejectedRecords env log ids draw envelope rejection = some records)
    (hrecord : record ∈ records) :
    RejectedRecord env rejection.releasesLock rejection.releaseReason envelope record := by
  obtain ⟨released, hreleased, h⟩ := bind_eq_some_iff.mp h
  obtain ⟨violated, hviolated, h⟩ := bind_eq_some_iff.mp h
  cases h
  obtain ⟨event, hevent, hstamp⟩ := exists_of_mem_stampFrom hrecord
  simp only [mem_append, mem_singleton] at hevent
  rcases hevent with (hevent | hevent) | rfl
  · obtain ⟨hreleases, htype, hpayload⟩ := released_of_mem_releasedEvents hreleased hevent
    exact .released hreleases (hstamp.eventType.trans htype) (hstamp.payload.trans hpayload)
  · exact .violated (hstamp.eventType.trans (eventType_of_mem_violatedEvents hviolated hevent))
  · exact .rejected hstamp.eventType

theorem added_writeDrift (h : writeDrift env log draw envelope drift = some (next, driftRef)) :
    ∃ added, next.records = log.records ++ added ∧
      ∀ new ∈ added, new.eventType = .driftDetected := by
  cases drift with
  | none =>
    cases h
    exact ⟨[], (append_nil _).symm, fun _ hnew => absurd hnew not_mem_nil⟩
  | some drift =>
    obtain ⟨intent, hintent, h⟩ := bind_eq_some_iff.mp h
    obtain ⟨⟨written, record⟩, hwrite, h⟩ := bind_eq_some_iff.mp h
    cases h
    obtain ⟨htype, -, hadded⟩ := added_writeDirectTo hwrite
    obtain ⟨subjects, -, hintent⟩ := bind_eq_some_iff.mp hintent
    cases hintent
    exact ⟨[record], hadded, fun new hnew => mem_singleton.mp hnew ▸ htype⟩

theorem RejectedBy.added
    (h : RejectedBy env log attempt conclusion written triggered drift rejection) :
    ∃ added, conclusion.log.records = log.records ++ added ∧
      ∀ record ∈ added, RejectedRecord env rejection.releasesLock rejection.releaseReason
        conclusion.envelope record := by
  obtain ⟨-, -, hfirst⟩ := added_writeDirectTo h.wrote
  obtain ⟨second, hsecond, haudit⟩ := added_emitTrigger h.triggers
  have hconcluded := h.concluded
  obtain ⟨⟨drifted, driftRef⟩, hdrift, hconcluded⟩ := bind_eq_some_iff.mp hconcluded
  obtain ⟨records, hrecords, hconcluded⟩ := bind_eq_some_iff.mp hconcluded
  obtain ⟨next, happend, hconcluded⟩ := bind_eq_some_iff.mp hconcluded
  obtain ⟨third, hthird, hdrifts⟩ := added_writeDrift hdrift
  have hlog : conclusion.log = next := (congrArg Conclusion.log (some.inj hconcluded)).symm
  refine ⟨[conclusion.envelope] ++ second ++ third ++
    reseqFrom env.toWriterEnv drifted.nextSequence records, ?_, ?_⟩
  · rw [hlog, records_appendBatch happend, hthird, hsecond, hfirst]
    simp only [append_assoc]
  · intro record hrecord
    simp only [mem_append] at hrecord
    rcases hrecord with ((hrecord | hrecord) | hrecord) | hrecord
    · exact .envelope (mem_singleton.mp hrecord ▸ SameEvent.refl record)
    · exact .audit (haudit record hrecord)
    · exact .drift (hdrifts record hrecord)
    · obtain ⟨old, hold, hsame⟩ := exists_of_mem_reseqFrom hrecord
      exact (rejectedRecord_of_mem hrecords hold).of_sameEvent hsame

end

end Flowness.CommitGate
