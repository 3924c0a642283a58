import Flowness.OssHarness.AttemptLifecycle

/-!
Runs of the five calls on the control ledger. Each call appends an entry under a fresh admission id
or an event that the replayed state admits; that keeps the chain replayable, and recovery with
evidence closes every permit that is still open.
-/

namespace Flowness.OssHarness

open List Library Dict

/-- What `_append_attempt_locked` was called for: an event the replay admits, bound to the entry. -/
structure Appended (hashes : ControlHashes) (now : String) (state : ControlState)
    (event : AttemptEvent) : Prop where
  legal : ∃ states found next, attemptStates state.entries state.events = .ok states ∧
    states.get event.admissionId = some found ∧ transition found.state event = .ok next
  bound : ∃ admission eventType binding payload,
    state.entries.find? (fun entry => entry.admissionId == event.admissionId) = some admission ∧
    event = newEvent hashes now admission state.events eventType binding payload
  schema : event.schema = true

section

variable {hashes : ControlHashes} {authority : Option Authority} {now admissionId reasonCode : String}
  {state next : ControlState} {event : AttemptEvent} {found : AttemptState}
  {binding : RunBinding} {payload : AttemptPayload} {eventType : EventType}
  {evidence : List ArtifactRef}

theorem appendAttempt_ok (h : appendAttempt hashes now state.entries state.events admissionId eventType
    binding payload = .ok event) : event.admissionId = admissionId ∧ event.eventType = eventType ∧
      event.payload = payload ∧ event.schema = true ∧ ∃ admission,
        state.entries.find? (fun entry => entry.admissionId == event.admissionId) = some admission ∧
        event = newEvent hashes now admission state.events eventType binding payload := by
  unfold appendAttempt at h
  split at h
  · cases h
  next admission hfind =>
    simp only [bind_ok, require_ok, exists_const] at h
    obtain ⟨hschema, h⟩ := h
    have hid := List.find?_some hfind
    cases h
    have hevent : (newEvent hashes now admission state.events eventType binding payload).admissionId =
        admissionId := beq_iff_eq.mp hid
    exact ⟨hevent, rfl, rfl, hschema, admission, hevent ▸ hfind, rfl⟩

theorem findState_ok (h : findState state.entries state.events admissionId = .ok found) :
    ∃ states, attemptStates state.entries state.events = .ok states ∧
      states.get admissionId = some found := by
  simp only [findState, bind_ok] at h
  obtain ⟨states, hstates, h⟩ := h
  split at h
  · cases h
  next other hother =>
    cases h
    exact ⟨states, hstates, hother⟩

theorem findState_iff : findState state.entries state.events admissionId = .ok found ↔
    ∃ states, attemptStates state.entries state.events = .ok states ∧
      states.get admissionId = some found := by
  constructor
  · exact findState_ok
  · intro h
    obtain ⟨states, hstates, hget⟩ := h
    simp only [findState, hstates, bind, Except.bind, hget]
    rfl

theorem appendAttempt_terminal (hashes : ControlHashes) (now : String) (payload : AttemptPayload)
    {entry : Entry}
    (hmem : entry ∈ state.entries) (hid : entry.admissionId = admissionId)
    (hwave : nonEmpty binding.waveId = true) (hrole : nonEmpty binding.roleId = true)
    (hreason : nonEmpty payload.reasonCode = true)
    (hrecord : payload.executionRecord.all ArtifactRef.schema = true)
    (hevidence : payload.evidence.all ArtifactRef.schema = true) :
    ∃ event, appendAttempt hashes now state.entries state.events admissionId .terminal binding payload =
      .ok event := by
  obtain ⟨admission, hfind⟩ : ∃ admission,
      state.entries.find? (fun entry => entry.admissionId == admissionId) = some admission := by
    apply Option.isSome_iff_exists.mp
    rw [List.find?_isSome]
    exact ⟨entry, hmem, beq_iff_eq.mpr hid⟩
  have hschema : (newEvent hashes now admission state.events .terminal binding payload).schema =
      true := by
    simp [newEvent, AttemptBody.schema, hwave, hrole, hreason, hrecord, hevidence,
      show nonEmpty controllerVersion = true from by decide]
  refine ⟨newEvent hashes now admission state.events .terminal binding payload, ?_⟩
  simp only [appendAttempt, hfind, hschema]
  rfl

theorem Appended.of_append (after : AttemptStatus)
    (hfound : findState state.entries state.events admissionId = .ok found)
    (hlegal : ∀ event : AttemptEvent, event.eventType = eventType → event.payload = payload →
      transition found.state event = .ok after)
    (h : appendAttempt hashes now state.entries state.events admissionId eventType binding payload =
      .ok event) : Appended hashes now state event := by
  obtain ⟨hid, htype, hpayload, hschema, admission, hfind, hshape⟩ := appendAttempt_ok h
  obtain ⟨states, hstates, hget⟩ := findState_ok hfound
  exact ⟨⟨states, found, after, hstates, hid ▸ hget, hlegal event htype hpayload⟩,
    ⟨admission, eventType, binding, payload, hfind, hshape⟩, hschema⟩

theorem transition_end (hopen : status.isEnded = false)
    (hstop : status = .stopRequested → outcome = .stopped) (htype : event.eventType = .terminal)
    (houtcome : event.payload.outcome = some outcome) :
    transition status event = .ok (.ended outcome) := by
  cases status with
  | ended other => cases hopen
  | stopRequested => simp [transition, htype, houtcome, hstop rfl]
  | admitted => simp [transition, htype, houtcome]
  | inFlight => simp [transition, htype, houtcome]

theorem claimAttempt_appended (h : claimAttempt hashes authority now state.entries state.events
    admissionId binding = .ok event) : Appended hashes now state event := by
  simp only [claimAttempt, bind_ok, require_ok, exists_const, decide_eq_true_eq] at h
  obtain ⟨-, found, hfound, -, -, -, hadmitted, h⟩ := h
  refine Appended.of_append .inFlight hfound (fun event htype _ => ?_) h
  simp [transition, htype, hadmitted]

theorem stopByState_ok (h : stopByState hashes now state.entries state.events admissionId found
    payload = .ok event) :
    (found.state = .admitted ∧ appendAttempt hashes now state.entries state.events admissionId .terminal
      (unstartedBinding found.entry)
      { payload with outcome := some .stopped, retestRequired := true } = .ok event) ∨
    (found.state = .inFlight ∧ appendAttempt hashes now state.entries state.events admissionId
      .stopRequested (unstartedBinding found.entry) payload = .ok event) := by
  unfold stopByState at h
  split at h
  · exact .inl ⟨‹_›, h⟩
  · exact .inr ⟨‹_›, h⟩
  · cases h

theorem requestStop_ok (h : requestStop hashes authority now state.entries state.events admissionId
    reasonCode evidence = .ok event) : Appended hashes now state event ∧
      (event.eventType = .stopRequested ∨
        event.eventType = .terminal ∧ event.payload.outcome = some .stopped) := by
  simp only [requestStop, bind_ok, require_ok, exists_const] at h
  obtain ⟨-, found, hfound, -, h⟩ := h
  obtain ⟨hadmitted, h⟩ | ⟨hflying, h⟩ := stopByState_ok h
  · refine ⟨Appended.of_append (.ended .stopped) hfound (fun event htype hpayload => ?_) h, ?_⟩
    · exact transition_end (by rw [hadmitted]; rfl) (fun _ => rfl) htype (by rw [hpayload])
    · obtain ⟨-, htype, hpayload, -⟩ := appendAttempt_ok h
      exact .inr ⟨htype, by rw [hpayload]⟩
  · refine ⟨Appended.of_append .stopRequested hfound (fun event htype _ => ?_) h, ?_⟩
    · simp [transition, htype, hflying]
    · exact .inl (appendAttempt_ok h).2.1

theorem settleAttempt_appended
    (h : settleAttempt hashes authority now state.entries state.events admissionId outcome
      reasonCode executionRecord evidence retestRequired = .ok event) :
    Appended hashes now state event := by
  simp only [settleAttempt, bind_ok, require_ok, exists_const, decide_eq_true_eq] at h
  obtain ⟨-, houtcome, found, hfound, -, hopen, h⟩ := h
  obtain ⟨chosen, rfl⟩ := Option.isSome_iff_exists.mp houtcome
  split at h
  · cases h
  · obtain hflying | hasked := hopen
    · refine Appended.of_append (.ended chosen) hfound (fun event htype hpayload => ?_) h
      exact transition_end (by rw [hflying]; rfl) (by simp [hflying]) htype (by simp [hpayload, hflying])
    · refine Appended.of_append (.ended .stopped) hfound (fun event htype hpayload => ?_) h
      exact transition_end (by rw [hasked]; rfl) (fun _ => rfl) htype (by simp [hpayload, hasked])

theorem recoverAttempt_appended
    (h : recoverAttempt hashes now state.entries state.events admissionId startedEventHash
      reasonCode evidence outcome = .ok event) : Appended hashes now state event := by
  simp only [recoverAttempt, bind_ok, require_ok, exists_const, decide_eq_true_eq] at h
  obtain ⟨houtcome, -, -, found, hfound, hopen, binding, -, h⟩ := h
  obtain ⟨chosen, rfl⟩ : ∃ chosen, outcome = some chosen := by
    obtain rfl | rfl := houtcome
    · exact ⟨_, rfl⟩
    · exact ⟨_, rfl⟩
  by_cases hasked : found.state = .stopRequested
  · refine Appended.of_append (.ended .stopped) hfound (fun event htype hpayload => ?_) h
    exact transition_end (by rw [hasked]; rfl) (fun _ => rfl) htype (by simp [hpayload, hasked])
  · refine Appended.of_append (.ended chosen) hfound (fun event htype hpayload => ?_) h
    refine transition_end ?_ (fun h => absurd h hasked) htype (by simp [hpayload, hasked])
    obtain h | h | h := hopen <;> rw [h] <;> rfl

def CollisionFree (hashes : ControlHashes) (state : ControlState) : ControlCall → Prop
  | .admitWork (some authority) _ card => ∀ entry ∈ state.entries,
      hashes.admission authority.policyHash card = entry.admissionId → card = entry.card
  | _ => True

theorem decideCall_ok (h : decideCall hashes state call = .ok written) :
    (∃ authority now card entry, call = .admitWork (some authority) now card ∧
      admitWork hashes.toAdmissionHashes authority now card state.entries = .ok (.reserved entry) ∧
      written = .entry entry) ∨
    (∃ now event, Appended hashes now state event ∧ written = .event event) ∨
    written = .nothing := by
  cases call with
  | admitWork authority now card =>
    cases authority with
    | none => cases h
    | some authority =>
      simp only [decideCall, bind_ok] at h
      obtain ⟨admission, hadmission, h⟩ := h
      cases admission with
      | prior entry => exact .inr (.inr (Except.ok.inj h).symm)
      | reserved entry => exact .inl ⟨authority, now, card, entry, rfl, hadmission, (Except.ok.inj h).symm⟩
  | claimAttempt authority now admissionId binding =>
    simp only [decideCall, bind_ok] at h
    obtain ⟨event, hevent, h⟩ := h
    exact .inr (.inl ⟨now, event, claimAttempt_appended hevent, (Except.ok.inj h).symm⟩)
  | requestStop authority now admissionId reasonCode evidence =>
    simp only [decideCall, bind_ok] at h
    obtain ⟨event, hevent, h⟩ := h
    exact .inr (.inl ⟨now, event, (requestStop_ok hevent).1, (Except.ok.inj h).symm⟩)
  | settleAttempt authority now admissionId outcome reasonCode executionRecord evidence retest =>
    simp only [decideCall, bind_ok] at h
    obtain ⟨event, hevent, h⟩ := h
    exact .inr (.inl ⟨now, event, settleAttempt_appended hevent, (Except.ok.inj h).symm⟩)
  | recoverAttempt now admissionId startedEventHash reasonCode evidence outcome =>
    simp only [decideCall, bind_ok] at h
    obtain ⟨event, hevent, h⟩ := h
    exact .inr (.inl ⟨now, event, recoverAttempt_appended hevent, (Except.ok.inj h).symm⟩)

/-- An entry as `admit_work` makes it, of a card that met the schema. -/
structure Sealed (hashes : ControlHashes) (entry : Entry) : Prop where
  admission : entry.admissionId = hashes.admission entry.policyHash entry.card
  task : entry.taskId = entry.card.taskId
  wave : nonEmpty entry.waveId = true
  role : nonEmpty entry.roleId = true

structure ControlSound (hashes : ControlHashes) (state : ControlState) : Prop where
  replays : ∃ states, attemptStates state.entries state.events = .ok states
  distinct : (state.entries.map (fun entry => entry.admissionId)).Nodup
  made : ∀ entry ∈ state.entries, Sealed hashes entry
  valid : ∀ event ∈ state.events, event.schema = true

theorem sealed_of_reserved {authority : Authority} {card : Card} {entry : Entry}
    (h : admitWork hashes.toAdmissionHashes authority now card entries = .ok (.reserved entry)) :
    Sealed hashes entry ∧ entry.card = card ∧ entry.policyHash = authority.policyHash := by
  obtain ⟨folded, blocker, wave, hreserved, rfl⟩ := admitWork_reserved h
  have hvalid := hreserved.valid
  simp only [validateCard, bind_ok, require_ok, exists_const] at hvalid
  have hschema := hvalid.1
  simp only [Card.schema, Bool.and_eq_true] at hschema
  simp only [and_assoc] at hschema
  obtain ⟨-, hwave, -, hrole, -⟩ := hschema
  exact ⟨⟨rfl, rfl, hwave, hrole⟩, rfl, rfl⟩

theorem fold_taskIds (h : fold policy entries = .ok folded) {entry : Entry} (hmem :
  entry ∈ entries) :
    ∃ other ∈ entries, folded.taskIds.get entry.taskId = some other.admissionId := by
  induction entries using List.reverseRecOn generalizing folded with
  | nil => exact absurd hmem not_mem_nil
  | append_singleton entries last ih =>
    obtain ⟨before, hbefore, hlast⟩ := fold_append_ok h
    simp only [foldEntry, bind_ok] at hlast
    obtain ⟨waves, -, lanes, -, hlast⟩ := hlast
    cases hlast
    by_cases htask : entry.taskId = last.taskId
    · refine ⟨last, mem_append_right _ mem_cons_self, ?_⟩
      rw [htask, get_set_self]
    · have hin : entry ∈ entries := by
        obtain hmem | hmem := mem_append.mp hmem
        · exact hmem
        · exact absurd (mem_singleton.mp hmem ▸ rfl) htask
      obtain ⟨other, hother, hget⟩ := ih hbefore hin
      refine ⟨other, mem_append_left _ hother, ?_⟩
      rw [get_set_of_ne _ _ htask, hget]

section

variable (h : ControlSound hashes state) {authority : Authority} {card : Card} {entry : Entry}
include h

theorem ControlSound.fresh
    (hreserved : admitWork hashes.toAdmissionHashes authority now card state.entries =
      .ok (.reserved entry)) :
    ∀ other ∈ state.entries, card ≠ other.card := by
  obtain ⟨folded, blocker, wave, hreserved, -⟩ := admitWork_reserved hreserved
  rintro other hother rfl
  obtain ⟨found, hfound, hget⟩ := fold_taskIds hreserved.folded hother
  have hnew := hreserved.newTask
  rw [← (h.made other hother).task, hget, (h.made found hfound).admission] at hnew
  simp [hashes.admission_ne] at hnew

theorem ControlSound.admit
    (hfree : CollisionFree hashes state (.admitWork (some authority) now card))
    (hreserved : admitWork hashes.toAdmissionHashes authority now card state.entries =
      .ok (.reserved entry)) :
    ControlSound hashes { state with entries := state.entries ++ [entry] } := by
  obtain ⟨hsealed, hcard, hpolicy⟩ := sealed_of_reserved hreserved
  have hnew : ∀ other ∈ state.entries, entry.admissionId ≠ other.admissionId := by
    intro other hother hid
    have hadmission := hsealed.admission
    rw [hcard, hpolicy] at hadmission
    exact h.fresh hreserved other hother (hfree other hother (hadmission ▸ hid))
  obtain ⟨states, hstates⟩ := h.replays
  refine ⟨?_, ?_, ?_, h.valid⟩
  · refine replay_of_traces ?_ ?_
    · intro event hevent
      rw [initialStates_append]
      by_cases hid : event.admissionId = entry.admissionId
      · simp [hid]
      · rw [get_set_of_ne _ _ hid]
        exact replay_known hstates event hevent
    · intro id found hfound
      rw [initialStates_append] at hfound
      by_cases hid : id = entry.admissionId
      · subst hid
        rw [get_set_self] at hfound
        cases hfound
        -- no event names the new admission
        have hnil : eventsOf entry.admissionId state.events = [] := by
          apply filter_eq_nil_iff.mpr
          intro event hevent heq
          obtain ⟨first, hfirst⟩ := Option.isSome_iff_exists.mp (replay_known hstates event hevent)
          obtain ⟨-, hmem, hfirstId⟩ := get_initialStates hfirst
          exact hnew _ hmem (hfirstId.trans (beq_iff_eq.mp heq)).symm
        rw [hnil]
        exact ⟨.admitted, rfl⟩
      · rw [get_set_of_ne _ _ hid] at hfound
        obtain ⟨last, -, -, htrace⟩ := replay_get hstates hfound
        exact ⟨last.state, htrace⟩
  · rw [map_append, map_singleton]
    refine List.Nodup.append h.distinct (nodup_singleton _) ?_
    intro id hid hother
    obtain ⟨other, hmem, rfl⟩ := mem_map.mp hid
    exact hnew other hmem (mem_singleton.mp hother).symm
  · intro other hother
    obtain hmem | hmem := mem_append.mp hother
    · exact h.made other hmem
    · exact mem_singleton.mp hmem ▸ hsealed

end

theorem ControlSound.append (h : ControlSound hashes state) (hevent : Appended hashes now state event) :
    ControlSound hashes { state with events := state.events ++ [event] } := by
  obtain ⟨states, found, after, hstates, hfound, hlegal⟩ := hevent.legal
  refine ⟨⟨states.set event.admissionId ⟨after, found.entry, some event⟩, ?_⟩, h.distinct, h.made, ?_⟩
  · have hreplay : state.events.foldlM replayEvent (initialStates state.entries) = .ok states := hstates
    show (state.events ++ [event]).foldlM replayEvent (initialStates state.entries) = _
    rw [foldlM_snoc hreplay]
    simp only [replayEvent, hfound, hlegal]
    rfl
  · intro other hother
    obtain hmem | hmem := mem_append.mp hother
    · exact h.valid other hmem
    · exact mem_singleton.mp hmem ▸ hevent.schema

theorem controlSound_empty : ControlSound hashes ⟨[], []⟩ where
  replays := ⟨[], rfl⟩
  distinct := nodup_nil
  made := fun _ hmem => absurd hmem not_mem_nil
  valid := fun _ hmem => absurd hmem not_mem_nil

theorem ControlSound.step (h : ControlSound hashes state) (hfree : CollisionFree hashes state call)
    (hstep : controlStep hashes state call = some next) : ControlSound hashes next := by
  unfold controlStep at hstep
  split at hstep
  next written hwritten =>
    cases hstep
    obtain ⟨authority, now, card, entry, rfl, hreserved, rfl⟩ | ⟨now, event, hevent, rfl⟩ | rfl :=
      decideCall_ok hwritten
    · exact h.admit hfree hreserved
    · exact h.append hevent
    · exact h
  · cases hstep
    exact h

/-- Recovery with a reason and evidence closes the permit, whatever the other arguments are. -/
def Closable (hashes : ControlHashes) (state : ControlState) (admissionId : String) : Prop :=
  ∃ startedEventHash, ∀ now reasonCode evidence outcome, notBlank reasonCode = true →
    isNonemptyArtifactRefs evidence = true → outcome = some .failed ∨ outcome = some .stopped →
    ∃ event, recoverAttempt hashes now state.entries state.events admissionId startedEventHash
      reasonCode evidence outcome = .ok event ∧ event.eventType = .terminal

theorem nonEmpty_of_notBlank (h : notBlank s = true) : nonEmpty s = true := by
  unfold nonEmpty
  rw [bne_iff_ne]
  rintro rfl
  exact absurd h (by decide)

theorem schema_of_nonemptyRefs (h : isNonemptyArtifactRefs evidence = true) :
    evidence.all ArtifactRef.schema = true := by
  simp only [isNonemptyArtifactRefs, Bool.and_eq_true] at h
  apply all_eq_true.mpr
  intro ref hmem
  obtain ⟨hid, hsha⟩ := Bool.and_eq_true_iff.mp (all_eq_true.mp h.2 ref hmem)
  simp [ArtifactRef.schema, nonEmpty_of_notBlank hid, hasSha256Pattern, hsha]

section

variable (h : ControlSound hashes state) {states : Dict String AttemptState}
    (hstates : attemptStates state.entries state.events = .ok states)
    (hget : states.get admissionId = some found) (hopen : found.state.isEnded = false)
include h hstates hget hopen

theorem ControlSound.recoveryBinding :
    ∃ startedEventHash binding, recoveryBinding found (startedEvent state.events admissionId)
        startedEventHash = .ok binding ∧
      nonEmpty binding.waveId = true ∧ nonEmpty binding.roleId = true := by
  obtain ⟨hmem, -, htrace⟩ := attemptStates_get hstates hget
  cases hstarted : startedEvent state.events admissionId with
  | none =>
    have hadmitted : found.state = .admitted := by
      by_contra hleft
      obtain ⟨event, hevent, htype⟩ := trace_under_way htrace hleft hopen
      obtain ⟨hin, hid⟩ := mem_filter.mp hevent
      have hnone := List.find?_eq_none.mp hstarted event (mem_reverse.mpr hin)
      exact hnone (by simp [beq_iff_eq.mp hid, htype])
    refine ⟨none, unstartedBinding found.entry, ?_, (h.made _ hmem).wave, (h.made _ hmem).role⟩
    simp [OssHarness.recoveryBinding, hadmitted, require, bind, Except.bind, pure, Except.pure]
  | some event =>
    have hin : event ∈ state.events := mem_reverse.mp (mem_of_find?_eq_some hstarted)
    have hschema := h.valid event hin
    simp only [AttemptBody.schema, Bool.and_eq_true] at hschema
    refine ⟨some event.eventHash, event.runBinding, ?_, hschema.1.1.1.1.2, hschema.1.1.1.2⟩
    simp [OssHarness.recoveryBinding, require, bind, Except.bind, pure, Except.pure]

theorem ControlSound.closable : Closable hashes state admissionId := by
  obtain ⟨startedEventHash, binding, hbinding, hwave, hrole⟩ := h.recoveryBinding hstates hget hopen
  refine ⟨startedEventHash, fun now reasonCode evidence outcome hreason hevidence houtcome => ?_⟩
  obtain ⟨hmem, hid, -⟩ := attemptStates_get hstates hget
  have hopened : found.state = .admitted ∨ found.state = .inFlight ∨ found.state = .stopRequested := by
    cases hstatus : found.state with
    | ended outcome =>
      rw [hstatus] at hopen
      cases hopen
    | admitted => exact .inl rfl
    | inFlight => exact .inr (.inl rfl)
    | stopRequested => exact .inr (.inr rfl)
  let payload : AttemptPayload :=
    { outcome := if found.state = .stopRequested then some .stopped else outcome
      reasonCode := reasonCode, executionRecord := none, evidence := evidence
      retestRequired := true }
  obtain ⟨event, happend⟩ := appendAttempt_terminal hashes now payload hmem hid hwave hrole
    (nonEmpty_of_notBlank hreason) rfl (schema_of_nonemptyRefs hevidence)
  refine ⟨event, ?_, (appendAttempt_ok happend).2.1⟩
  simp only [recoverAttempt, bind_ok, require_ok, exists_const, decide_eq_true_eq]
  exact ⟨houtcome, hreason, hevidence, found, findState_iff.mpr ⟨states, hstates, hget⟩, hopened,
    binding, hbinding, happend⟩

end

/-- In every run of the calls the attempt chain is replayable, each attempt has one life, a stop
request stops, and every open permit can be closed with evidence. -/
theorem attempts_hold {calls : List ControlCall}
    (h : Run (controlStep hashes) (CollisionFree hashes) ⟨[], []⟩ calls state) :
    ∃ states, attemptStates state.entries state.events = .ok states ∧ LifeCycle state.events ∧
      (∀ authority now admissionId reasonCode evidence event,
        requestStop hashes authority now state.entries state.events admissionId reasonCode evidence =
          .ok event →
        event.eventType = .stopRequested ∨
          event.eventType = .terminal ∧ event.payload.outcome = some .stopped) ∧
      ∀ entry ∈ state.entries, ∃ found, states.get entry.admissionId = some found ∧
        (found.state.isEnded = false → Closable hashes state entry.admissionId) := by
  have hsound : ControlSound hashes state := by
    refine h.invariant controlSound_empty ?_
    exact fun _ _ _ hsound hfree hstep => hsound.step hfree hstep
  obtain ⟨states, hstates⟩ := hsound.replays
  refine ⟨states, hstates, lifeCycle_of_replay hstates, ?_, ?_⟩
  · exact fun authority now admissionId reasonCode evidence event h => (requestStop_ok h).2
  · intro entry hentry
    obtain ⟨first, hfirst⟩ := Option.isSome_iff_exists.mp (isSome_initialStates hentry)
    obtain ⟨found, hfound, -, -⟩ := replay_get hstates hfirst
    exact ⟨found, hfound, fun hopen => hsound.closable hstates hfound hopen⟩

end

instance (hashes : ControlHashes) (state : ControlState) :
    (call : ControlCall) → Decidable (CollisionFree hashes state call)
  | .admitWork (some _) _ _ => inferInstanceAs (Decidable (∀ entry ∈ state.entries, _ = _ → _ = _))
  | .admitWork none _ _ => isTrue trivial
  | .claimAttempt .. => isTrue trivial
  | .requestStop .. => isTrue trivial
  | .settleAttempt .. => isTrue trivial
  | .recoverAttempt .. => isTrue trivial

def sampleControlHashes : ControlHashes :=
  { sampleHashes with
    eventId := fun seed => "event of " ++ seed.admissionId
    event := fun body => "hash of " ++ body.eventId }

def stoppedCalls : List ControlCall :=
  let authority := some sampleAuthority
  [.admitWork authority "t0" (judgeCard "first" "truth"),
    .claimAttempt authority "t1" "admission first" ⟨none, none, "W2A", "judge.a"⟩,
    .requestStop authority "t2" "admission first" "drift" [],
    .admitWork authority "t3" (judgeCard "second" "truth"),
    .settleAttempt authority "t4" "admission first" (some .completed) "done" none [] false,
    .recoverAttempt "t5" "admission second" none "stranded" [sampleRef] (some .failed)]

def controlAfter (calls : List ControlCall) : ControlState :=
  (calls.foldlM (controlStep sampleControlHashes) ⟨[], []⟩).getD ⟨[], []⟩

example : (controlAfter stoppedCalls).events.map (fun event => (event.eventType, event.payload.outcome)) =
    [(.started, none), (.stopRequested, none), (.terminal, some .stopped),
      (.terminal, some .failed)] := by decide +kernel

theorem stoppedCalls_lifeCycle :
    ∃ states, attemptStates (controlAfter stoppedCalls).entries (controlAfter stoppedCalls).events =
        .ok states ∧ LifeCycle (controlAfter stoppedCalls).events ∧
      (∀ authority now admissionId reasonCode evidence event,
        requestStop sampleControlHashes authority now (controlAfter stoppedCalls).entries
          (controlAfter stoppedCalls).events admissionId reasonCode evidence = .ok event →
        event.eventType = .stopRequested ∨
          event.eventType = .terminal ∧ event.payload.outcome = some .stopped) ∧
      ∀ entry ∈ (controlAfter stoppedCalls).entries, ∃ found,
        states.get entry.admissionId = some found ∧ (found.state.isEnded = false →
          Closable sampleControlHashes (controlAfter stoppedCalls) entry.admissionId) := by
  have hchecked : ∀ state call, decide (CollisionFree sampleControlHashes state call) = true →
      CollisionFree sampleControlHashes state call := fun _ _ h => of_decide_eq_true h
  have hrun : Run (controlStep sampleControlHashes) (CollisionFree sampleControlHashes) ⟨[], []⟩
      stoppedCalls (controlAfter stoppedCalls) := Run.of_checked hchecked (by decide +kernel)
  exact attempts_hold hrun

end Flowness.OssHarness
