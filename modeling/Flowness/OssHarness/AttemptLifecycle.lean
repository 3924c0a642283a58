import Flowness.Library.Transition
import Flowness.OssHarness.AttemptLedger

/-!
The attempt life cycle. A replay is one trace of transitions for each admission; every entry point
appends an event that its admission's trace admits, so the chain stays replayable and every open
permit can be closed.
-/

namespace Flowness.OssHarness

open List Library Dict

def eventsOf (id : String) (events : List AttemptEvent) : List AttemptEvent :=
  events.filter (fun event => event.admissionId == id)

def trace (status : AttemptStatus) (events : List AttemptEvent) : Except LedgerError AttemptStatus :=
  events.foldlM transition status

def AttemptStatus.isEnded : AttemptStatus → Bool
  | .ended _ => true
  | _ => false

section

variable {status next last : AttemptStatus} {event : AttemptEvent} {events : List AttemptEvent}

section

variable (h : transition status event = .ok next)
include h

theorem transition_not_ended : status.isEnded = false := by
  cases status with
  | ended outcome =>
    cases htype : event.eventType <;> simp [transition, htype] at h
  | _ => rfl

theorem transition_left : next ≠ .admitted := by
  rintro rfl
  unfold transition at h
  split at h
  · split at h <;> cases h
  · split at h <;> cases h
  · split at h
    · cases h
    · cases h
    · split at h <;> cases h
    · cases h

theorem transition_started (htype : event.eventType = .started) :
    status = .admitted ∧ next = .inFlight := by
  simp only [transition, htype] at h
  split at h
  · exact ⟨‹_›, (Except.ok.inj h).symm⟩
  · cases h

theorem transition_stopRequested (htype : event.eventType = .stopRequested) :
    status = .inFlight ∧ next = .stopRequested := by
  simp only [transition, htype] at h
  split at h
  · exact ⟨‹_›, (Except.ok.inj h).symm⟩
  · cases h

theorem transition_terminal (htype : event.eventType = .terminal) :
    ∃ outcome, event.payload.outcome = some outcome ∧
      next = .ended outcome ∧ (status = .stopRequested → outcome = .stopped) := by
  cases houtcome : event.payload.outcome with
  | none => cases status <;> simp [transition, htype, houtcome] at h
  | some outcome =>
    cases status with
    | ended other => simp [transition, htype] at h
    | stopRequested =>
      by_cases hstopped : outcome = .stopped
      · simp only [transition, htype, houtcome, if_pos hstopped] at h
        exact ⟨outcome, rfl, hstopped ▸ (Except.ok.inj h).symm, fun _ => hstopped⟩
      · simp [transition, htype, houtcome, hstopped] at h
    | admitted =>
      simp only [transition, htype, houtcome] at h
      exact ⟨outcome, rfl, (Except.ok.inj h).symm, fun h => nomatch h⟩
    | inFlight =>
      simp only [transition, htype, houtcome] at h
      exact ⟨outcome, rfl, (Except.ok.inj h).symm, fun h => nomatch h⟩

end

theorem trace_cons : trace status (event :: events) = .ok last ↔
    ∃ next, transition status event = .ok next ∧ trace next events = .ok last := by
  unfold trace
  rw [foldlM_cons, bind_ok]

theorem trace_append : trace status (front ++ back) = .ok last ↔
    ∃ middle, trace status front = .ok middle ∧ trace middle back = .ok last := by
  unfold trace
  rw [foldlM_append, bind_ok]

theorem trace_ended (hended : status.isEnded = true) (h : trace status events = .ok last) :
    events = [] := by
  cases events with
  | nil => rfl
  | cons event events =>
    obtain ⟨next, hnext, -⟩ := trace_cons.mp h
    rw [transition_not_ended hnext] at hended
    cases hended

theorem trace_left (hleft : status ≠ .admitted) (h : trace status events = .ok last) :
    last ≠ .admitted ∧ ∀ event ∈ events, event.eventType ≠ .started := by
  induction events generalizing status with
  | nil =>
    cases h
    exact ⟨hleft, fun _ hmem => absurd hmem not_mem_nil⟩
  | cons event events ih =>
    obtain ⟨next, hnext, h⟩ := trace_cons.mp h
    obtain ⟨hlast, hnone⟩ := ih (transition_left hnext) h
    refine ⟨hlast, fun other hmem => ?_⟩
    obtain rfl | hmem := mem_cons.mp hmem
    · exact fun htype => hleft (transition_started hnext htype).1
    · exact hnone other hmem

theorem trace_started_once (h : trace status events = .ok last) :
    events.countP (fun event => decide (event.eventType = .started)) ≤ 1 := by
  cases events with
  | nil => exact Nat.zero_le _
  | cons event events =>
    obtain ⟨next, hnext, h⟩ := trace_cons.mp h
    have hrest : events.countP (fun event => decide (event.eventType = .started)) = 0 := by
      apply countP_eq_zero.mpr
      intro other hmem
      simpa using (trace_left (transition_left hnext) h).2 other hmem
    rw [countP_cons]
    split <;> omega

theorem trace_terminal_once (h : trace status events = .ok last) :
    events.countP (fun event => decide (event.eventType = .terminal)) ≤ 1 := by
  induction events generalizing status with
  | nil => exact Nat.zero_le _
  | cons event events ih =>
    obtain ⟨next, hnext, h⟩ := trace_cons.mp h
    by_cases htype : event.eventType = .terminal
    · obtain ⟨outcome, -, rfl, -⟩ := transition_terminal hnext htype
      have hnil := trace_ended rfl h
      subst hnil
      simp [htype]
    · simpa [htype] using ih h

section

variable (h : trace status (front ++ event :: back) = .ok last)
    (htype : event.eventType = .terminal)
include h htype

theorem trace_after_terminal : back = [] := by
  obtain ⟨middle, -, h⟩ := trace_append.mp h
  obtain ⟨next, hnext, h⟩ := trace_cons.mp h
  obtain ⟨outcome, -, rfl, -⟩ := transition_terminal hnext htype
  exact trace_ended rfl h

theorem trace_after_request (hrequest : request ∈ front)
    (hstop : request.eventType = .stopRequested) : event.payload.outcome = some .stopped := by
  obtain ⟨early, late, rfl⟩ := append_of_mem hrequest
  obtain ⟨middle, hfront, h⟩ := trace_append.mp h
  obtain ⟨next, hnext, -⟩ := trace_cons.mp h
  obtain ⟨before, -, hlate⟩ := trace_append.mp hfront
  obtain ⟨asked, hasked, hlate⟩ := trace_cons.mp hlate
  obtain ⟨-, rfl⟩ := transition_stopRequested hasked hstop
  have hmiddle : middle = .stopRequested := by
    cases late with
    | nil => exact (Except.ok.inj hlate).symm
    | cons other late =>
      obtain ⟨ended, hended, hlate⟩ := trace_cons.mp hlate
      have hover : ended.isEnded = true := by
        cases hother : other.eventType with
        | started => exact absurd (transition_started hended hother).1 (by simp)
        | stopRequested => exact absurd (transition_stopRequested hended hother).1 (by simp)
        | terminal =>
          obtain ⟨outcome, -, rfl, -⟩ := transition_terminal hended hother
          rfl
      have hnil := trace_ended hover hlate
      subst hnil
      cases hlate
      rw [transition_not_ended hnext] at hover
      cases hover
  obtain ⟨outcome, houtcome, -, hstopped⟩ := transition_terminal hnext htype
  rw [houtcome, hstopped hmiddle]

end

theorem trace_under_way (h : trace .admitted events = .ok last) (hleft : last ≠ .admitted)
    (hopen : last.isEnded = false) : ∃ event ∈ events, event.eventType = .started := by
  cases events with
  | nil =>
    cases h
    exact absurd rfl hleft
  | cons event events =>
    obtain ⟨next, hnext, h⟩ := trace_cons.mp h
    cases htype : event.eventType with
    | started => exact ⟨event, mem_cons_self, htype⟩
    | stopRequested => exact absurd (transition_stopRequested hnext htype).1 (by simp)
    | terminal =>
      obtain ⟨outcome, -, rfl, -⟩ := transition_terminal hnext htype
      have hnil := trace_ended rfl h
      subst hnil
      cases h
      cases hopen

end

section

variable {states after : Dict String AttemptState} {event : AttemptEvent}
  {events : List AttemptEvent} {entries : List Entry} {id : String}

theorem eventsOf_cons_self : eventsOf event.admissionId (event :: events) =
    event :: eventsOf event.admissionId events := by
  simp [eventsOf]

theorem eventsOf_cons_of_ne (h : event.admissionId ≠ id) :
    eventsOf id (event :: events) = eventsOf id events := by
  simp [eventsOf, h]

theorem replayEvent_ok (h : replayEvent states event = .ok after) :
    ∃ state next, states.get event.admissionId = some state ∧
      transition state.state event = .ok next ∧
      after = states.set event.admissionId ⟨next, state.entry, some event⟩ := by
  unfold replayEvent at h
  split at h
  · cases h
  next state hstate =>
    rw [bind_ok] at h
    obtain ⟨next, hnext, h⟩ := h
    cases h
    exact ⟨state, next, hstate, hnext, rfl⟩

theorem replay_get (h : events.foldlM replayEvent states = .ok after)
    (hget : states.get id = some state) : ∃ found, after.get id = some found ∧
      found.entry = state.entry ∧ trace state.state (eventsOf id events) = .ok found.state := by
  induction events generalizing states state with
  | nil =>
    cases h
    exact ⟨state, hget, rfl, rfl⟩
  | cons event events ih =>
    rw [foldlM_cons, bind_ok] at h
    obtain ⟨middle, hmiddle, h⟩ := h
    obtain ⟨prior, next, hprior, hnext, rfl⟩ := replayEvent_ok hmiddle
    by_cases hid : event.admissionId = id
    · subst hid
      rw [hget] at hprior
      cases hprior
      obtain ⟨found, hfound, hentry, htrace⟩ := ih h (get_set_self _ _ _)
      refine ⟨found, hfound, hentry, ?_⟩
      rw [eventsOf_cons_self]
      exact trace_cons.mpr ⟨next, hnext, htrace⟩
    · rw [eventsOf_cons_of_ne hid]
      exact ih h (by rw [get_set_of_ne _ _ (fun heq => hid heq.symm), hget])

theorem replay_known (h : events.foldlM replayEvent states = .ok after) :
    ∀ event ∈ events, (states.get event.admissionId).isSome := by
  induction events generalizing states with
  | nil => exact fun _ hmem => absurd hmem not_mem_nil
  | cons event events ih =>
    rw [foldlM_cons, bind_ok] at h
    obtain ⟨middle, hmiddle, h⟩ := h
    obtain ⟨prior, next, hprior, -, rfl⟩ := replayEvent_ok hmiddle
    intro other hmem
    obtain rfl | hmem := mem_cons.mp hmem
    · simp [hprior]
    · have hknown := ih h other hmem
      by_cases hid : other.admissionId = event.admissionId
      · simp [hid, hprior]
      · rwa [get_set_of_ne _ _ hid] at hknown

theorem replay_of_traces (hknown : ∀ event ∈ events, (states.get event.admissionId).isSome)
    (htraces : ∀ id state, states.get id = some state →
      ∃ last, trace state.state (eventsOf id events) = .ok last) :
    ∃ after, events.foldlM replayEvent states = .ok after := by
  induction events generalizing states with
  | nil => exact ⟨states, rfl⟩
  | cons event events ih =>
    obtain ⟨state, hstate⟩ := Option.isSome_iff_exists.mp (hknown event mem_cons_self)
    obtain ⟨last, hlast⟩ := htraces _ _ hstate
    rw [eventsOf_cons_self] at hlast
    obtain ⟨next, hnext, hlast⟩ := trace_cons.mp hlast
    have hstep : replayEvent states event =
        .ok (states.set event.admissionId ⟨next, state.entry, some event⟩) := by
      simp only [replayEvent, hstate, hnext]
      rfl
    suffices hrest : ∃ after, events.foldlM replayEvent
        (states.set event.admissionId ⟨next, state.entry, some event⟩) = .ok after by
      obtain ⟨after, hafter⟩ := hrest
      refine ⟨after, ?_⟩
      rw [foldlM_cons, bind_ok]
      exact ⟨_, hstep, hafter⟩
    apply ih
    · intro other hmem
      by_cases hid : other.admissionId = event.admissionId
      · simp [hid]
      · rw [get_set_of_ne _ _ hid]
        exact hknown other (mem_cons_of_mem _ hmem)
    · intro id found hfound
      by_cases hid : id = event.admissionId
      · subst hid
        rw [get_set_self] at hfound
        cases hfound
        exact ⟨last, hlast⟩
      · rw [get_set_of_ne _ _ hid] at hfound
        have htrace := htraces id found hfound
        rwa [eventsOf_cons_of_ne (fun heq => hid heq.symm)] at htrace

theorem initialStates_append (entry : Entry) : initialStates (entries ++ [entry]) =
    (initialStates entries).set entry.admissionId ⟨.admitted, entry, none⟩ := by
  simp [initialStates]

theorem get_initialStates (h : (initialStates entries).get id = some state) :
    state.state = .admitted ∧ state.entry ∈ entries ∧ state.entry.admissionId = id := by
  induction entries using List.reverseRecOn with
  | nil => cases h
  | append_singleton entries entry ih =>
    rw [initialStates_append] at h
    by_cases hid : id = entry.admissionId
    · subst hid
      rw [get_set_self] at h
      cases h
      exact ⟨rfl, mem_append_right _ mem_cons_self, rfl⟩
    · rw [get_set_of_ne _ _ hid] at h
      obtain ⟨hstate, hmem, hentry⟩ := ih h
      exact ⟨hstate, mem_append_left _ hmem, hentry⟩

theorem isSome_initialStates (h : entry ∈ entries) :
    ((initialStates entries).get entry.admissionId).isSome := by
  induction entries using List.reverseRecOn with
  | nil => exact absurd h not_mem_nil
  | append_singleton entries other ih =>
    rw [initialStates_append]
    by_cases hid : entry.admissionId = other.admissionId
    · simp [hid]
    · rw [get_set_of_ne _ _ hid]
      obtain hmem | hmem := mem_append.mp h
      · exact ih hmem
      · exact absurd (mem_singleton.mp hmem ▸ rfl) hid

theorem attemptStates_get (h : attemptStates entries events = .ok states)
    (hget : states.get id = some state) : state.entry ∈ entries ∧ state.entry.admissionId = id ∧
      trace .admitted (eventsOf id events) = .ok state.state := by
  have hinitial : ∃ first, (initialStates entries).get id = some first := by
    by_contra hnone
    have habsent : id ∉ (initialStates entries).keys := by
      rw [← get_eq_none_iff]
      cases hfirst : (initialStates entries).get id with
      | none => rfl
      | some first => exact absurd ⟨first, hfirst⟩ hnone
    -- replaying sets known admissions only
    have hkeys : states.keys = (initialStates entries).keys := by
      clear hget habsent hnone
      unfold attemptStates at h
      generalize initialStates entries = start at h ⊢
      induction events generalizing start with
      | nil =>
        cases h
        rfl
      | cons event events ih =>
        rw [foldlM_cons, bind_ok] at h
        obtain ⟨middle, hmiddle, h⟩ := h
        obtain ⟨prior, next, hprior, -, rfl⟩ := replayEvent_ok hmiddle
        rw [ih _ h, keys_set_of_mem (mem_keys_of_get hprior)]
    exact habsent (hkeys ▸ mem_keys_of_get hget)
  obtain ⟨first, hfirst⟩ := hinitial
  obtain ⟨hadmitted, hmem, hid⟩ := get_initialStates hfirst
  obtain ⟨found, hfound, hentry, htrace⟩ := replay_get h hfirst
  rw [hget] at hfound
  cases hfound
  rw [hadmitted] at htrace
  rw [hentry]
  exact ⟨hmem, hid, htrace⟩

/-- At most one start and one end an admission, nothing after the end, and a requested stop ends
as stopped. -/
structure LifeCycle (events : List AttemptEvent) : Prop where
  startedOnce : ∀ id, (eventsOf id events).countP (fun event => decide (event.eventType = .started)) ≤ 1
  terminalOnce : ∀ id,
    (eventsOf id events).countP (fun event => decide (event.eventType = .terminal)) ≤ 1
  nothingAfter : ∀ front event back, events = front ++ event :: back →
    event.eventType = .terminal → ∀ later ∈ back, later.admissionId ≠ event.admissionId
  stoppedOnly : ∀ front event back request, events = front ++ event :: back →
    event.eventType = .terminal → request ∈ front → request.admissionId = event.admissionId →
    request.eventType = .stopRequested → event.payload.outcome = some .stopped

theorem initialStates_event (h : (initialStates entries).get id = some state) :
    state.event = none := by
  induction entries using List.reverseRecOn with
  | nil => cases h
  | append_singleton entries entry ih =>
    rw [initialStates_append] at h
    by_cases hid : id = entry.admissionId
    · rw [hid, get_set_self] at h
      cases h
      rfl
    · rw [get_set_of_ne _ _ hid] at h
      exact ih h

section

variable (h : attemptStates entries events = .ok states)
include h

theorem attemptStates_event (hget : states.get id = some state) (hevent : state.event =
  some event) : event ∈ eventsOf id events ∧ ∃ prior, transition prior event = .ok state.state := by
  induction events using List.reverseRecOn generalizing states state with
  | nil =>
    cases h
    rw [initialStates_event hget] at hevent
    cases hevent
  | append_singleton events last ih =>
    rw [attemptStates, foldlM_append, bind_ok] at h
    obtain ⟨before, hbefore, hlast⟩ := h
    rw [foldlM_cons, bind_ok] at hlast
    obtain ⟨after, hafter, hstates⟩ := hlast
    cases hstates
    obtain ⟨prior, next, -, hnext, rfl⟩ := replayEvent_ok hafter
    by_cases hid : id = last.admissionId
    · rw [hid, get_set_self] at hget
      cases hget
      cases hevent
      exact ⟨by simp [eventsOf, hid], prior.state, hnext⟩
    · rw [get_set_of_ne _ _ hid] at hget
      obtain ⟨hmem, hled⟩ := ih hbefore hget hevent
      refine ⟨?_, hled⟩
      simp only [eventsOf, filter_append, mem_append]
      exact Or.inl hmem

theorem attemptStates_trace (hmem : event ∈ events) :
    ∃ last, trace .admitted (eventsOf event.admissionId events) = .ok last := by
  obtain ⟨first, hfirst⟩ := Option.isSome_iff_exists.mp (replay_known h event hmem)
  obtain ⟨found, -, -, htrace⟩ := replay_get h hfirst
  rw [(get_initialStates hfirst).1] at htrace
  exact ⟨found.state, htrace⟩

theorem lifeCycle_of_replay : LifeCycle events := by
  have htrace : ∀ id, ∃ last, trace .admitted (eventsOf id events) = .ok last := by
    intro id
    cases hevents : eventsOf id events with
    | nil => exact ⟨.admitted, rfl⟩
    | cons event rest =>
      have hmem : event ∈ eventsOf id events := by simp [hevents]
      obtain ⟨hmem, hid⟩ := mem_filter.mp hmem
      have hfound := attemptStates_trace h hmem
      rwa [beq_iff_eq.mp hid, hevents] at hfound
  have hsplit : ∀ {front back : List AttemptEvent} {event : AttemptEvent},
      events = front ++ event :: back → eventsOf event.admissionId events =
        eventsOf event.admissionId front ++ event :: eventsOf event.admissionId back := by
    rintro front back event rfl
    simp [eventsOf]
  constructor
  · intro id
    exact trace_started_once (htrace id).choose_spec
  · intro id
    exact trace_terminal_once (htrace id).choose_spec
  · intro front event back heq htype later hlater hid
    obtain ⟨last, hlast⟩ := htrace event.admissionId
    rw [hsplit heq] at hlast
    have hnil := trace_after_terminal hlast htype
    have hmem : later ∈ eventsOf event.admissionId back :=
      mem_filter.mpr ⟨hlater, beq_iff_eq.mpr hid⟩
    rw [hnil] at hmem
    exact absurd hmem not_mem_nil
  · intro front event back request heq htype hrequest hid hstop
    obtain ⟨last, hlast⟩ := htrace event.admissionId
    rw [hsplit heq] at hlast
    exact trace_after_request hlast htype (mem_filter.mpr ⟨hrequest, beq_iff_eq.mpr hid⟩) hstop

end

end

end Flowness.OssHarness
