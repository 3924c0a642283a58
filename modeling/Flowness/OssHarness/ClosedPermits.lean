import Flowness.OssHarness.AttemptRuns
import Flowness.OssHarness.RoleExecution

/-!
The permit of one role from its claim to its settlement, among the calls of others. A permit under way
stays under way until it is settled or recovered; the settlement that the execution asks for then
succeeds, and no event of the permit follows it.
-/

namespace Flowness.OssHarness

open List Library

def ControlCall.ends (id : String) : ControlCall → Bool
  | .settleAttempt _ _ admissionId .. => admissionId == id
  | .recoverAttempt _ admissionId .. => admissionId == id
  | _ => false

/-- The calls of others: a stop request of the permit is one of them. -/
def OtherCall (hashes : ControlHashes) (id : String) (state : ControlState) (call : ControlCall) :
    Prop :=
  CollisionFree hashes state call ∧ call.ends id = false

def terminals (id : String) (events : List AttemptEvent) : List AttemptEvent :=
  (eventsOf id events).filter (fun event => decide (event.eventType = .terminal))

def settleExecution (hashes : ControlHashes) (authority : Authority) (now id : String)
    (state : ControlState) : Except Raised Settlement → ControlState
  | .error _ => state
  | .ok settlement =>
    match settleAttempt hashes (some authority) now state.entries state.events id
      (some settlement.outcome) settlement.reasonCode settlement.executionRecord []
      settlement.retestRequired with
    | .ok event => { state with events := state.events ++ [event] }
    | .error _ => state

/-- A permit was closed once, and as completed only after a validated result. -/
def ClosedOnce (launch : Launch) (id : String) (events : List AttemptEvent) : Prop :=
  ∃ event, terminals id events = [event] ∧
    (event.payload.outcome = some .completed → Validated launch)

structure UnderWay (hashes : ControlHashes) (policyHash id : String) (state : ControlState) : Prop where
  sound : ControlSound hashes state
  admitted : ∃ first, (initialStates state.entries).get id = some first ∧
    first.entry.policyHash = policyHash
  flying : ∃ last, trace .admitted (eventsOf id state.events) = .ok last ∧
    (last = .inFlight ∨ last = .stopRequested)

section

variable {hashes : ControlHashes} {authority : Authority} {policyHash id now : String}
  {state next : ControlState} {event : AttemptEvent} {events : List AttemptEvent}
  {binding : RunBinding} {launch : Launch}

@[simp] theorem eventsOf_snoc_self (h : event.admissionId = id) :
    eventsOf id (events ++ [event]) = eventsOf id events ++ [event] := by
  simp [eventsOf, h]

@[simp] theorem eventsOf_snoc_of_ne (h : event.admissionId ≠ id) :
    eventsOf id (events ++ [event]) = eventsOf id events := by
  simp [eventsOf, h]

theorem terminals_nil (htrace : trace .admitted (eventsOf id events) = .ok last)
    (hflying : last = .inFlight ∨ last = .stopRequested) : terminals id events = [] := by
  apply filter_eq_nil_iff.mpr
  intro event hmem htype
  obtain ⟨front, back, hsplit⟩ := append_of_mem hmem
  rw [hsplit] at htrace
  have htype : event.eventType = .terminal := by simpa using htype
  have hback := trace_after_terminal htrace htype
  subst hback
  obtain ⟨middle, -, hmiddle⟩ := trace_append.mp htrace
  obtain ⟨ended, hended, hlast⟩ := trace_cons.mp hmiddle
  obtain ⟨outcome, -, rfl, -⟩ := transition_terminal hended htype
  cases hlast
  simp at hflying

theorem findState_trace (h : findState state.entries state.events id = .ok found)
    (htrace : trace .admitted (eventsOf id state.events) = .ok last) : found.state = last := by
  obtain ⟨states, hstates, hget⟩ := findState_ok h
  have hfound := (attemptStates_get hstates hget).2.2
  rw [hfound] at htrace
  exact Except.ok.inj htrace

theorem decideCall_terminal (hother : call.ends id = false)
    (h : decideCall hashes state call = .ok (.event event)) (hid : event.admissionId = id)
    (htype : event.eventType = .terminal) :
    ∃ found, findState state.entries state.events id = .ok found ∧ found.state = .admitted := by
  cases call with
  | admitWork authority now card =>
    cases authority with
    | none => cases h
    | some authority =>
      simp only [decideCall, bind_ok] at h
      obtain ⟨admission, -, h⟩ := h
      cases admission <;> cases h
  | claimAttempt authority now admissionId binding =>
    simp only [decideCall, bind_ok] at h
    obtain ⟨event, hevent, h⟩ := h
    cases h
    simp only [claimAttempt, bind_ok] at hevent
    obtain ⟨-, -, -, -, -, -, -, -, -, -, happend⟩ := hevent
    rw [(appendAttempt_ok happend).2.1] at htype
    contradiction
  | requestStop authority now admissionId reasonCode evidence =>
    simp only [decideCall, bind_ok] at h
    obtain ⟨event, hevent, h⟩ := h
    cases h
    simp only [requestStop, bind_ok] at hevent
    obtain ⟨-, -, found, hfound, -, -, hstop⟩ := hevent
    obtain ⟨hadmitted, happend⟩ | ⟨-, happend⟩ := stopByState_ok hstop
    · rw [← hid, (appendAttempt_ok happend).1]
      exact ⟨found, hfound, hadmitted⟩
    · rw [(appendAttempt_ok happend).2.1] at htype
      contradiction
  | settleAttempt authority now admissionId outcome reasonCode executionRecord evidence retest =>
    simp only [decideCall, bind_ok] at h
    obtain ⟨event, hevent, h⟩ := h
    cases h
    simp only [settleAttempt, bind_ok] at hevent
    obtain ⟨-, -, -, -, found, -, -, -, -, -, hevent⟩ := hevent
    split at hevent
    · cases hevent
    · simp [ControlCall.ends, ← hid, (appendAttempt_ok hevent).1] at hother
  | recoverAttempt now admissionId startedEventHash reasonCode evidence outcome =>
    simp only [decideCall, bind_ok] at h
    obtain ⟨event, hevent, h⟩ := h
    cases h
    simp only [recoverAttempt, bind_ok] at hevent
    obtain ⟨-, -, -, -, -, -, found, -, -, -, binding, -, hevent⟩ := hevent
    simp [ControlCall.ends, ← hid, (appendAttempt_ok hevent).1] at hother

theorem UnderWay.of_claim (hsound : ControlSound hashes state)
    (h : claimAttempt hashes (some authority) now state.entries state.events id binding = .ok event) :
    UnderWay hashes authority.policyHash id { state with events := state.events ++ [event] } := by
  have happended := claimAttempt_appended h
  simp only [claimAttempt, bind_ok, require_ok, exists_const, decide_eq_true_eq] at h
  obtain ⟨-, found, hfound, hpolicy, -, -, hadmitted, h⟩ := h
  obtain ⟨hid, htype, -⟩ := appendAttempt_ok h
  obtain ⟨states, hstates, hget⟩ := findState_ok hfound
  obtain ⟨hmem, hentryId, htrace⟩ := attemptStates_get hstates hget
  refine ⟨hsound.append happended, ?_, .inFlight, ?_, .inl rfl⟩
  · obtain ⟨first, hfirst⟩ := Option.isSome_iff_exists.mp (isSome_initialStates hmem)
    rw [hentryId] at hfirst
    obtain ⟨other, hother, hentry, -⟩ := replay_get hstates hfirst
    rw [hget] at hother
    cases hother
    refine ⟨first, hfirst, ?_⟩
    simpa [← hentry] using hpolicy
  · rw [eventsOf_snoc_self hid]
    refine trace_append.mpr ⟨found.state, htrace, trace_cons.mpr ⟨.inFlight, ?_, rfl⟩⟩
    simp [transition, htype, hadmitted]

theorem UnderWay.append (h : UnderWay hashes policyHash id state) (happended : Appended hashes now state event)
    (hopen : event.admissionId = id → event.eventType ≠ .terminal) :
    UnderWay hashes policyHash id { state with events := state.events ++ [event] } := by
  refine ⟨h.sound.append happended, h.admitted, ?_⟩
  obtain ⟨last, htrace, hflying⟩ := h.flying
  by_cases hid : event.admissionId = id
  · obtain ⟨states, found, after, hstates, hget, hlegal⟩ := happended.legal
    rw [hid] at hget
    have hstate := findState_trace (findState_iff.mpr ⟨states, hstates, hget⟩) htrace
    rw [hstate] at hlegal
    -- a second start is illegal, so that the event asks to stop
    have hasked : after = .stopRequested := by
      cases htype : event.eventType with
      | started =>
        have hadmitted := (transition_started hlegal htype).1
        simp [hadmitted] at hflying
      | stopRequested => exact (transition_stopRequested hlegal htype).2
      | terminal => exact absurd htype (hopen hid)
    refine ⟨after, ?_, .inr hasked⟩
    rw [eventsOf_snoc_self hid]
    exact trace_append.mpr ⟨last, htrace, trace_cons.mpr ⟨after, hlegal, rfl⟩⟩
  · refine ⟨last, ?_, hflying⟩
    rwa [eventsOf_snoc_of_ne hid]

theorem UnderWay.step (h : UnderWay hashes policyHash id state)
    (hother : OtherCall hashes id state call) (hstep : controlStep hashes state call = some next) :
    UnderWay hashes policyHash id next := by
  have hsound := h.sound.step hother.1 hstep
  unfold controlStep at hstep
  split at hstep
  next written hwritten =>
    cases hstep
    obtain ⟨authority, now, card, entry, rfl, -, rfl⟩ | ⟨now, event, happended, rfl⟩ | rfl :=
      decideCall_ok hwritten
    · obtain ⟨first, hfirst, hpolicy⟩ := h.admitted
      refine ⟨hsound, ⟨first, ?_, hpolicy⟩, h.flying⟩
      -- the admission ids stay distinct, so that the new entry is another one
      have hne : id ≠ entry.admissionId := by
        intro hid
        obtain ⟨-, hmem, hfirstId⟩ := get_initialStates hfirst
        have hdistinct := hsound.distinct
        simp only [Written.apply, map_append, nodup_append] at hdistinct
        refine hdistinct.2.2 first.entry.admissionId (mem_map_of_mem hmem) entry.admissionId ?_ ?_
        · simp
        · rw [hfirstId, hid]
      simp only [Written.apply, initialStates_append, Dict.get_set_of_ne _ _ hne, hfirst]
    · refine h.append happended fun hid htype => ?_
      obtain ⟨last, htrace, hflying⟩ := h.flying
      obtain ⟨found, hfound, hadmitted⟩ := decideCall_terminal hother.2 hwritten hid htype
      have hstate := findState_trace hfound htrace
      simp [← hstate, hadmitted] at hflying
    · exact h
  · cases hstep
    exact h

theorem UnderWay.settles (h : UnderWay hashes authority.policyHash id state) (now : String)
    {settlement : Settlement} (hrecord : settlement.executionRecord.all ArtifactRef.schema = true)
    (hreason : nonEmpty settlement.reasonCode = true) :
    ∃ event, settleAttempt hashes (some authority) now state.entries state.events id
        (some settlement.outcome) settlement.reasonCode settlement.executionRecord []
        settlement.retestRequired = .ok event ∧
      event.admissionId = id ∧ event.eventType = .terminal ∧
      (event.payload.outcome = some .completed → settlement.outcome = .completed ∧
        event.payload.retestRequired = settlement.retestRequired) := by
  obtain ⟨first, hfirst, hpolicy⟩ := h.admitted
  obtain ⟨last, htrace, hflying⟩ := h.flying
  obtain ⟨states, hstates⟩ := h.sound.replays
  obtain ⟨found, hget, hentry, -⟩ := replay_get hstates hfirst
  have hfound : findState state.entries state.events id = .ok found :=
    findState_iff.mpr ⟨states, hstates, hget⟩
  have hstate : found.state = .inFlight ∨ found.state = .stopRequested :=
    findState_trace hfound htrace ▸ hflying
  obtain ⟨hmem, hentryId, hfoundTrace⟩ := attemptStates_get hstates hget
  obtain ⟨started, hstarted⟩ : ∃ started, startedEvent state.events id = some started := by
    obtain ⟨event, hevent, htype⟩ := trace_under_way hfoundTrace
      (by obtain h | h := hstate <;> simp [h]) (by obtain h | h := hstate <;> rw [h] <;> rfl)
    obtain ⟨hin, hid⟩ := mem_filter.mp hevent
    apply Option.isSome_iff_exists.mp
    rw [startedEvent, List.find?_isSome]
    exact ⟨event, mem_reverse.mpr hin, by simp [beq_iff_eq.mp hid, htype]⟩
  have hin : started ∈ state.events := mem_reverse.mp (mem_of_find?_eq_some hstarted)
  have hschema := h.sound.valid started hin
  simp only [AttemptBody.schema, Bool.and_eq_true] at hschema
  let payload : AttemptPayload :=
    { outcome := if found.state = .stopRequested then some .stopped else some settlement.outcome
      reasonCode := settlement.reasonCode, executionRecord := settlement.executionRecord
      evidence := []
      retestRequired := decide (found.state = .stopRequested) || settlement.retestRequired }
  obtain ⟨event, happend⟩ := appendAttempt_terminal hashes now payload hmem hentryId
    hschema.1.1.1.1.2 hschema.1.1.1.2 hreason hrecord rfl
  obtain ⟨hid, htype, hpayload, -⟩ := appendAttempt_ok happend
  refine ⟨event, ?_, hid, htype, ?_⟩
  · simp only [settleAttempt, bind_ok, require_ok, exists_const, decide_eq_true_eq, hstarted]
    exact ⟨rfl, rfl, found, hfound, by simp [hentry, hpolicy], hstate, happend⟩
  · intro hcompleted
    rw [hpayload] at hcompleted ⊢
    dsimp only [payload] at hcompleted ⊢
    split at hcompleted
    · simp at hcompleted
    next hasked =>
      exact ⟨by simpa using hcompleted, by simp [hasked]⟩

theorem terminals_keep (hsound : ControlSound hashes state)
    (hclosed : terminals id state.events ≠ []) (hother : OtherCall hashes id state call)
    (hstep : controlStep hashes state call = some next) :
    terminals id next.events = terminals id state.events := by
  have hkept := hsound.step hother.1 hstep
  unfold controlStep at hstep
  split at hstep
  next written hwritten =>
    cases hstep
    obtain ⟨authority, now, card, entry, rfl, -, rfl⟩ | ⟨now, event, -, rfl⟩ | rfl :=
      decideCall_ok hwritten
    · rfl
    · by_cases hid : event.admissionId = id
      · exfalso
        obtain ⟨ended, hended⟩ := exists_mem_of_ne_nil _ hclosed
        obtain ⟨hmem, htype⟩ := mem_filter.mp hended
        obtain ⟨front, back, hsplit⟩ := append_of_mem hmem
        obtain ⟨states, hstates⟩ := hkept.replays
        have hadded : event ∈ (Written.apply state (.event event)).events := by simp [Written.apply]
        obtain ⟨last, htrace⟩ := attemptStates_trace hstates hadded
        rw [hid, Written.apply, eventsOf_snoc_self hid, hsplit, append_assoc,
          cons_append] at htrace
        have hback := trace_after_terminal htrace (by simpa using htype)
        simp at hback
      · simp only [terminals, Written.apply, eventsOf_snoc_of_ne hid]
    · rfl
  · cases hstep
    rfl

theorem terminals_snoc (hid : event.admissionId = id) (htype : event.eventType = .terminal) :
    terminals id (events ++ [event]) = terminals id events ++ [event] := by
  simp [terminals, eventsOf_snoc_self hid, htype]

section

variable (h : UnderWay hashes authority.policyHash id state) (now : String) {runId roleId : String}
include h

theorem UnderWay.closed (hexecuted : executeRole runId roleId launch = .ok settlement)
    (hlater : Run (controlStep hashes) (OtherCall hashes id)
      (settleExecution hashes authority now id state (executeRole runId roleId launch)) later last)
        : ∃ terminal, ControlSound hashes last ∧ terminals id last.events = [terminal] ∧
      (terminal.payload.outcome = some .completed → settlement.outcome = .completed ∧
        terminal.payload.retestRequired = settlement.retestRequired) := by
  obtain ⟨hrecord, hreason, -⟩ := executeRole_settlement hexecuted
  obtain ⟨terminal, hsettle, hid, htype, houtcome⟩ := h.settles now hrecord hreason
  obtain ⟨status, htrace, hflying⟩ := h.flying
  rw [hexecuted, settleExecution, hsettle] at hlater
  have hlast : ControlSound hashes last ∧ terminals id last.events = [terminal] := by
    refine hlater.invariant (I := fun state => ControlSound hashes state ∧
      terminals id state.events = [terminal]) ⟨?_, ?_⟩ ?_
    · exact h.sound.append (settleAttempt_appended hsettle)
    · rw [terminals_snoc hid htype, terminals_nil htrace hflying, nil_append]
    · intro state call next hkept hother hstep
      refine ⟨hkept.1.step hother.1 hstep, ?_⟩
      rw [terminals_keep hkept.1 (by simp [hkept.2]) hother hstep, hkept.2]
  exact ⟨terminal, hlast.1, hlast.2, houtcome⟩

theorem UnderWay.stranded (hexecuted : executeRole runId roleId launch = .error raised)
    (hlater : Run (controlStep hashes) (OtherCall hashes id)
      (settleExecution hashes authority now id state (executeRole runId roleId launch)) later last)
        : UnderWay hashes authority.policyHash id last := by
  rw [hexecuted] at hlater
  exact hlater.invariant h fun _ _ _ h hother hstep => h.step hother hstep

end

theorem UnderWay.of_run
    (hrun : Run (controlStep hashes) (CollisionFree hashes) ⟨[], []⟩ calls state)
    (hclaim : claimAttempt hashes (some authority) claimed state.entries state.events id binding =
      .ok event)
    (hduring : Run (controlStep hashes) (OtherCall hashes id) { state with events := state.events ++
      [event] } during middle) : UnderWay hashes authority.policyHash id middle := by
  have hsound : ControlSound hashes state :=
    hrun.invariant controlSound_empty fun _ _ _ h hfree hstep => h.step hfree hstep
  exact hduring.invariant (UnderWay.of_claim hsound hclaim) fun _ _ _ h hother hstep =>
    h.step hother hstep

/-- A claimed permit is closed exactly once, as completed only after a validated result, if and only
if nothing is raised past the handlers. -/
theorem claimed_closedOnce_iff {runId roleId claimed settled : String} {calls during later : List ControlCall}
    {middle last : ControlState}
    (hrun : Run (controlStep hashes) (CollisionFree hashes) ⟨[], []⟩ calls state)
    (hclaim : claimAttempt hashes (some authority) claimed state.entries state.events id binding =
      .ok event)
    (hduring : Run (controlStep hashes) (OtherCall hashes id)
      { state with events := state.events ++ [event] } during middle)
    (hlater : Run (controlStep hashes) (OtherCall hashes id)
      (settleExecution hashes authority settled id middle (executeRole runId roleId launch)) later last) :
    ClosedOnce launch id last.events ↔ AllCaught launch := by
  have hmiddle := UnderWay.of_run hrun hclaim hduring
  rw [← executeRole_ok_iff runId roleId launch]
  cases hexecuted : executeRole runId roleId launch with
  | error raised =>
    simp only [reduceCtorEq, exists_false, iff_false]
    obtain ⟨status, htrace, hflying⟩ := (hmiddle.stranded settled hexecuted hlater).flying
    intro hclosed
    obtain ⟨terminal, hterminal, -⟩ := hclosed
    simp [terminals_nil htrace hflying] at hterminal
  | ok settlement =>
    simp only [Except.ok.injEq, exists_eq', iff_true]
    obtain ⟨terminal, -, hterminal, houtcome⟩ := hmiddle.closed settled hexecuted hlater
    exact ⟨terminal, hterminal, fun hdone =>
      (executeRole_settlement hexecuted).2.2 (houtcome hdone).1⟩

end

def writingLaunch (stdout : Bytes) : Launch where
  dryRun := false
  tracesCoverage := false
  writePrompt := .ok ()
  promptEncodes := true
  agent := .exits 0 stdout []
  decodes := fun bytes => (decodeText bytes).isSome
  writeLogs := .ok ()
  resultExists := .ok true
  preserveRaw := .ok ()
  readResult := .ok []
  loads := fun _ => .ok (.obj [])
  checkResult := fun _ => .ok ()
  writeReceipt := .ok ()
  hashReceipt := .ok ⟨"0000000000000000000000000000000000000000000000000000000000000000", by decide⟩

def permitCalls : List ControlCall :=
  [.admitWork (some sampleAuthority) "t0" (judgeCard "first" "truth")]

def permitBinding : RunBinding := ⟨none, none, "W2A", "judge.a"⟩

def permitClaim : AttemptEvent :=
  (controlAfter (permitCalls ++ [.claimAttempt (some sampleAuthority) "t1" "admission first"
    permitBinding])).events.getLast (by decide +kernel)

def claimedPermit : ControlState :=
  let state := controlAfter permitCalls
  { state with events := state.events ++ [permitClaim] }

def stopPermit : ControlCall :=
  .requestStop (some sampleAuthority) "t2" "admission first" "drift" []

instance (hashes : ControlHashes) (id : String) (state : ControlState) (call : ControlCall) :
    Decidable (OtherCall hashes id state call) :=
  inferInstanceAs (Decidable (_ ∧ _))

def stoppedPermit : ControlState :=
  (controlStep sampleControlHashes claimedPermit stopPermit).getD claimedPermit

theorem decodable_stdout_closes :
    AllCaught (writingLaunch [79, 75]) ∧ ClosedOnce (writingLaunch [79, 75]) "admission first"
      (settleExecution sampleControlHashes sampleAuthority "t3" "admission first" stoppedPermit
        (executeRole "run" "judge.a" (writingLaunch [79, 75]))).events := by
  have hcaught : AllCaught (writingLaunch [79, 75]) := by
    apply (executeRole_ok_iff "run" "judge.a" _).mp
    exact ⟨_, rfl⟩
  have hchecked : ∀ state call, decide (CollisionFree sampleControlHashes state call) = true →
      CollisionFree sampleControlHashes state call := fun _ _ h => of_decide_eq_true h
  have hother : ∀ state call,
      decide (OtherCall sampleControlHashes "admission first" state call) = true →
        OtherCall sampleControlHashes "admission first" state call := fun _ _ h => of_decide_eq_true h
  have hrun : Run (controlStep sampleControlHashes) (CollisionFree sampleControlHashes) ⟨[], []⟩
      permitCalls (controlAfter permitCalls) := Run.of_checked hchecked (by decide +kernel)
  have hclaim : claimAttempt sampleControlHashes (some sampleAuthority) "t1"
      (controlAfter permitCalls).entries (controlAfter permitCalls).events "admission first"
        permitBinding = .ok permitClaim := by decide +kernel
  have hduring : Run (controlStep sampleControlHashes) (OtherCall sampleControlHashes "admission first")
      claimedPermit [stopPermit] stoppedPermit := Run.of_checked hother (by decide +kernel)
  exact ⟨hcaught, (claimed_closedOnce_iff hrun hclaim hduring Run.nil).mpr hcaught⟩

/-- An agent that writes one byte that is no text and returns 0: its permit stays in flight. -/
theorem undecodable_stdout_strands :
    claimAttempt sampleControlHashes (some sampleAuthority) "t1" (controlAfter permitCalls).entries
        (controlAfter permitCalls).events "admission first" permitBinding = .ok permitClaim ∧
      executeRole "run" "judge.a" (writingLaunch [255]) = .error .otherError ∧
      terminals "admission first" (settleExecution sampleControlHashes sampleAuthority "t3"
        "admission first" claimedPermit (executeRole "run" "judge.a" (writingLaunch [255]))).events = [] ∧
      ¬ClosedOnce (writingLaunch [255]) "admission first" (settleExecution sampleControlHashes
        sampleAuthority "t3" "admission first" claimedPermit
          (executeRole "run" "judge.a" (writingLaunch [255]))).events := by
  have hraised : executeRole "run" "judge.a" (writingLaunch [255]) = .error .otherError := rfl
  have hstranded : terminals "admission first" claimedPermit.events = [] := by decide +kernel
  rw [hraised]
  refine ⟨by decide +kernel, rfl, hstranded, fun hclosed => ?_⟩
  obtain ⟨terminal, hterminal, -⟩ := hclosed
  rw [settleExecution, hstranded] at hterminal
  cases hterminal

end Flowness.OssHarness
