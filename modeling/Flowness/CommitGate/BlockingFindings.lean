import Flowness.CommitGate.VerdictVeto
import Flowness.Library.Since

/-!
What the events of a finding say of it, and of the verdict that is folded from them. A finding blocks
while its last verification confirms it and nothing resolves it.
-/

namespace Flowness.CommitGate

open List Library Schemas Ledger Dict

def FindingEvent.Is (event : FindingEvent) (eventType : EventType) (findingId : String) : Prop :=
  event.names findingId ∧ event.eventType = eventType

/-- The last verification of the finding comes to this state. -/
def LastVerified (events : List FindingEvent) (findingId verificationState : String) : Prop :=
  Since events
    (fun _ event => event.Is .findingVerified findingId ∧
      event.verificationState = .str verificationState)
    fun event => event.Is .findingVerified findingId ∧
      event.verificationState ≠ .str verificationState

def Resolved (events : List FindingEvent) (findingId : String) : Prop :=
  Since events (fun _ event => event.Is .findingResolved findingId)
    fun event => event.Is .findingVerified findingId ∨ event.Is .findingDisputed findingId

/-- A finding that is created with no severity counts as a failing one. -/
def FailingSeverity (events : List FindingEvent) (findingId : String) : Prop :=
  (∀ event ∈ events, event.Is .findingCreated findingId → event.severity = .null) ∨
    ∃ event ∈ events, event.Is .findingCreated findingId ∧ event.severity ≠ .null ∧
      failSeverityFloor ≤ sevRank event.severity

structure Blocks (events : List FindingEvent) (findingId : String) : Prop where
  confirmed : LastVerified events findingId "verified"
  unresolved : ¬Resolved events findingId
  failing : FailingSeverity events findingId

/-- Resolved after some verification, or dismissed by the last one. -/
def Settled (events : List FindingEvent) (findingId : String) : Prop :=
  (Resolved events findingId ∧ ∃ event ∈ events, event.Is .findingVerified findingId) ∨
    (Since events (fun _ event => event.Is .findingVerified findingId)
        (fun event => event.Is .findingDisputed findingId ∨ event.Is .findingResolved findingId) ∧
      LastVerified events findingId "rejected_false_positive")

def AllSettled (events : List FindingEvent) : Prop :=
  ∀ findingId, (∃ event ∈ events, event.names findingId) → Settled events findingId

/-- When the last of the events comes, some finding blocks. -/
def BlockedBeforeLast (events : List FindingEvent) : Prop :=
  ∃ findingId, Blocks events.dropLast findingId

def foldedState (events : List FindingEvent) (findingId : String) : FindingState :=
  (Dict.get (foldStates events) findingId).getD {}

section

variable {events : List FindingEvent} {event : FindingEvent} {findingId : String}
  {state : FindingState}

theorem foldedState_of_names (h : event.names findingId) (events : List FindingEvent) :
    foldedState (events ++ [event]) findingId = (foldedState events findingId).apply event := by
  unfold foldedState
  rw [foldStates_append, foldl_cons, foldl_nil, get_applyEvent_of_names h]
  rfl

theorem foldedState_of_not_names (h : ¬event.names findingId) (events : List FindingEvent) :
    foldedState (events ++ [event]) findingId = foldedState events findingId := by
  unfold foldedState
  rw [foldStates_append, foldl_cons, foldl_nil, get_applyEvent_of_not_names h]

section

variable (state : FindingState) (event : FindingEvent)

theorem verificationState_apply : (state.apply event).verificationState =
      if event.eventType = .findingVerified then event.verificationState
      else state.verificationState := by
  unfold FindingState.apply
  split
  next htype =>
    rw [htype]
    split_ifs <;> first | contradiction | rfl
  all_goals simp_all

theorem everVerified_apply : (state.apply event).everVerified =
      if event.eventType = .findingVerified then true else state.everVerified := by
  unfold FindingState.apply
  split
  next htype =>
    rw [htype]
    split_ifs <;> first | contradiction | rfl
  all_goals simp_all

theorem lifecycle_apply : (state.apply event).lifecycle =
      if event.eventType = .findingVerified then .verified
      else if event.eventType = .findingDisputed then .disputed
      else if event.eventType = .findingResolved then .resolved
      else state.lifecycle := by
  unfold FindingState.apply
  split
  next htype =>
    rw [htype]
    split_ifs <;> first | contradiction | rfl
  all_goals simp_all

theorem severity_apply : (state.apply event).severity =
      if event.eventType = .findingCreated ∧ event.severity ≠ .null ∧
          (state.severity = .null ∨ sevRank state.severity < sevRank event.severity) then
        event.severity
      else state.severity := by
  unfold FindingState.apply
  split
  next htype =>
    split_ifs <;> simp_all
  all_goals simp_all

end

theorem lastVerified_iff (events : List FindingEvent) (findingId verificationState : String) :
    (foldedState events findingId).verificationState = .str verificationState ↔
      LastVerified events findingId verificationState := by
  induction events using List.reverseRecOn with
  | nil => exact iff_of_false (fun h => by cases h) since_nil
  | append_singleton events event ih =>
    rw [LastVerified, since_snoc, ← LastVerified, ← ih]
    by_cases hnames : event.names findingId
    · rw [foldedState_of_names hnames, verificationState_apply]
      by_cases htype : event.eventType = .findingVerified
      · simp [FindingEvent.Is, hnames, htype]
      · simp [FindingEvent.Is, htype]
    · rw [foldedState_of_not_names hnames]
      simp [FindingEvent.Is, hnames]

section

variable (events : List FindingEvent) (findingId : String)

theorem lifecycle_resolved_iff :
    (foldedState events findingId).lifecycle = .resolved ↔ Resolved events findingId := by
  induction events using List.reverseRecOn with
  | nil => exact iff_of_false (fun h => by cases h) since_nil
  | append_singleton events event ih =>
    rw [Resolved, since_snoc, ← Resolved, ← ih]
    by_cases hnames : event.names findingId
    · rw [foldedState_of_names hnames, lifecycle_apply]
      split_ifs with hverified hdisputed hresolved
      all_goals simp_all [FindingEvent.Is]
    · rw [foldedState_of_not_names hnames]
      simp [FindingEvent.Is, hnames]

theorem lifecycle_verified_iff : (foldedState events findingId).lifecycle = .verified ↔
      Since events (fun _ event => event.Is .findingVerified findingId)
        fun event => event.Is .findingDisputed findingId ∨ event.Is .findingResolved findingId := by
  induction events using List.reverseRecOn with
  | nil => exact iff_of_false (fun h => by cases h) since_nil
  | append_singleton events event ih =>
    rw [since_snoc, ← ih]
    by_cases hnames : event.names findingId
    · rw [foldedState_of_names hnames, lifecycle_apply]
      split_ifs with hverified hdisputed hresolved
      all_goals simp_all [FindingEvent.Is]
    · rw [foldedState_of_not_names hnames]
      simp [FindingEvent.Is, hnames]

theorem everVerified_iff : (foldedState events findingId).everVerified = true ↔
      ∃ event ∈ events, event.Is .findingVerified findingId := by
  induction events using List.reverseRecOn with
  | nil => simp [foldedState, foldStates, Dict.get]
  | append_singleton events event ih =>
    simp only [mem_append, mem_singleton, or_and_right, exists_or, ← ih]
    by_cases hnames : event.names findingId
    · rw [foldedState_of_names hnames, everVerified_apply]
      split_ifs with hverified
      · simp [FindingEvent.Is, hnames, hverified]
      · simp [FindingEvent.Is, hverified]
    · rw [foldedState_of_not_names hnames]
      simp [FindingEvent.Is, hnames]

theorem severity_null_iff : (foldedState events findingId).severity = .null ↔
      ∀ event ∈ events, event.Is .findingCreated findingId → event.severity = .null := by
  induction events using List.reverseRecOn with
  | nil => simp [foldedState, foldStates, Dict.get]
  | append_singleton events event ih =>
    simp only [mem_append, mem_singleton, or_imp, forall_and, forall_eq, ← ih]
    by_cases hnames : event.names findingId
    · rw [foldedState_of_names hnames, severity_apply]
      split_ifs with hraises
      · simp [FindingEvent.Is, hnames, hraises.1, hraises.2.1]
      · simp only [FindingEvent.Is, hnames, true_and]
        tauto
    · rw [foldedState_of_not_names hnames]
      simp [FindingEvent.Is, hnames]

theorem failing_iff : failSeverityFloor ≤ sevRank (foldedState events findingId).severity ↔
      FailingSeverity events findingId := by
  induction events using List.reverseRecOn with
  | nil =>
    have hfloor : failSeverityFloor ≤ sevRank .null := by decide
    exact iff_of_true hfloor (.inl fun event hevent => by cases hevent)
  | append_singleton events event ih =>
    have hnull := severity_null_iff events findingId
    unfold FailingSeverity at ih ⊢
    simp only [mem_append, mem_singleton, or_imp, forall_and, forall_eq, or_and_right,
      exists_or, exists_eq_left, ← hnull] at ih ⊢
    have hbelow : (∃ other ∈ events, other.Is .findingCreated findingId ∧ other.severity ≠ .null ∧
        failSeverityFloor ≤ sevRank other.severity) → (foldedState events findingId).severity ≠ .null := by
      intro hother hsame
      obtain ⟨other, hmem, hcreated, hsome, -⟩ := hother
      exact hsome (hnull.mp hsame other hmem hcreated)
    generalize (∃ other ∈ events, other.Is .findingCreated findingId ∧ other.severity ≠ .null ∧
        failSeverityFloor ≤ sevRank other.severity) = earlier at ih hbelow ⊢
    by_cases hcreated : event.Is .findingCreated findingId
    · rw [foldedState_of_names hcreated.1, severity_apply]
      simp only [hcreated, hcreated.2, true_and]
      generalize (foldedState events findingId).severity = severity at ih hbelow ⊢
      by_cases hnone : event.severity = .null
      · simp [hnone, ih]
      · by_cases hfirst : severity = .null
        · have hnothing : ¬earlier := fun h => hbelow h hfirst
          simp [hnone, hfirst, hnothing]
        · simp only [hnone, hfirst, false_or, false_and, ne_eq, not_false_eq_true, true_and] at ih ⊢
          rw [← ih]
          split_ifs with hraises
          · omega
          · omega
    · have hsame : (foldedState (events ++ [event]) findingId).severity =
          (foldedState events findingId).severity := by
        by_cases hnames : event.names findingId
        · rw [foldedState_of_names hnames, severity_apply]
          exact if_neg fun h => hcreated ⟨hnames, h.1⟩
        · rw [foldedState_of_not_names hnames]
      rw [hsame]
      simp [hcreated, ih]

theorem vetoes_iff : Vetoes events findingId ↔ Blocks events findingId := by
  have hstate : Vetoes events findingId ↔
      (foldedState events findingId).isUnresolvedVerifiedFail = true := by
    unfold Vetoes foldedState
    cases Dict.get (foldStates events) findingId with
    | none => simp [FindingState.isUnresolvedVerifiedFail]
    | some state => simp
  rw [hstate]
  unfold FindingState.isUnresolvedVerifiedFail
  rw [decide_eq_true_eq, lastVerified_iff, failing_iff, Ne, lifecycle_resolved_iff]
  constructor
  · intro h
    exact ⟨h.2.1, h.1, h.2.2⟩
  · intro h
    exact ⟨h.unresolved, h.confirmed, h.failing⟩

theorem isTerminal_foldedState_iff :
    (foldedState events findingId).isTerminal = true ↔ Settled events findingId := by
  unfold FindingState.isTerminal Settled
  have hresolved := lifecycle_resolved_iff events findingId
  have hverified := lifecycle_verified_iff events findingId
  rw [← hresolved, ← hverified, ← everVerified_iff, ← lastVerified_iff]
  split_ifs with h
  · simp [h]
  · simp [h]

theorem get_foldStates_isSome_iff : (Dict.get (foldStates events) findingId).isSome = true ↔
      ∃ event ∈ events, event.names findingId := by
  induction events using List.reverseRecOn with
  | nil => simp [foldStates, Dict.get]
  | append_singleton events event ih =>
    simp only [mem_append, mem_singleton, or_and_right, exists_or, ← ih]
    rw [foldStates_append, foldl_cons, foldl_nil]
    by_cases hnames : event.names findingId
    · rw [get_applyEvent_of_names hnames]
      simp [hnames]
    · rw [get_applyEvent_of_not_names hnames]
      simp [hnames]

end

end

/-- When the last of the events comes, some finding vetoes. -/
def VetoedBeforeLast (events : List FindingEvent) : Prop :=
  ∃ findingId, Vetoes events.dropLast findingId

def AllTerminal (events : List FindingEvent) : Prop :=
  ∀ findingId state, Dict.get (foldStates events) findingId = some state → state.isTerminal = true

theorem vetoedBeforeLast_iff (events : List FindingEvent) :
    VetoedBeforeLast events ↔ BlockedBeforeLast events := by
  unfold VetoedBeforeLast BlockedBeforeLast
  simp only [vetoes_iff]

theorem allTerminal_iff (events : List FindingEvent) : AllTerminal events ↔ AllSettled events := by
  unfold AllSettled
  simp only [← get_foldStates_isSome_iff, ← isTerminal_foldedState_iff, foldedState]
  apply forall_congr'
  intro findingId
  cases Dict.get (foldStates events) findingId with
  | none => simp
  | some state => simp

/-- A verdict that follows from what the events leave behind and from what the last of them met. -/
structure Judged (events : List FindingEvent) (verdict : Verdict) : Prop where
  vetoed : (∃ findingId, Vetoes events findingId) → verdict = .failed
  lifted : (¬∃ findingId, Vetoes events findingId) → VetoedBeforeLast events → verdict = .pending
  terminal : (¬∃ findingId, Vetoes events findingId) → ¬VetoedBeforeLast events →
    AllTerminal events → verdict = .passed
  unsettled : (¬∃ findingId, Vetoes events findingId) → ¬VetoedBeforeLast events →
    ¬AllTerminal events → verdict = .pending

section

variable {events : List FindingEvent}

section

variable (events : List FindingEvent)

theorem nodup_foldStates : (foldStates events).keys.Nodup := by
  induction events using List.reverseRecOn with
  | nil => exact nodup_nil
  | append_singleton events event ih =>
    rw [foldStates_append, foldl_cons]
    unfold applyEvent
    split
    · exact ih
    · exact nodup_keys_set ih _ _

theorem any_fail_iff : (foldStates events).any (·.2.isUnresolvedVerifiedFail) = true ↔
      ∃ findingId, Vetoes events findingId := by
  rw [any_eq_true]
  constructor
  · intro h
    obtain ⟨entry, hentry, hfail⟩ := h
    exact ⟨entry.1, entry.2, (mem_iff_get (nodup_foldStates events)).mp hentry, hfail⟩
  · intro h
    obtain ⟨findingId, state, hget, hfail⟩ := h
    exact ⟨(findingId, state), mem_of_get hget, hfail⟩

theorem all_terminal_iff :
    (foldStates events).all (·.2.isTerminal) = true ↔ AllTerminal events := by
  rw [all_eq_true]
  constructor
  · intro h findingId state hget
    exact h (findingId, state) (mem_of_get hget)
  · intro h entry hentry
    exact h entry.1 entry.2 ((mem_iff_get (nodup_foldStates events)).mp hentry)

theorem folded_failed_iff :
    (events.foldl foldStep ([], .pending)).2 = .failed ↔ ∃ findingId, Vetoes events findingId := by
  rw [← any_fail_iff]
  induction events using List.reverseRecOn with
  | nil => simp [foldStates]
  | append_singleton events event ih =>
    have hstates : (foldStep (events.foldl foldStep ([], .pending)) event).1 =
        foldStates (events ++ [event]) := by
      rw [foldStates_append]
      exact congrArg (applyEvent · event) (foldl_foldStep _ _)
    rw [foldl_append, foldl_cons, foldl_nil, ← hstates]
    unfold foldStep nextVerdict
    dsimp only
    split_ifs with hfail
    all_goals simp [hfail]

end

theorem foldStates_ne_nil {front : List FindingEvent} {findingId : String}
    (h : Vetoes front findingId) (last : FindingEvent) : foldStates (front ++ [last]) ≠ [] := by
  obtain ⟨state, hget, -⟩ := h
  rw [foldStates_append, foldl_cons, foldl_nil]
  unfold applyEvent
  split
  · intro hnil
    rw [hnil] at hget
    cases hget
  next other _ =>
    intro hnil
    have hkey := get_set_self (foldStates front) other
      (((Dict.get (foldStates front) other).getD {}).apply last)
    rw [hnil] at hkey
    cases hkey

theorem judged (env : VerdictEnv) (events : List FindingEvent) :
    Judged (events.insertionSort (foldsBefore env)) (foldReviewVerdict env events) := by
  unfold foldReviewVerdict
  dsimp only
  generalize events.insertionSort (foldsBefore env) = ordered
  have hstates : (ordered.foldl foldStep ([], .pending)).1 = foldStates ordered := foldl_foldStep _ _
  rw [hstates]
  have hfail := any_fail_iff ordered
  have hterminal := all_terminal_iff ordered
  rcases eq_nil_or_concat' ordered with rfl | ⟨front, last, rfl⟩
  · have hnone : ¬∃ findingId, Vetoes [] findingId := by
      rw [← any_fail_iff]
      simp [foldStates]
    refine ⟨fun h => absurd h hnone, fun _ h => absurd h hnone, fun _ _ _ => rfl, ?_⟩
    intro _ _ h
    exact absurd (fun findingId state hget => by cases hget) h
  · have hbefore : VetoedBeforeLast (front ++ [last]) ↔
        (front.foldl foldStep ([], .pending)).2 = .failed := by
      rw [folded_failed_iff, VetoedBeforeLast, dropLast_concat]
    have hsome : VetoedBeforeLast (front ++ [last]) → foldStates (front ++ [last]) ≠ [] := by
      intro h
      rw [VetoedBeforeLast, dropLast_concat] at h
      obtain ⟨findingId, hvetoes⟩ := h
      exact foldStates_ne_nil hvetoes last
    have hverdict : ((front ++ [last]).foldl foldStep ([], .pending)).2 =
        nextVerdict (front.foldl foldStep ([], .pending)).2 (foldStates (front ++ [last])) := by
      rw [← hstates, foldl_append, foldl_cons, foldl_nil]
      rfl
    rw [hverdict]
    generalize (front.foldl foldStep ([], .pending)).2 = before at hbefore ⊢
    generalize foldStates (front ++ [last]) = states at hfail hterminal hsome ⊢
    unfold nextVerdict
    refine ⟨fun hvetoes => ?_, fun hnone hlifted => ?_, fun hnone hkept hall => ?_,
      fun hnone hkept hopen => ?_⟩
    · have hany := hfail.mpr hvetoes
      have hne : states ≠ [] := by
        intro hnil
        rw [hnil] at hany
        cases hany
      rw [if_neg hne, if_pos hany]
    · rw [if_neg (hsome hlifted), if_neg (fun hany => hnone (hfail.mp hany)),
        if_pos (hbefore.mp hlifted)]
    · rw [if_neg (fun hany => hnone (hfail.mp hany)), if_neg (fun h => hkept (hbefore.mpr h)),
        if_pos (hterminal.mpr hall), ite_self]
    · have hne : states ≠ [] := by
        intro hnil
        rw [hnil] at hterminal
        exact hopen (hterminal.mp rfl)
      rw [if_neg hne, if_neg (fun hany => hnone (hfail.mp hany)),
        if_neg (fun h => hkept (hbefore.mpr h)), if_neg (fun h => hopen (hterminal.mp h))]

theorem Judged.eq_iff {others : List FindingEvent} {verdict other : Verdict}
    (h : Judged events verdict) (hother : Judged others other)
    (hvetoes : (∃ findingId, Vetoes events findingId) ↔ ∃ findingId, Vetoes others findingId)
    (hterminal : AllTerminal events ↔ AllTerminal others) :
    verdict = other ↔ (∃ findingId, Vetoes others findingId) ∨ ¬AllTerminal others ∨
      (VetoedBeforeLast others ↔ VetoedBeforeLast events) := by
  by_cases hveto : ∃ findingId, Vetoes others findingId
  · rw [h.vetoed (hvetoes.mpr hveto), hother.vetoed hveto]
    exact iff_of_true rfl (.inl hveto)
  · have hnone : ¬∃ findingId, Vetoes events findingId := fun hv => hveto (hvetoes.mp hv)
    by_cases hall : AllTerminal others
    · have hall' := hterminal.mpr hall
      by_cases hfirst : VetoedBeforeLast events
      · rw [h.lifted hnone hfirst]
        by_cases hsecond : VetoedBeforeLast others
        · rw [hother.lifted hveto hsecond]
          simp [hfirst, hsecond]
        · rw [hother.terminal hveto hsecond hall]
          simp [hveto, hall, hfirst, hsecond]
      · rw [h.terminal hnone hfirst hall']
        by_cases hsecond : VetoedBeforeLast others
        · rw [hother.lifted hveto hsecond]
          simp [hveto, hall, hfirst, hsecond]
        · rw [hother.terminal hveto hsecond hall]
          simp [hfirst, hsecond]
    · have hopen : verdict = .pending := by
        by_cases hfirst : VetoedBeforeLast events
        · exact h.lifted hnone hfirst
        · exact h.unsettled hnone hfirst fun hv => hall (hterminal.mp hv)
      have hopenOther : other = .pending := by
        by_cases hsecond : VetoedBeforeLast others
        · exact hother.lifted hveto hsecond
        · exact hother.unsettled hveto hsecond hall
      rw [hopen, hopenOther]
      exact iff_of_true rfl (.inr (.inl hall))

end

end Flowness.CommitGate
