import Mathlib.Data.List.Induction
import Mathlib.Data.String.Basic
import Flowness.CommitGate.ReviewVerdict

/-!
What a failed verdict can pass through. A confirmed finding vetoes until it is resolved, unless a
later verification rejects it.
-/

namespace Flowness.CommitGate

open List Library Schemas Ledger

def FindingEvent.names (event : FindingEvent) (findingId : String) : Prop :=
  event.findingId.text?.filter (· ≠ "") = some findingId

def FindingEvent.Resolves (event : FindingEvent) (findingId : String) : Prop :=
  event.names findingId ∧ event.eventType = .findingResolved

def FindingEvent.Dismisses (event : FindingEvent) (findingId : String) : Prop :=
  event.names findingId ∧ event.eventType = .findingVerified ∧
    event.verificationState = .str "rejected_false_positive"

def foldStates (events : List FindingEvent) : Dict String FindingState := events.foldl applyEvent []

/-- After these events the finding is confirmed, unresolved and of severity major or above. -/
def Vetoes (events : List FindingEvent) (findingId : String) : Prop :=
  ∃ state, Dict.get (foldStates events) findingId = some state ∧
    state.isUnresolvedVerifiedFail = true

/-- A verdict that has failed passes only over the resolutions of the findings that vetoed it. The
events are in the order of their numbers. -/
def PassesThroughResolution (env : VerdictEnv) (ordered : List FindingEvent) : Prop :=
  ∀ front between rest, ordered = front ++ between ++ rest →
    foldReviewVerdict env front = .failed → foldReviewVerdict env (front ++ between) = .passed →
      ∀ findingId, Vetoes front findingId → ∃ event ∈ between, event.Resolves findingId

/-- No finding that has vetoed and was not resolved since is dismissed. -/
def KeepsVetoes (ordered : List FindingEvent) : Prop :=
  ∀ front since event rest findingId, ordered = front ++ since ++ event :: rest →
    Vetoes front findingId → (∀ later ∈ since, ¬later.Resolves findingId) →
      ¬event.Dismisses findingId

section

variable {env : VerdictEnv} {events between : List FindingEvent} {event : FindingEvent}
  {findingId : String} {state : FindingState}

theorem foldl_foldStep (events : List FindingEvent) (folded : Dict String FindingState × Verdict) :
    (events.foldl foldStep folded).1 = events.foldl applyEvent folded.1 := by
  induction events generalizing folded with
  | nil => rfl
  | cons event events ih => exact ih (foldStep folded event)

theorem foldStates_append (events between : List FindingEvent) :
    foldStates (events ++ between) = between.foldl applyEvent (foldStates events) :=
  foldl_append

theorem foldsBefore_total (env : VerdictEnv) (left right : FindingEvent) :
    foldsBefore env left right ∨ foldsBefore env right left := by
  rcases Nat.lt_trichotomy left.sequenceNumber right.sequenceNumber with hlt | heq | hlt
  · exact .inl (.inl hlt)
  · rcases le_total (env.str left.findingId) (env.str right.findingId) with hle | hle
    · exact .inl (.inr ⟨heq, hle⟩)
    · exact .inr (.inr ⟨heq.symm, hle⟩)
  · exact .inr (.inl hlt)

theorem foldsBefore_trans (env : VerdictEnv) {left middle right : FindingEvent}
    (h : foldsBefore env left middle) (h' : foldsBefore env middle right) :
    foldsBefore env left right := by
  rcases h with hlt | ⟨heq, hle⟩
  · rcases h' with hlt' | ⟨heq', -⟩
    · exact .inl (hlt.trans hlt')
    · exact .inl (heq' ▸ hlt)
  · rcases h' with hlt' | ⟨heq', hle'⟩
    · exact .inl (heq ▸ hlt')
    · exact .inr ⟨heq.trans heq', hle.trans hle'⟩

theorem foldReviewVerdict_of_ordered (h : events.Pairwise (foldsBefore env)) :
    foldReviewVerdict env events =
      if foldStates events = [] then .passed else (events.foldl foldStep ([], .pending)).2 := by
  unfold foldReviewVerdict
  simp only [List.Pairwise.insertionSort_eq h, foldl_foldStep]
  rfl

theorem get_applyEvent_of_names (hnames : event.names findingId) (states : Dict String FindingState) :
    Dict.get (applyEvent states event) findingId =
      some (((Dict.get states findingId).getD {}).apply event) := by
  unfold applyEvent
  rw [hnames]
  exact Dict.get_set_self _ _ _

theorem get_applyEvent_of_not_names (hnames : ¬event.names findingId)
    (states : Dict String FindingState) :
    Dict.get (applyEvent states event) findingId = Dict.get states findingId := by
  unfold applyEvent
  split
  · rfl
  next other hother =>
    refine Dict.get_set_of_ne _ _ fun heq => hnames ?_
    rw [FindingEvent.names, hother, heq]

structure StandingFinding (state : FindingState) : Prop where
  unresolved : state.lifecycle ≠ .resolved
  undismissed : state.lifecycle = .verified → state.verificationState ≠ .str "rejected_false_positive"

theorem StandingFinding.not_isTerminal (h : StandingFinding state) : state.isTerminal = false := by
  unfold FindingState.isTerminal
  rw [if_neg h.unresolved]
  simpa using h.undismissed

theorem standing_of_fail (h : state.isUnresolvedVerifiedFail = true) : StandingFinding state := by
  unfold FindingState.isUnresolvedVerifiedFail at h
  simp only [decide_eq_true_eq] at h
  refine ⟨h.1, fun _ hdismissed => ?_⟩
  rw [h.2.1] at hdismissed
  exact absurd hdismissed (by decide)

theorem StandingFinding.apply (h : StandingFinding state) (hresolves : event.eventType ≠ .findingResolved)
    (hdismisses : event.eventType = .findingVerified →
      event.verificationState ≠ .str "rejected_false_positive") : StandingFinding (state.apply event) := by
  unfold FindingState.apply
  split
  · split
    · exact ⟨h.unresolved, h.undismissed⟩
    · exact h
  next hverified =>
    exact ⟨by simp, fun _ => hdismisses hverified⟩
  · exact ⟨by simp, by simp⟩
  next hresolved =>
    exact absurd hresolved hresolves
  · exact h

theorem standing_after {front : List FindingEvent} (hkeeps : KeepsVetoes (front ++ between))
    (hvetoes : Vetoes front findingId) (hresolved : ∀ event ∈ between, ¬event.Resolves findingId) :
    ∃ state, Dict.get (foldStates (front ++ between)) findingId = some state ∧ StandingFinding state := by
  induction between using List.reverseRecOn with
  | nil =>
    obtain ⟨state, hget, hfail⟩ := hvetoes
    rw [append_nil]
    exact ⟨state, hget, standing_of_fail hfail⟩
  | append_singleton since event ih =>
    obtain ⟨state, hget, hstanding⟩ := ih
      (fun front' since' event' rest other hsplit =>
        hkeeps front' since' event' (rest ++ [event]) other (by
          rw [← append_assoc, hsplit, append_assoc]
          simp))
      fun later hlater => hresolved later (mem_append_left _ hlater)
    rw [← append_assoc, foldStates_append]
    simp only [foldl_cons, foldl_nil]
    by_cases hnames : event.names findingId
    · refine ⟨_, get_applyEvent_of_names hnames _, ?_⟩
      rw [hget]
      refine hstanding.apply (fun hevent => ?_) fun hverified hdismissed => ?_
      · exact hresolved event (by simp) ⟨hnames, hevent⟩
      · refine hkeeps front since event [] findingId (by rw [append_assoc]) hvetoes
          (fun later hlater => hresolved later (mem_append_left _ hlater))
          ⟨hnames, hverified, hdismissed⟩
    · rw [get_applyEvent_of_not_names hnames]
      exact ⟨state, hget, hstanding⟩

theorem isTerminal_of_passed {front : List FindingEvent}
    (hordered : (front ++ between).Pairwise (foldsBefore env)) (hbetween : between ≠ [])
    (hpassed : foldReviewVerdict env (front ++ between) = .passed)
    (hget : Dict.get (foldStates (front ++ between)) findingId = some state) :
    state.isTerminal = true := by
  rw [foldReviewVerdict_of_ordered hordered] at hpassed
  have hsome : foldStates (front ++ between) ≠ [] := by
    intro hnil
    rw [hnil] at hget
    simp at hget
  rw [if_neg hsome] at hpassed
  obtain ⟨since, event, rfl⟩ := eq_nil_or_concat' between |>.resolve_left hbetween
  rw [← append_assoc, foldl_append, foldl_cons] at hpassed
  have hstates : (foldStep ((front ++ since).foldl foldStep ([], .pending)) event).1 =
      foldStates (front ++ (since ++ [event])) := by
    rw [← append_assoc, foldStates_append]
    exact congrArg (applyEvent · event) (foldl_foldStep _ _)
  have hverdict : nextVerdict ((front ++ since).foldl foldStep ([], .pending)).2
      (foldStates (front ++ (since ++ [event]))) = .passed := by
    rw [← hstates]
    exact hpassed
  unfold nextVerdict at hverdict
  split at hverdict
  · contradiction
  · split at hverdict
    · contradiction
    · split at hverdict
      next hall =>
        exact all_eq_true.mp hall _ (Dict.mem_of_get hget)
      · contradiction

end

/-- As long as no finding that vetoes is dismissed, a failed verdict passes only over resolutions. -/
theorem passesThroughResolution_of_keepsVetoes (env : VerdictEnv) (events : List FindingEvent)
    (h : KeepsVetoes (events.insertionSort (foldsBefore env))) :
    PassesThroughResolution env (events.insertionSort (foldsBefore env)) := by
  intro front between rest hsplit hfailed hpassed findingId hvetoes
  by_contra hnone
  have hresolved : ∀ event ∈ between, ¬event.Resolves findingId :=
    fun event hmem hresolves => hnone ⟨event, hmem, hresolves⟩
  have hsorted : (front ++ between ++ rest).Pairwise (foldsBefore env) := by
    have htotal : Std.Total (foldsBefore env) := ⟨foldsBefore_total env⟩
    have htrans : IsTrans FindingEvent (foldsBefore env) := ⟨fun _ _ _ => foldsBefore_trans env⟩
    rw [← hsplit]
    exact pairwise_insertionSort _ _
  have hkeeps : KeepsVetoes (front ++ between) := by
    intro front' since event rest' other hcut
    exact h front' since event (rest' ++ rest) other (by rw [hsplit, hcut]; simp)
  obtain ⟨state, hget, hstanding⟩ := standing_after hkeeps hvetoes hresolved
  have hbetween : between ≠ [] := by
    rintro rfl
    rw [append_nil, hfailed] at hpassed
    contradiction
  have hterminal := isTerminal_of_passed (pairwise_append.mp hsorted).1 hbetween hpassed hget
  rw [hstanding.not_isTerminal] at hterminal
  contradiction

def plainVerdictEnv : VerdictEnv where
  str value := value.text?.getD "None"
  setOrder := id
  mem_setOrder _ _ := Iff.rfl

def majorCreated : FindingEvent := ⟨.findingCreated, .str "f-1", .str "major", .null, 1⟩

def verifiedAs (verificationState : String) (sequenceNumber : Nat) : FindingEvent :=
  ⟨.findingVerified, .str "f-1", .null, .str verificationState, sequenceNumber⟩

def resolvedAt (sequenceNumber : Nat) : FindingEvent :=
  ⟨.findingResolved, .str "f-1", .null, .null, sequenceNumber⟩

theorem vetoes_confirmed : Vetoes [majorCreated, verifiedAs "verified" 2] "f-1" :=
  ⟨⟨.str "major", .str "verified", .verified, true⟩, rfl, by decide +kernel⟩

/-- Two later verifications that reject it turn the failed verdict to passed. -/
theorem dismissed_finding_passes :
    ¬ ∀ events : List FindingEvent, PassesThroughResolution plainVerdictEnv
      (events.insertionSort (foldsBefore plainVerdictEnv)) := by
  intro hpasses
  have hsorted : [majorCreated, verifiedAs "verified" 2, verifiedAs "rejected_false_positive" 3,
      verifiedAs "rejected_false_positive" 4].Pairwise (foldsBefore plainVerdictEnv) := by
    decide +kernel
  have hall := hpasses [majorCreated, verifiedAs "verified" 2,
    verifiedAs "rejected_false_positive" 3, verifiedAs "rejected_false_positive" 4]
  obtain ⟨event, hmem, -, hresolved⟩ := hall [majorCreated, verifiedAs "verified" 2]
    [verifiedAs "rejected_false_positive" 3, verifiedAs "rejected_false_positive" 4] [] rfl
    (by decide +kernel) (by decide +kernel) "f-1" vetoes_confirmed
  simp [verifiedAs] at hmem
  rcases hmem with rfl | rfl
  · exact absurd hresolved (by decide)
  · exact absurd hresolved (by decide)

/-- A finding that is resolved twice lets the verdict pass. -/
theorem resolved_finding_passes : ∃ event ∈ [resolvedAt 3, resolvedAt 4], event.Resolves "f-1" := by
  have hsorted : [majorCreated, verifiedAs "verified" 2, resolvedAt 3, resolvedAt 4].Pairwise
      (foldsBefore plainVerdictEnv) := by
    decide +kernel
  have hall := passesThroughResolution_of_keepsVetoes plainVerdictEnv
    [majorCreated, verifiedAs "verified" 2, resolvedAt 3, resolvedAt 4]
  rw [List.Pairwise.insertionSort_eq hsorted] at hall
  refine hall ?_ [majorCreated, verifiedAs "verified" 2] [resolvedAt 3, resolvedAt 4] [] rfl
    (by decide +kernel) (by decide +kernel) "f-1" vetoes_confirmed
  intro front since event rest findingId hsplit _ _ hdismisses
  have hmem : event ∈ [majorCreated, verifiedAs "verified" 2, resolvedAt 3, resolvedAt 4] := by
    rw [hsplit]
    simp
  have hnever : ∀ other ∈ [majorCreated, verifiedAs "verified" 2, resolvedAt 3, resolvedAt 4],
      other.verificationState ≠ .str "rejected_false_positive" := by
    decide +kernel
  exact hnever event hmem hdismisses.2.2

end Flowness.CommitGate
