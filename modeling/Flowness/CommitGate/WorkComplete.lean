import Flowness.CommitGate.ObligationChecks
import Flowness.Planning.PlanEvents
import Mathlib.Data.Rat.Defs

/-!
The blocking checks behind a completed task. Violations, mismatches and declarations are each
collected by a loop with its own key: the identifier at the top of the payload, the run, and the
last entry of an obligation.
-/

namespace Flowness.WorkComplete

open List Library Planning CommitGate

section Readers

variable (strOther : Json → String)

/-- `_provenance_field`. -/
def provenanceField (event : LogEvent) (key : String) : String :=
  member strOther (Json.lookup event "provenance").asDict key

/-- `_effective_kind`. -/
def effectiveKind (event : LogEvent) : String :=
  let written := member strOther event "event_type"
  if written = "NodeTouched" then
    ((Json.lookup (Json.lookup event "payload").asDict "kind").text?).getD written
  else written

variable (events : List LogEvent)

/-- `_session_violated_obligation_ids`. -/
def sessionViolatedObligationIds (sessionId : String) : Dict String (List String) :=
  events.foldl (fun out event =>
    if effectiveKind strOther event = "ObligationViolated" ∧
        provenanceField strOther event "session_id" = sessionId then
      match Json.nonBlank (Json.lookup event "payload").asDict "obligation_id" with
      | some obligationId => out.appendAt obligationId (member strOther event "event_id")
      | none => out
    else out) []

/-- A key of a dictionary, up to Python's equality of numbers and truth values. -/
inductive DeclaredKey where
  | null | number (value : ℚ) | text (value : String)
deriving DecidableEq

abbrev Entry := Dict String Json

variable (floatValue : String → ℚ)

/-- `d.get("obligation_id")` as a key. -/
def declaredKey (entry : Entry) : DeclaredKey :=
  match Json.lookup entry "obligation_id" with
  | .bool value => .number (if value then 1 else 0)
  | .int value => .number value
  | .float literal => .number (floatValue literal)
  | .str value => .text value
  | _ => .null

def hashable : Json → Bool
  | .arr _ | .obj _ => false
  | _ => true

def isViolated (entry : Entry) : Bool := Json.lookup entry "status" == .str "violated"

def activeRedLineIds (obligations : List Entry) : List String :=
  (obligations.filter fun obligation =>
    Json.lookup obligation "canonical_state" == .str "active" &&
      member strOther obligation "severity" == "red_line").filterMap fun obligation =>
    Json.nonBlank obligation "obligation_id"

/-- `check_obligations_maintained`; `none` is the TypeError of a key that cannot be hashed. -/
def checkObligationsMaintained (sessionId : String) (activeObligations : Option (List Entry))
    (declared : List Entry) : Option Bool :=
  let sessionViolated := (sessionViolatedObligationIds strOther events sessionId).keys
  match activeObligations with
  | none => some (sessionViolated = [])
  | some obligations =>
    if declared.all fun entry => hashable (Json.lookup entry "obligation_id") then
      let declaredById := Dict.indexBy (declaredKey floatValue) declared
      let misreported := sessionViolated.filter fun obligationId =>
        !((Dict.get declaredById (.text obligationId)).any isViolated)
      let violatedDecls := declaredById.filter fun (_, entry) => isViolated entry
      let missingRedLine := (activeRedLineIds strOther obligations).filter fun obligationId =>
        !(Dict.contains declaredById (.text obligationId))
      some (misreported = [] ∧ violatedDecls = [] ∧ missingRedLine = [])
    else none

def ofRun (kind runId : String) (event : LogEvent) : Bool :=
  effectiveKind strOther event == kind && provenanceField strOther event "run_id" == runId

/-- `check_no_unhandled_mismatch`: one resolution settles every mismatch of the run. -/
def checkNoUnhandledMismatch (runId : String) : Bool :=
  events.all (fun event => !(ofRun strOther "MismatchDetected" runId event)) ||
    events.any (ofRun strOther "MismatchResolutionDecided" runId)

def nonBlankText (text : Option String) : Bool := text.any fun text => !(isBlank text)

def checkActualSetRecorded (runId : String) (patchSummary : Option String) : Bool :=
  events.any (ofRun strOther "PatchProposed" runId) || nonBlankText patchSummary

/-- `check_git_committed`, given the return code and the output of `git cat-file -t`. -/
def checkGitCommitted (catFile : String → Option (Int × String)) (commitRef : Option String) :
    Bool :=
  match commitRef.filter fun ref => !(isBlank ref) with
  | none => false
  | some ref =>
    match catFile (String.ofList (strip ref.toList)) with
    | none => false
    | some (code, out) => code == 0 && strip out.toList == "commit".toList

inductive CheckStatus where
  | passed | failed | pending
deriving DecidableEq

structure ExecutionBlockingCheck where
  checkId : String
  status : CheckStatus
deriving DecidableEq

def blockingCheck (checkId : String) (passed : Bool) : ExecutionBlockingCheck :=
  ⟨checkId, if passed then .passed else .failed⟩

structure CompletionRequest where
  runId : String
  sessionId : String
  doneEvidence : Option String := none
  commitRef : Option String := none
  patchSummary : Option String := none
  activeObligations : Option (List Entry) := none
  declaredObligations : List Entry := []
  doneCriteriaMachineCheck : Option ExecutionBlockingCheck := none
  deployIdentityCheck : Option ExecutionBlockingCheck := none

def runAllExecutionBlockingChecks (catFile : String → Option (Int × String))
    (request : CompletionRequest) : Option (Bool × List ExecutionBlockingCheck) :=
  (checkObligationsMaintained strOther events floatValue request.sessionId request.activeObligations
    request.declaredObligations).map fun maintained =>
    let done := request.doneCriteriaMachineCheck.getD
      (blockingCheck "execution.done_criteria_satisfied" (nonBlankText request.doneEvidence))
    let results := [done,
      blockingCheck "execution.actual_set_recorded"
        (checkActualSetRecorded strOther events request.runId request.patchSummary),
      blockingCheck "execution.obligations_maintained" maintained,
      blockingCheck "execution.no_unhandled_mismatch"
        (checkNoUnhandledMismatch strOther events request.runId),
      blockingCheck "execution.git_committed" (checkGitCommitted catFile request.commitRef)] ++
      request.deployIdentityCheck.toList
    (results.all fun check => check.status = .passed, results)

end Readers

section

variable {strOther : Json → String} {events : List LogEvent} {floatValue : String → ℚ}

def violatedBy (strOther : Json → String) (sessionId : String) (event : LogEvent) : Prop :=
  effectiveKind strOther event = "ObligationViolated" ∧
    provenanceField strOther event "session_id" = sessionId

/-- The key of one violation, when the loop sees it. -/
theorem mem_keys_sessionViolated (hevent : event ∈ events)
    (hviolated : violatedBy strOther sessionId event)
    (hid : Json.nonBlank (Json.lookup event "payload").asDict "obligation_id" = some obligationId) :
    obligationId ∈ (sessionViolatedObligationIds strOther events sessionId).keys := by
  unfold sessionViolatedObligationIds
  induction events using List.reverseRecOn with
  | nil => cases hevent
  | append_singleton events last ih =>
    rw [foldl_append, foldl_cons]
    rcases mem_append.mp hevent with hevent | hevent
    · have hkept := ih hevent
      split_ifs
      · split
        · exact Dict.mem_keys_set.mpr (.inr hkept)
        · exact hkept
      · exact hkept
    · cases mem_singleton.mp hevent
      rw [if_pos (show _ ∧ _ from hviolated), hid]
      exact Dict.mem_keys_set.mpr (.inl rfl)

theorem violatedDecl_mem (hsplit : declared = left ++ entry :: right)
    (hlast : ∀ later ∈ right, declaredKey floatValue later ≠ declaredKey floatValue entry) :
    Dict.get (Dict.indexBy (declaredKey floatValue) declared) (declaredKey floatValue entry) =
      some entry := by
  have hnot : declaredKey floatValue entry ∉ right.map (declaredKey floatValue) := by
    intro hmem
    obtain ⟨later, hlater, hkey⟩ := mem_map.mp hmem
    exact hlast later hlater hkey
  rw [Dict.indexBy, hsplit, foldl_append, foldl_cons,
    Dict.get_foldl_index_of_not_mem hnot, Dict.get_set_self]

theorem declared_of_contains
    (h : Dict.contains (Dict.indexBy (declaredKey floatValue) declared) (.text obligationId) =
      true) : ∃ entry ∈ declared, Json.lookup entry "obligation_id" = .str obligationId := by
  obtain ⟨entry, hentry, hkey⟩ :=
    mem_map.mp (Dict.mem_keys_indexBy.mp (Dict.contains_iff.mp h))
  refine ⟨entry, hentry, ?_⟩
  unfold declaredKey at hkey
  cases hvalue : Json.lookup entry "obligation_id" with
  | str value =>
    rw [hvalue] at hkey
    cases hkey
    rfl
  | _ =>
    rw [hvalue] at hkey
    cases hkey

theorem of_checkObligationsMaintained
    (h : checkObligationsMaintained strOther events floatValue sessionId (some obligations) declared
      = some true) : (sessionViolatedObligationIds strOther events sessionId).keys = [] ∧
      (∀ key entry, Dict.get (Dict.indexBy (declaredKey floatValue) declared) key = some entry →
        isViolated entry = false) ∧
      ∀ obligationId ∈ activeRedLineIds strOther obligations,
        Dict.contains (Dict.indexBy (declaredKey floatValue) declared) (.text obligationId) = true := by
  unfold checkObligationsMaintained at h
  dsimp only at h
  split at h
  next =>
    have h := of_decide_eq_true (Option.some.inj h)
    obtain ⟨hmisreported, hviolated, hmissing⟩ := h
    have hclean : ∀ key entry,
        Dict.get (Dict.indexBy (declaredKey floatValue) declared) key = some entry →
        isViolated entry = false := by
      intro key entry hget
      simpa using filter_eq_nil_iff.mp hviolated _ (Dict.mem_of_get hget)
    refine ⟨?_, hclean, ?_⟩
    · apply eq_nil_iff_forall_not_mem.mpr
      intro obligationId hid
      have hany := filter_eq_nil_iff.mp hmisreported obligationId hid
      cases hget : Dict.get (Dict.indexBy (declaredKey floatValue) declared) (.text obligationId) with
      | none => simp [hget] at hany
      | some entry => simp [hget, hclean _ _ hget] at hany
    · intro obligationId hid
      simpa using filter_eq_nil_iff.mp hmissing obligationId hid
  next => cases h

/-- What a passing run is honest about: violations whose payload names the obligation itself, runs
with a resolution anywhere in the log, and the last entry of an obligation. -/
structure Honest (strOther : Json → String) (events : List LogEvent) (floatValue : String → ℚ)
    (request : CompletionRequest) (obligations : List Entry) : Prop where
  violations : ∀ event ∈ events, violatedBy strOther request.sessionId event →
    Json.nonBlank (Json.lookup event "payload").asDict "obligation_id" = none
  mismatches : (∃ event ∈ events, ofRun strOther "MismatchDetected" request.runId event = true) →
    ∃ event ∈ events, ofRun strOther "MismatchResolutionDecided" request.runId event = true
  redLines : ∀ obligationId ∈ activeRedLineIds strOther obligations,
    ∃ entry ∈ request.declaredObligations, Json.lookup entry "obligation_id" = .str obligationId
  declared : ∀ left entry right, request.declaredObligations = left ++ entry :: right →
    (∀ later ∈ right, declaredKey floatValue later ≠ declaredKey floatValue entry) →
    Json.lookup entry "status" ≠ .str "violated"

theorem runAll_honest {catFile : String → Option (Int × String)} {request : CompletionRequest}
    {obligations : List Entry} (hstrict : request.activeObligations = some obligations)
    (h : (runAllExecutionBlockingChecks strOther events floatValue catFile request).map Prod.fst =
      some true) : Honest strOther events floatValue request obligations := by
  obtain ⟨outcome, hrun, hall⟩ := Option.map_eq_some_iff.mp h
  obtain ⟨maintained, hmaintained, rfl⟩ := Option.map_eq_some_iff.mp hrun
  simp only [all_eq_true, decide_eq_true_eq] at hall
  have hpassed : ∀ {checkId : String} {passed : Bool}, (blockingCheck checkId passed).status = .passed →
      passed = true := by
    intro checkId passed
    cases passed <;> simp [blockingCheck]
  have hmismatch : checkNoUnhandledMismatch strOther events request.runId = true :=
    hpassed (hall (blockingCheck "execution.no_unhandled_mismatch" _) (by simp))
  have htrue : maintained = true :=
    hpassed (hall (blockingCheck "execution.obligations_maintained" maintained) (by simp))
  rw [htrue, hstrict] at hmaintained
  obtain ⟨hviolated, hdeclared, hredLines⟩ := of_checkObligationsMaintained hmaintained
  constructor
  · intro event hevent hsession
    apply Option.eq_none_iff_forall_ne_some.mpr
    intro obligationId hid
    have hkey := mem_keys_sessionViolated hevent hsession hid
    rw [hviolated] at hkey
    cases hkey
  · rintro ⟨event, hevent, hdetected⟩
    rcases Bool.or_eq_true_iff.mp hmismatch with hnone | hsome
    · have hnot := all_eq_true.mp hnone event hevent
      rw [hdetected] at hnot
      cases hnot
    · exact any_eq_true.mp hsome
  · intro obligationId hid
    exact declared_of_contains (hredLines obligationId hid)
  · intro left entry right hsplit hlast hstatus
    have hclean := hdeclared _ entry (violatedDecl_mem hsplit hlast)
    rw [isViolated, hstatus] at hclean
    cases hclean

/-- A resolution before the mismatch, a violation that names its obligation in the original payload
only, and an entry that a later one overrides. -/
def looseLog : List LogEvent :=
  [[("event_type", .str "MismatchResolutionDecided"),
      ("provenance", .obj [("run_id", .str "run-1")])],
    [("event_type", .str "MismatchDetected"), ("provenance", .obj [("run_id", .str "run-1")])],
    [("event_type", .str "NodeTouched"), ("provenance", .obj [("session_id", .str "s-1")]),
      ("payload", .obj [("kind", .str "ObligationViolated"),
        ("stub_original_payload", .obj [("obligation_id", .str "o-1")])])]]

def looseRequest : CompletionRequest where
  runId := "run-1"
  sessionId := "s-1"
  doneEvidence := some "done"
  commitRef := some "HEAD"
  patchSummary := some "edited"
  activeObligations := some []
  declaredObligations :=
    [[("obligation_id", .str "o-1"), ("status", .str "violated")],
      [("obligation_id", .str "o-1"), ("status", .str "maintained")]]

theorem passes_loose :
    (runAllExecutionBlockingChecks (fun _ => "") looseLog (fun _ => 0)
      (fun _ => some (0, "commit\n")) looseRequest).map Prod.fst = some true := rfl

theorem runAll_honest_loose : Honest (fun _ => "") looseLog (fun _ => 0) looseRequest [] :=
  runAll_honest rfl passes_loose

theorem workComplete_loose :
    (runAllExecutionBlockingChecks (fun _ => "") looseLog (fun _ => 0)
        (fun _ => some (0, "commit\n")) looseRequest).map Prod.fst = some true ∧
      (∃ event ∈ looseLog, violatedBy (fun _ => "") looseRequest.sessionId event) ∧
      (∃ before event after, looseLog = before ++ event :: after ∧
        ofRun (fun _ => "") "MismatchDetected" looseRequest.runId event = true ∧
        ∀ later ∈ after,
          ofRun (fun _ => "") "MismatchResolutionDecided" looseRequest.runId later = false) ∧
      ∃ entry ∈ looseRequest.declaredObligations, isViolated entry = true := by
  refine ⟨passes_loose, ⟨looseLog[2], by simp, ?_⟩, ?_, ?_⟩
  · constructor <;> decide +kernel
  · exact ⟨looseLog.take 1, looseLog[1], looseLog.drop 2, rfl, by decide +kernel, by decide +kernel⟩
  · exact ⟨looseRequest.declaredObligations[0], by simp, by decide +kernel⟩

end

end Flowness.WorkComplete
