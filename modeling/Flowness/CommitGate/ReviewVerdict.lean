import Mathlib.Data.List.Dedup
import Mathlib.Data.List.Sort
import Flowness.Ledger.EventIndex
import Flowness.Schemas.PayloadAccess

/-!
The verdict of a review, folded from the events of its findings, and the check of the gate that a
review task is completed only over a verdict that has passed.
-/

namespace Flowness.CommitGate

open List Library Schemas Ledger

/-- `_sev_rank`: an unknown severity counts as a failing one. -/
def sevRank : Json → Nat
  | .str "critical" => 5
  | .str "major" => 4
  | .str "minor" => 3
  | .str "purple" => 2
  | .str "observation" => 1
  | _ => 4

def failSeverityFloor : Nat := 4

inductive FindingLifecycle where
  | created | verified | disputed | resolved
deriving DecidableEq, Repr

structure FindingState where
  severity : Json := .null
  verificationState : Json := .null
  lifecycle : FindingLifecycle := .created
  everVerified : Bool := false

def FindingState.isUnresolvedVerifiedFail (state : FindingState) : Bool :=
  state.lifecycle ≠ .resolved ∧ state.verificationState = .str "verified" ∧
    failSeverityFloor ≤ sevRank state.severity

def FindingState.isTerminal (state : FindingState) : Bool :=
  if state.lifecycle = .resolved then state.everVerified
  else state.lifecycle = .verified ∧ state.verificationState = .str "rejected_false_positive"

/-- What `fold_review_verdict` reads of an event. -/
structure FindingEvent where
  eventType : EventType
  findingId : Json
  severity : Json
  verificationState : Json
  sequenceNumber : Nat

def FindingState.apply (state : FindingState) (event : FindingEvent) : FindingState :=
  match event.eventType with
  | .findingCreated =>
    if event.severity ≠ .null ∧
        (state.severity = .null ∨ sevRank state.severity < sevRank event.severity) then
      { state with severity := event.severity }
    else state
  | .findingVerified =>
    { state with
      lifecycle := .verified, verificationState := event.verificationState, everVerified := true }
  | .findingDisputed => { state with lifecycle := .disputed }
  | .findingResolved => { state with lifecycle := .resolved }
  | _ => state

def applyEvent (states : Dict String FindingState) (event : FindingEvent) : Dict String FindingState :=
  match event.findingId.text?.filter (· ≠ "") with
  | none => states
  | some findingId => Dict.set states findingId (((Dict.get states findingId).getD {}).apply event)

inductive Verdict where
  | pending | failed | passed
deriving DecidableEq, Repr

def Verdict.value : Verdict → String
  | .pending => "pending"
  | .failed => "failed"
  | .passed => "passed"

def nextVerdict (verdict : Verdict) (states : Dict String FindingState) : Verdict :=
  if states.any (·.2.isUnresolvedVerifiedFail) then .failed
  else if verdict = .failed then .pending
  else if states.all (·.2.isTerminal) then .passed
  else .pending

/-- Python's `str`, and the order in which a set is iterated that was filled with these texts. -/
structure VerdictEnv where
  str : Json → String
  setOrder : List String → List String
  mem_setOrder : ∀ texts text, text ∈ setOrder texts ↔ text ∈ texts

section

variable (env : VerdictEnv)

/-- The sort key is the sequence number, then the finding id. -/
def foldsBefore (left right : FindingEvent) : Prop :=
  left.sequenceNumber < right.sequenceNumber ∨
    (left.sequenceNumber = right.sequenceNumber ∧ env.str left.findingId ≤ env.str right.findingId)

instance (left right : FindingEvent) : Decidable (foldsBefore env left right) :=
  inferInstanceAs (Decidable (_ ∨ _ ∧ _))

def foldStep (folded : Dict String FindingState × Verdict) (event : FindingEvent) :
    Dict String FindingState × Verdict :=
  let states := applyEvent folded.1 event
  (states, nextVerdict folded.2 states)

def foldReviewVerdict (events : List FindingEvent) : Verdict :=
  let folded := (events.insertionSort (foldsBefore env)).foldl foldStep ([], .pending)
  if folded.1 = [] then .passed else folded.2

end

instance (states : Dict String FindingState) : Decidable (states = []) := by
  cases states with
  | nil => exact isTrue rfl
  | cons state states => exact isFalse (List.cons_ne_nil _ _)

def findingEventTypes : List EventType :=
  [.findingCreated, .findingVerified, .findingDisputed, .findingResolved]

structure RawEvent where
  eventType : EventType
  payload : Payload
  sessionId : Option String
  sequenceNumber : Nat

def recordToFoldEvent (record : EventRecord) : RawEvent :=
  { eventType := record.eventType, payload := record.payload
    sessionId := record.provenance.sessionId, sequenceNumber := record.sequenceNumber }

def intentToFoldEvent (intent : EventIntent) : RawEvent :=
  { eventType := intent.eventType, payload := intent.payload
    sessionId := intent.provenanceHint.sessionId, sequenceNumber := 2 ^ 62 }

/-- `after_state` when it is an object, else the payload. -/
def afterOrPayload (payload : Payload) : Dict String Json :=
  match payload.getD "after_state" .null with
  | .obj after => after
  | _ => payload.entries

/-- `_event_review_unit_id`: the explicit unit, else the session. -/
def RawEvent.reviewUnitId (event : RawEvent) : Option String :=
  match Json.nonBlank (afterOrPayload event.payload) "review_unit_id" with
  | some reviewUnitId => some reviewUnitId
  | none => event.sessionId.filter (· ≠ "")

def RawEvent.foldInput (reviewUnitIds : List String) (event : RawEvent) : Option FindingEvent :=
  if event.eventType ∈ findingEventTypes ∧ ∃ unit ∈ event.reviewUnitId, unit ∈ reviewUnitIds then
    let source := afterOrPayload event.payload
    some
      { eventType := event.eventType
        findingId := Json.lookup source "finding_id"
        severity := Json.lookup source "severity"
        verificationState := Json.lookup source "verification_state"
        sequenceNumber := event.sequenceNumber }
  else none

def computeReviewVerdictOverSet (env : VerdictEnv) (events : List RawEvent)
    (reviewUnitIds : List String) : Verdict :=
  if reviewUnitIds = [] then .passed
  else foldReviewVerdict env (events.filterMap (RawEvent.foldInput reviewUnitIds))

structure ReviewVerdictResult where
  passed : Bool
  failureReason : Option String := none
  failureEvidence : List (String × String) := []
deriving DecidableEq, Repr

def lookupEntity (index : EventIndex) (entityType entityId : String) : List EventRecord :=
  index.byEntity.lookup (entityType, entityId)

def taskTypeOf (record : EventRecord) : Option String :=
  if record.eventType = .taskNodeCreated then
    (Json.lookup record.payload.afterState "task_type").text?
  else none

def resolveTaskType (index : EventIndex) (taskId : String) : Option String :=
  (lookupEntity index "task" taskId).findSome? taskTypeOf

def reviewDeclaration (record : EventRecord) : Option (String × String) :=
  let (kind, payload) := effKindPayload record.eventType record.payload
  if kind = EventType.value .transactionEnvelopeSubmitted then
    match Json.nonBlank payload "task_id", record.provenance.sessionId.filter (· ≠ "") with
    | some taskId, some session =>
      if "session:".toList.isPrefixOf taskId.toList then none else some (session, taskId)
    | _, _ => none
  else none

def sessionToDeclaredReviewTasks (records : List EventRecord) : Dict String (List String) :=
  (records.filterMap reviewDeclaration).foldl
    (fun declared entry => Dict.appendAt declared entry.1 entry.2) []

def reviewSessionSet (declared : Dict String (List String)) (reviewUnitId taskId : String) : List String :=
  reviewUnitId :: (declared.filter (taskId ∈ ·.2)).map Prod.fst

def sortedTexts (texts : List String) : List String := texts.dedup.insertionSort (· ≤ ·)

def otherReviewTasks (index : EventIndex) (declared : Dict String (List String)) (taskId session : String) :
    List String :=
  sortedTexts ((Dict.getList declared session).filter fun other =>
    other ≠ taskId ∧ resolveTaskType index other = some "review")

def unprovable (taskId : String) : ReviewVerdictResult :=
  { passed := false
    failureReason := some "review_verdict_unprovable"
    failureEvidence := [("task_id", taskId),
      ("reason", "REVIEW task TaskRunCompleted 无 provenance.session_id (review-unit 不可定位)")] }

def ambiguous (taskId session : String) (others : List String) : ReviewVerdictResult :=
  { passed := false
    failureReason := some "ambiguous_review_session_multi_task"
    failureEvidence := [("task_id", taskId), ("session_id", session),
      ("also_declared_review_tasks", String.intercalate ", " others),
      ("reason", "review 会话同时申明 review 多个 REVIEW task, 其 finding 无 per-finding " ++
        "task 锚 → 归属不可判, fail-closed (不静默把别 task 的 finding 折进本 task)")] }

def notPassed (taskId reviewUnitId : String) (sessions : List String) (verdict : Verdict) :
    ReviewVerdictResult :=
  { passed := false
    failureReason := some "review_verdict_not_passed"
    failureEvidence := [("task_id", taskId), ("review_unit_id", reviewUnitId),
      ("review_session_set", String.intercalate ", " (sortedTexts sessions)),
      ("verdict", verdict.value),
      ("reason", "REVIEW task success 落账要求 review-target verdict=passed (法则一: 凭证=verdict " ++
        "非测试绿; 折叠按 review-target 跨会话, 空会话 pass 盖不过 co-reviewer 的 blocking finding)")] }

section

variable (env : VerdictEnv) (domainIntents : List EventIntent) (index : EventIndex)
  (committedRecords : List EventRecord)

def foldEvents : List RawEvent :=
  committedRecords.map recordToFoldEvent ++
    (domainIntents.filter (·.eventType ∈ findingEventTypes)).map intentToFoldEvent

def checkReviewCompletion (taskId reviewUnitId : String) : Option ReviewVerdictResult :=
  let declared := sessionToDeclaredReviewTasks committedRecords
  let sessions := reviewSessionSet declared reviewUnitId taskId
  let shared := (env.setOrder sessions).find? fun session =>
    otherReviewTasks index declared taskId session ≠ []
  match shared with
  | some session => some (ambiguous taskId session (otherReviewTasks index declared taskId session))
  | none =>
    let verdict := computeReviewVerdictOverSet env (foldEvents domainIntents committedRecords) sessions
    if verdict = .passed then none else some (notPassed taskId reviewUnitId sessions verdict)

def completedTask (intent : EventIntent) : Option String :=
  let after := intent.payload.afterState
  if intent.eventType = .taskRunCompleted ∧ Json.lookup after "outcome" = .str "success" then
    Json.nonBlank after "task_id"
  else none

def checkIntent (intent : EventIntent) : Option ReviewVerdictResult :=
  match completedTask intent with
  | none => none
  | some taskId =>
    if resolveTaskType index taskId = some "review" then
      match intent.provenanceHint.sessionId.filter (· ≠ "") with
      | none => some (unprovable taskId)
      | some reviewUnitId =>
        checkReviewCompletion env domainIntents index committedRecords taskId reviewUnitId
    else none

def checkReviewVerdictGatedCompletion : ReviewVerdictResult :=
  (domainIntents.findSome? (checkIntent env domainIntents index committedRecords)).getD { passed := true }

end

/-- A record the verdict of some task may depend on: an event of a finding in a review unit, a task with a
type, or an envelope that is scoped to a task. -/
def isVerdictRecord (record : EventRecord) : Bool :=
  (record.eventType ∈ findingEventTypes && (recordToFoldEvent record).reviewUnitId.isSome) ||
    (taskTypeOf record).isSome || (reviewDeclaration record).isSome

section

variable {records others : List EventRecord}

theorem resolveTaskType_build (records : List EventRecord) (taskId : String) :
    resolveTaskType (EventIndex.build records) taskId =
      (records.filterMap fun record =>
        if ("task", taskId) ∈ entityKeys record then taskTypeOf record else none).head? := by
  have hbucket : ∀ (record : EventRecord) (keys : List (String × String)),
      ((keys.filter (· = ("task", taskId))).map fun _ => record).findSome? taskTypeOf =
        if ("task", taskId) ∈ keys then taskTypeOf record else none := by
    intro record keys
    induction keys with
    | nil => simp
    | cons key keys ih =>
      by_cases hkey : key = ("task", taskId)
      · have hmem : ("task", taskId) ∈ key :: keys := hkey ▸ mem_cons_self
        rw [filter_cons_of_pos (by simpa using hkey), map_cons, List.findSome?_cons, ih,
          if_pos hmem]
        cases htype : taskTypeOf record with
        | none => simp
        | some taskType => rfl
      · rw [filter_cons_of_neg (by simpa using hkey), ih]
        simp [Ne.symm hkey]
  unfold resolveTaskType lookupEntity
  rw [EventIndex.lookup_byEntity_build, List.head?_filterMap]
  induction records with
  | nil => rfl
  | cons record records ih =>
    rw [flatMap_cons, List.findSome?_append, ih, List.findSome?_cons, hbucket]
    cases (if ("task", taskId) ∈ entityKeys record then taskTypeOf record else none) <;> rfl

section

variable {β : Type} {reads : EventRecord → Option β}
    (h : ∀ record, (reads record).isSome = true → isVerdictRecord record = true)
include h

theorem filterMap_filter_of_reads (records : List EventRecord) :
    (records.filter isVerdictRecord).filterMap reads = records.filterMap reads := by
  induction records with
  | nil => rfl
  | cons record records ih =>
    cases hreads : reads record with
    | none =>
      rw [filterMap_cons_none hreads, ← ih]
      by_cases hverdict : isVerdictRecord record = true
      · rw [filter_cons_of_pos hverdict, filterMap_cons_none hreads]
      · rw [filter_cons_of_neg hverdict]
    | some value =>
      have hverdict : isVerdictRecord record = true := h record (by rw [hreads]; rfl)
      rw [filter_cons_of_pos hverdict, filterMap_cons_some hreads,
        filterMap_cons_some hreads, ih]

theorem filterMap_eq_of_filter_eq
    (hsame : records.filter isVerdictRecord = others.filter isVerdictRecord) :
    records.filterMap reads = others.filterMap reads := by
  rw [← filterMap_filter_of_reads h records, hsame, filterMap_filter_of_reads h others]

end

section

variable (hsame : records.filter isVerdictRecord = others.filter isVerdictRecord)
include hsame

theorem resolveTaskType_congr :
    resolveTaskType (EventIndex.build records) = resolveTaskType (EventIndex.build others) := by
  funext taskId
  rw [resolveTaskType_build, resolveTaskType_build]
  congr 1
  refine filterMap_eq_of_filter_eq (fun record hreads => ?_) hsame
  split at hreads
  · simp [isVerdictRecord, hreads]
  · cases hreads

theorem sessionToDeclaredReviewTasks_congr :
    sessionToDeclaredReviewTasks records = sessionToDeclaredReviewTasks others := by
  unfold sessionToDeclaredReviewTasks
  rw [filterMap_eq_of_filter_eq (fun record hreads => ?_) hsame]
  simp [isVerdictRecord, hreads]

end

section

variable (env : VerdictEnv) (domainIntents : List EventIntent)

theorem computeReviewVerdict_congr (reviewUnitIds : List String)
    (hsame : records.filter isVerdictRecord = others.filter isVerdictRecord) :
    computeReviewVerdictOverSet env (foldEvents domainIntents records) reviewUnitIds =
      computeReviewVerdictOverSet env (foldEvents domainIntents others) reviewUnitIds := by
  have hcommitted : (records.map recordToFoldEvent).filterMap (RawEvent.foldInput reviewUnitIds) =
      (others.map recordToFoldEvent).filterMap (RawEvent.foldInput reviewUnitIds) := by
    rw [filterMap_map, filterMap_map]
    refine filterMap_eq_of_filter_eq (fun record hreads => ?_) hsame
    simp only [Function.comp_apply, RawEvent.foldInput] at hreads
    split at hreads
    next hfinding =>
      obtain ⟨htype, unit, hunit, _⟩ := hfinding
      have htype : record.eventType ∈ findingEventTypes := htype
      simp [isVerdictRecord, htype, Option.mem_def.mp hunit]
    · cases hreads
  unfold computeReviewVerdictOverSet foldEvents
  rw [filterMap_append, filterMap_append, hcommitted]

theorem checkReviewVerdict_congr
    (hsame : records.filter isVerdictRecord = others.filter isVerdictRecord) :
    checkReviewVerdictGatedCompletion env domainIntents (EventIndex.build records) records =
      checkReviewVerdictGatedCompletion env domainIntents (EventIndex.build others) others := by
  have htype := resolveTaskType_congr hsame
  have hdeclared := sessionToDeclaredReviewTasks_congr hsame
  have hothers : otherReviewTasks (EventIndex.build records) =
      otherReviewTasks (EventIndex.build others) := by
    funext declared taskId session
    unfold otherReviewTasks
    rw [htype]
  have hcompletion : checkReviewCompletion env domainIntents (EventIndex.build records) records =
      checkReviewCompletion env domainIntents (EventIndex.build others) others := by
    funext taskId reviewUnitId
    unfold checkReviewCompletion
    simp only [hdeclared, hothers, computeReviewVerdict_congr env domainIntents _ hsame]
  unfold checkReviewVerdictGatedCompletion
  congr 2
  funext intent
  unfold checkIntent
  rw [htype, hcompletion]

end

end

end Flowness.CommitGate
