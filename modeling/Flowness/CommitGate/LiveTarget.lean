import Flowness.CommitGate.LedgerEvidence
import Flowness.CommitGate.Outcomes
import Flowness.Library.Chain
import Mathlib.Logic.Relation

/-!
The live-target gate: a goal may end as completed only when every observable of its brief has its
evidence in the ledger. The brief is the one its plan's consensus froze, followed forward along
its amendments.
-/

namespace Flowness.CommitGate

open Library Schemas Ledger

structure Reading where
  record : EventRecord
  entries : Dict String Json

def iterKind (committed : List EventRecord) (kind : String) : List Reading :=
  committed.filterMap fun record =>
    let (effKind, entries) := effKindPayload record.eventType record.payload
    if effKind = kind then some { record, entries } else none

/-- A non-empty string member of `after_state`, or of the payload itself. -/
def namedAt (entries : Dict String Json) (key : String) : Option String :=
  (afterOrTop entries key).text?.filter (· ≠ "")

/-- The member `key` of the last reading for which `selects` holds and that has one. -/
def lastNamed (readings : List Reading) (selects : Dict String Json → Bool) (key : String) :
    Option String :=
  (readings.filterMap fun reading =>
    if selects reading.entries then namedAt reading.entries key else none).getLast?

section

variable (committed : List EventRecord)

/-- `_plan_id_of_task`: the first creation of the task that names a plan. -/
def planIdOfTask (taskId : String) : Option String :=
  (iterKind committed "TaskNodeCreated").findSome? fun reading =>
    if afterOrTop reading.entries "task_id" = .str taskId then namedAt reading.entries "plan_id"
    else none

def planIdOfConsensusBrief (briefRef : String) : Option String :=
  lastNamed (iterKind committed "EngineeringConsensusFreezed")
    (fun entries => afterOrTop entries "brief_event_id" == .str briefRef) "plan_id"

def consensusBriefRefForPlan (planId : String) : Option String :=
  lastNamed (iterKind committed "EngineeringConsensusFreezed")
    (fun entries => afterOrTop entries "plan_id" == .str planId) "brief_event_id"

/-- `_resolve_plan_id_for_goal`: by the task of the goal session, else by its brief. -/
def resolvePlanIdForGoal (gsid : String) : Option String :=
  let started := iterKind committed "GoalSessionStarted"
  let ofGoal := fun entries => afterOrTop entries "goal_session_id" == .str gsid
  let taskId := (lastNamed started ofGoal "task_id").or
    (lastNamed (iterKind committed "SessionSpawned")
      (fun entries => afterOrTop entries "session_id" == .str gsid) "task_id")
  (taskId.bind (planIdOfTask committed)).or
    ((lastNamed started ofGoal "brief_event_id").bind (planIdOfConsensusBrief committed))

def briefs : List Reading := iterKind committed "InterviewBriefPublished"

/-- `_brief_record`: by `brief_id` or by event. -/
def briefRecord (env : LedgerEnv) (briefRef : String) : Option Reading :=
  (briefs committed).find? fun brief =>
    env.str (Json.lookup brief.entries "brief_id") == briefRef ||
      brief.record.eventId.val == briefRef

def supersedesBrief (brief : Reading) (briefEventId : String) : Bool :=
  Json.lookup (Json.lookup brief.entries "audit_trace_refs").asDict "superseded_brief_event_id" ==
    .str briefEventId

def supersederOf (briefEventId : String) : Option Reading :=
  (briefs committed).find? fun brief => supersedesBrief brief briefEventId

/-- The brief whose observables are read: the amendments followed forward, the first one at each
brief, until none is new. There are no more steps than briefs. -/
def activeBrief (brief : Reading) : Reading :=
  follow (fun brief => supersederOf committed brief.record.eventId.val)
    (fun brief => brief.record.eventId.val) (briefs committed).length
    [brief.record.eventId.val] brief

def observablesOf (brief : Reading) : List (Dict String Json) :=
  (Json.lookup brief.entries "live_target_observables").asDicts

def planTaskIds (planId : String) : List String :=
  (iterKind committed "TaskNodeCreated").filterMap fun reading =>
    if afterOrTop reading.entries "plan_id" = .str planId then namedAt reading.entries "task_id"
    else none

def goalScope (planId : String) : LedgerScopeContext where
  goalTaskIds := if planTaskIds committed planId = [] then none else some (planTaskIds committed planId)

variable (env : LedgerEnv)

def unmetCriterion (scope : LedgerScopeContext) (observableId : String)
    (criterion : ClosureCriterion) : Option String :=
  if criterion.verificationMethod ≠ .ledgerEvent then
    some (observableId ++ ": evidence 非 ledger_event (goal 证据须门读账本), fail-closed")
  else
    match criterion.eventKind.filter (· ≠ ""), criterion.minOccurrences, criterion.scopeBinding with
    | some eventKind, some minOccurrences, some scopeBinding =>
      let verdict := gateLedgerEvent env eventKind criterion.payloadPredicate minOccurrences
        scopeBinding committed scope
      if verdict.passed = some true then none else some (observableId ++ ": " ++ verdict.detail)
    | _, _, _ =>
      some (observableId ++
        ": ledger_event 缺 event_kind/min_occurrences/scope_binding, fail-closed")

def unsatisfied (scope : LedgerScopeContext) (observable : Dict String Json) :
    Option (String × String) :=
  let observableId := env.str ((Dict.get observable "observable_id").getD (.str "<no-id>"))
  let detail :=
    match Json.lookup observable "evidence" with
    | .obj evidence =>
      match env.validateCriterion evidence with
      | .error message =>
        some (observableId ++ ": evidence 非法 (" ++ message ++ ") — fail-closed")
      | .ok criterion => unmetCriterion committed env scope observableId criterion
    | _ => some (observableId ++ ": evidence 缺失/非结构化 (fail-closed)")
  detail.map fun detail => (observableId, detail)

structure LiveTargetReconcileResult where
  passed : Bool
  applicable : Bool := true
  failureReason : Option String := none
  failureEvidence : Evidence := .empty

def reconcileReason : String :=
  "goal completion_condition 含 live_target_observable, 但账本证据未满足 —— 拒 " ++
    "reason=completion (降级 blocked_live_target_unsatisfied 触发 RePlan; 门看账本证据不看 " ++
    "task 图, 撤边逃逸无效)"

def planObservables (planId : String) : List (Dict String Json) :=
  match (consensusBriefRefForPlan committed planId).bind (briefRecord committed env) with
  | some brief => observablesOf (activeBrief committed brief)
  | none => []

def reconcileGoalLiveTargets (gsid : String) : LiveTargetReconcileResult :=
  match resolvePlanIdForGoal committed gsid with
  | none => { passed := true, applicable := false }
  | some planId =>
    let observables := planObservables committed env planId
    if observables = [] then { passed := true, applicable := false }
    else
      let missing := observables.filterMap (unsatisfied committed env (goalScope committed planId))
      if missing = [] then { passed := true }
      else
        { passed := false
          failureReason := some "goal_live_target_unsatisfied"
          failureEvidence :=
            ⟨[("goal_session_id", gsid),
              ("unsatisfied_observables", String.intercalate ", " (missing.map Prod.fst)),
              ("detail", String.ofList
                ((String.intercalate " | " (missing.map Prod.snd)).toList.take 600)),
              ("reason", reconcileReason)], by simp [Dict.keys]⟩ }

/-- The result for one completion; `none` when the intent is none, as the gate reads it. -/
def reconcileIntent (intent : EventIntent) : Option LiveTargetReconcileResult :=
  if intent.eventType = .goalSessionTerminated ∧
      afterOrTop intent.payload.entries "termination_reason" = .str "completion" then
    match namedAt intent.payload.entries "goal_session_id" with
    | some gsid => some (reconcileGoalLiveTargets committed env gsid)
    | none => some
      { passed := false
        failureReason := some "goal_completion_no_gsid"
        failureEvidence :=
          ⟨[("reason",
            "GoalSessionTerminated(completion) 无 goal_session_id — 无法 live-target 对账")],
            by simp [Dict.keys]⟩ }
  else none

def checkLiveTargetReconciled (domain : List EventIntent) : LiveTargetReconcileResult :=
  ((domain.filterMap (reconcileIntent committed env)).find? fun result => !result.passed).getD
    { passed := true, applicable := false }

def Amends (older newer : Reading) : Prop :=
  newer ∈ briefs committed ∧ supersedesBrief newer older.record.eventId.val = true

structure Tip (brief tip : Reading) : Prop where
  reached : Relation.ReflTransGen (Amends committed) brief tip
  last : ∀ newer, ¬ Amends committed tip newer

/-- The plan of the goal and the brief its consensus froze. -/
structure GoalBrief (gsid planId : String) (brief : Reading) : Prop where
  plan : resolvePlanIdForGoal committed gsid = some planId
  frozen : (consensusBriefRefForPlan committed planId).bind (briefRecord committed env) = some brief

/-- The ledger has the evidence every observable of the brief asks for. -/
def Evidenced (planId : String) (brief : Reading) : Prop :=
  ∀ observable ∈ observablesOf brief,
    unsatisfied committed env (goalScope committed planId) observable = none

end

/-- The intent ends the goal as completed, natively or as a stub. -/
def Completes (intent : EventIntent) (gsid : String) : Prop :=
  (effKindPayload intent.eventType intent.payload).1 = "GoalSessionTerminated" ∧
    afterOrTop (effKindPayload intent.eventType intent.payload).2 "termination_reason" =
      .str "completion" ∧
    afterOrTop (effKindPayload intent.eventType intent.payload).2 "goal_session_id" = .str gsid

def TipsReconciled (env : LedgerEnv) (domain : List EventIntent) (committed : List EventRecord) :
    Prop :=
  ∀ intent ∈ domain, ∀ gsid, Completes intent gsid → ∀ planId brief,
    GoalBrief committed env gsid planId brief → ∀ tip, Tip committed brief tip →
      Evidenced committed env planId tip

/-- So have those the gate does not read: all of a stub completion, and the tips off the chain of
first amendments of a native one. -/
def UnreadTipsReconciled (env : LedgerEnv) (domain : List EventIntent)
    (committed : List EventRecord) : Prop :=
  ∀ intent ∈ domain, ∀ gsid, Completes intent gsid → ∀ planId brief,
    GoalBrief committed env gsid planId brief → ∀ tip, Tip committed brief tip →
      (intent.eventType = .goalSessionTerminated → tip ≠ activeBrief committed brief) →
      Evidenced committed env planId tip

section

variable {env : LedgerEnv} {domain : List EventIntent} {committed : List EventRecord}

theorem evidenced_of_reconcile (h : (reconcileGoalLiveTargets committed env gsid).passed = true)
    (hbrief : GoalBrief committed env gsid planId brief) :
    Evidenced committed env planId (activeBrief committed brief) := by
  intro observable hobservable
  have hread : planObservables committed env planId =
      observablesOf (activeBrief committed brief) := by
    rw [planObservables, hbrief.frozen]
  unfold reconcileGoalLiveTargets at h
  simp only [hbrief.plan, hread] at h
  split at h
  next hempty =>
    rw [hempty] at hobservable
    cases hobservable
  · split at h
    next hmissing =>
      exact List.filterMap_eq_nil_iff.mp hmissing observable hobservable
    · cases h

section

variable (h : (checkLiveTargetReconciled committed env domain).passed = true)
include h

theorem reconciled_of_native (hintent : intent ∈ domain)
    (htype : intent.eventType = .goalSessionTerminated) (hcompletes : Completes intent gsid) :
    (reconcileGoalLiveTargets committed env gsid).passed = true := by
  have hnative : effKindPayload intent.eventType intent.payload =
      (EventType.value intent.eventType, intent.payload.entries) :=
    effKindPayload_of_ne (by simp [htype]) intent.payload
  obtain ⟨-, hreason, hgsid⟩ := hcompletes
  rw [hnative] at hreason hgsid
  -- the result of this completion is not the one that fails
  have hpassed : ∀ result, reconcileIntent committed env intent = some result →
      result.passed = true := by
    intro result hresult
    unfold checkLiveTargetReconciled at h
    cases hfind : (domain.filterMap (reconcileIntent committed env)).find?
        fun result => !result.passed with
    | none =>
      have hall := List.find?_eq_none.mp hfind result
        (List.mem_filterMap.mpr ⟨intent, hintent, hresult⟩)
      simpa using hall
    | some failed =>
      rw [hfind, Option.getD_some] at h
      have hfailed := List.find?_some hfind
      simp [h] at hfailed
  by_cases hblank : gsid = ""
  · have hnone : namedAt intent.payload.entries "goal_session_id" = none := by
      simp [namedAt, hgsid, Json.text?, hblank]
    have hfails := hpassed _ (by
      rw [reconcileIntent, if_pos ⟨htype, hreason⟩, hnone])
    cases hfails
  · have hnamed : namedAt intent.payload.entries "goal_session_id" = some gsid := by
      simp [namedAt, hgsid, Json.text?, hblank]
    exact hpassed _ (by rw [reconcileIntent, if_pos ⟨htype, hreason⟩, hnamed])

theorem tips_reconciled_iff :
    TipsReconciled env domain committed ↔ UnreadTipsReconciled env domain committed := by
  constructor
  · intro hall intent hintent gsid hcompletes planId brief hbrief tip htip _
    exact hall intent hintent gsid hcompletes planId brief hbrief tip htip
  · intro hunread intent hintent gsid hcompletes planId brief hbrief tip htip
    by_cases hread : intent.eventType = .goalSessionTerminated ∧ tip = activeBrief committed brief
    · obtain ⟨htype, rfl⟩ := hread
      exact evidenced_of_reconcile (reconciled_of_native h hintent htype hcompletes) hbrief
    · exact hunread intent hintent gsid hcompletes planId brief hbrief tip htip
        fun htype heq => hread ⟨htype, heq⟩

end

end

/-- Every completion is native and no brief has two amendments. -/
structure Unbranched (domain : List EventIntent) (committed : List EventRecord) : Prop where
  native : ∀ intent ∈ domain, ∀ gsid, Completes intent gsid →
    intent.eventType = .goalSessionTerminated
  single : ∀ older newer other, Amends committed older newer → Amends committed older other →
    newer = other

section

variable {env : LedgerEnv} {domain : List EventIntent} {log : CommittedLog}

theorem mem_iterKind {committed : List EventRecord} (h : reading ∈ iterKind committed kind) :
    reading.record ∈ committed ∧
      reading.entries = (effKindPayload reading.record.eventType reading.record.payload).2 := by
  obtain ⟨record, hrecord, h⟩ := List.mem_filterMap.mp h
  dsimp only at h
  split at h
  · cases h
    exact ⟨hrecord, rfl⟩
  · cases h

theorem briefs_injective (hleft : left ∈ briefs log.records) (hright : right ∈ briefs log.records)
    (h : left.record.eventId.val = right.record.eventId.val) : left = right := by
  obtain ⟨hmem, hentries⟩ := mem_iterKind hleft
  obtain ⟨hmem', hentries'⟩ := mem_iterKind hright
  have hrecord := List.inj_on_of_nodup_map log.distinct hmem hmem' h
  cases left
  cases right
  simp only at hrecord hentries hentries'
  subst hrecord
  rw [hentries, hentries']

theorem amends_of_supersederOf {committed : List EventRecord}
    (h : supersederOf committed brief.record.eventId.val = some newer) :
    Amends committed brief newer := by
  have hfound := List.find?_some h
  exact ⟨List.mem_of_find?_eq_some h, hfound⟩

theorem supersederOf_eq_none {committed : List EventRecord}
    (h : ∀ newer, ¬ Amends committed brief newer) :
    supersederOf committed brief.record.eventId.val = none := by
  cases hfind : supersederOf committed brief.record.eventId.val with
  | none => rfl
  | some newer => exact absurd (amends_of_supersederOf hfind) (h newer)

theorem tip_eq_activeBrief (h : Unbranched domain log.records) (hbrief : brief ∈ briefs log.records)
    (htip : Tip log.records brief tip) : tip = activeBrief log.records brief := by
  let next := fun brief : Reading => supersederOf log.records brief.record.eventId.val
  have hnext : ∀ {older newer}, Amends log.records older newer → next older = some newer := by
    intro older newer hamends
    cases hfind : next older with
    | none =>
      have habsent := List.find?_eq_none.mp hfind newer hamends.1
      exact absurd hamends.2 habsent
    | some other => rw [h.single older newer other hamends (amends_of_supersederOf hfind)]
  have hend : next tip = none := supersederOf_eq_none htip.last
  have hcarrier : ∀ x y, next x = some y → y ∈ briefs log.records :=
    fun x y hxy => (amends_of_supersederOf hxy).1
  obtain ⟨n, hleads⟩ : ∃ n, Leads next n brief tip := by
    have hreached := htip.reached
    clear hbrief htip
    induction hreached using Relation.ReflTransGen.head_induction_on with
    | refl => exact ⟨0, rfl⟩
    | head hamends _ ih =>
      obtain ⟨n, hleads⟩ := ih
      exact ⟨n + 1, _, hnext hamends, hleads⟩
  have hseen : ∀ k ∈ [brief.record.eventId.val], ∃ y m, y ∈ briefs log.records ∧
      y.record.eventId.val = k ∧ Leads next m y tip ∧ n ≤ m := by
    intro k hk
    rw [List.mem_singleton.mp hk]
    exact ⟨brief, n, hbrief, rfl, hleads, Nat.le_refl n⟩
  exact (follow_eq_end hend hcarrier (fun x y hx hy hxy => briefs_injective hx hy hxy) hleads
    (hleads.le_length hend hcarrier) hseen).symm

theorem mem_briefs_of_goalBrief (h : GoalBrief log.records env gsid planId brief) :
    brief ∈ briefs log.records := by
  obtain ⟨briefRef, -, hfind⟩ := Option.bind_eq_some_iff.mp h.frozen
  exact List.mem_of_find?_eq_some hfind

theorem unread_of_unbranched (h : Unbranched domain log.records) :
    UnreadTipsReconciled env domain log.records := by
  intro intent hintent gsid hcompletes planId brief hbrief tip htip hunread
  exact absurd (tip_eq_activeBrief h (mem_briefs_of_goalBrief hbrief) htip)
    (hunread (h.native intent hintent gsid hcompletes))

/-- A passed check leaves a goal without evidence only behind a completion or a tip it does not
read; where completions are native and chains unbranched it reads them all. -/
theorem live_targets_reconciled
    (h : (checkLiveTargetReconciled log.records env domain).passed = true) :
    (TipsReconciled env domain log.records ↔ UnreadTipsReconciled env domain log.records) ∧
      (Unbranched domain log.records → TipsReconciled env domain log.records) :=
  ⟨tips_reconciled_iff h, fun hunbranched =>
    (tips_reconciled_iff h).mpr (unread_of_unbranched hunbranched)⟩

end

def sampleLedgerEnv : LedgerEnv where
  str := fun value => value.text?.getD ""
  repr := fun value => value.text?.getD ""
  eq := fun left right => left == right
  validateCriterion := fun entries =>
    match Json.nonBlank entries "verification_method", Json.lookup entries "min_occurrences" with
    | some "ledger_event", .int minOccurrences => .ok
      { verificationMethod := .ledgerEvent, eventKind := Json.nonBlank entries "event_kind"
        minOccurrences := some minOccurrences, scopeBinding := some .thisGoal }
    | _, _ => .error "verification_method"

def sampleEvent (sequenceNumber : Nat) (eventType : EventType) (entries : List (String × Json))
    (h : (Json.obj entries).proper = true) : EventRecord :=
  stamp sampleEnv { sampleIntent with eventType, payload := ⟨entries, h⟩ }
    (sampleDraw sequenceNumber).eventId sampleTime sequenceNumber none

/-- The goal `g` of plan `p`, whose brief asks for a frozen manifest. -/
def goalRecords : List EventRecord :=
  [sampleEvent 0 .goalSessionStarted
      [("goal_session_id", .str "g"), ("task_id", .str "t")] (by decide),
    sampleEvent 1 .taskNodeCreated [("task_id", .str "t"), ("plan_id", .str "p")] (by decide),
    sampleEvent 2 .engineeringConsensusFreezed
      [("plan_id", .str "p"), ("brief_event_id", .str "b-1")] (by decide),
    sampleEvent 3 .interviewBriefPublished
      [("brief_id", .str "b-1"), ("live_target_observables", .arr [.obj
        [("observable_id", .str "o-1"), ("evidence", .obj
          [("verification_method", .str "ledger_event"), ("event_kind", .str "ManifestFrozen"),
            ("min_occurrences", .int 1)])]])] (by decide)]

def unmetLog : CommittedLog where
  records := goalRecords
  increasing := by decide +kernel
  distinct := by decide +kernel

def metLog : CommittedLog where
  records := goalRecords ++ [sampleEvent 4 .nodeTouched
    [("kind", .str "ManifestFrozen"), ("stub_original_payload", .obj [("task_id", .str "t")])]
    (by decide)]
  increasing := by decide +kernel
  distinct := by decide +kernel

def completionEntries : Dict String Json :=
  [("goal_session_id", .str "g"), ("termination_reason", .str "completion")]

def nativeCompletion : EventIntent :=
  { sampleIntent with
    eventType := .goalSessionTerminated, payload := ⟨completionEntries, by decide⟩ }

def stubCompletion : EventIntent :=
  { sampleIntent with
    eventType := .nodeTouched
    payload := ⟨[("kind", .str "GoalSessionTerminated"),
      ("stub_original_payload", .obj completionEntries)], by decide⟩ }

theorem nativeCompletion_reconciled :
    TipsReconciled sampleLedgerEnv [nativeCompletion] metLog.records := by
  refine (live_targets_reconciled (by decide +kernel)).2 ⟨?_, ?_⟩
  · intro intent hintent _ _
    rw [List.mem_singleton.mp hintent]
    rfl
  · intro older newer _ hamends _
    have hnone : (briefs metLog.records).all (fun brief => Json.lookup
        (Json.lookup brief.entries "audit_trace_refs").asDict "superseded_brief_event_id" == .null) =
          true := by decide +kernel
    have hnull := List.all_eq_true.mp hnone newer hamends.1
    have hamends := hamends.2
    simp [supersedesBrief, eq_of_beq hnull] at hamends

/-- A stub completion passes without evidence. -/
theorem stubCompletion_unreconciled :
    ¬ ∀ (log : CommittedLog) (domain : List EventIntent),
      (checkLiveTargetReconciled log.records sampleLedgerEnv domain).passed = true →
        TipsReconciled sampleLedgerEnv domain log.records := by
  intro hclaim
  have hall := hclaim unmetLog [stubCompletion] (by decide +kernel)
  have hplan : resolvePlanIdForGoal unmetLog.records "g" = some "p" := by decide +kernel
  have hread : (((consensusBriefRefForPlan unmetLog.records "p").bind
      (briefRecord unmetLog.records sampleLedgerEnv)).map fun brief =>
        ((briefs unmetLog.records).all fun newer =>
            !supersedesBrief newer brief.record.eventId.val,
          (observablesOf brief).all fun observable => (unsatisfied unmetLog.records sampleLedgerEnv
            (goalScope unmetLog.records "p") observable).isSome, (observablesOf brief).length)) =
      some (true, true, 1) := by decide +kernel
  obtain ⟨brief, hbrief, hfacts⟩ := Option.map_eq_some_iff.mp hread
  obtain ⟨hlast, hfacts⟩ := Prod.mk.inj hfacts
  obtain ⟨hunmet, hone⟩ := Prod.mk.inj hfacts
  have htip : Tip unmetLog.records brief brief := by
    refine ⟨Relation.ReflTransGen.refl, fun newer hamends => ?_⟩
    have hnone := List.all_eq_true.mp hlast newer hamends.1
    simp [hamends.2] at hnone
  have hevidenced := hall stubCompletion (List.mem_singleton_self _) "g" ⟨rfl, rfl, rfl⟩ "p" brief
    ⟨hplan, hbrief⟩ brief htip
  obtain ⟨observable, hobservable⟩ := List.exists_mem_of_length_pos (by rw [hone]; decide)
  have hsome := List.all_eq_true.mp hunmet observable hobservable
  rw [hevidenced observable hobservable] at hsome
  cases hsome

end Flowness.CommitGate
