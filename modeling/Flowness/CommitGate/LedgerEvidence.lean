import Flowness.Schemas.PayloadAccess

/-!
Evidence from the ledger: how many committed events of a kind fall into a scope and match a
predicate. A scope that cannot be anchored is refused, never widened.
-/

namespace Flowness.CommitGate

open Library Schemas

inductive LedgerEventScope where
  | thisRun | thisTask | thisGoal | global
deriving DecidableEq, Repr

def LedgerEventScope.value : LedgerEventScope → String
  | .thisRun => "this_run"
  | .thisTask => "this_task"
  | .thisGoal => "this_goal"
  | .global => "global"

inductive ClosureVerificationMethod where
  | grep | schemaCheck | projectionCheck | manualReasoning | test | replay | gitDiff | ledgerEvent
deriving DecidableEq, Repr

/-- The fields of a `ClosureCriterion` a ledger check reads. -/
structure ClosureCriterion where
  verificationMethod : ClosureVerificationMethod
  eventKind : Option String := none
  payloadPredicate : Option (Dict String Json) := none
  minOccurrences : Option Int := none
  scopeBinding : Option LedgerEventScope := none

/-- What the check takes from Python and pydantic: `str`, `repr` and `==` of JSON values, and the
validation of a criterion. -/
structure LedgerEnv where
  str : Json → String
  repr : Json → String
  eq : Json → Json → Bool
  validateCriterion : Dict String Json → Except String ClosureCriterion

structure LedgerScopeContext where
  runId : Option String := none
  taskId : Option String := none
  goalTaskIds : Option (List String) := none

/-- `_ledger_payload_matches`: the members of `after_state` go first. -/
def ledgerPayloadMatches (env : LedgerEnv) (entries : Dict String Json)
    (predicate : Option (Dict String Json)) : Bool :=
  (predicate.getD []).all fun (key, expected) => env.eq (afterOrTop entries key) expected

def ledgerScopeId (provenance : Option String) (entries : Dict String Json) (key : String) :
    Option String :=
  (provenance.filter (· ≠ "")).or
    ((Json.nonBlank (Json.lookup entries "after_state").asDict key).or (Json.nonBlank entries key))

def ledgerInScope (record : EventRecord) (entries : Dict String Json) (scope : LedgerEventScope)
    (context : LedgerScopeContext) : Bool :=
  match scope with
  | .global => true
  | .thisRun => ledgerScopeId record.provenance.runId entries "run_id" == context.runId
  | .thisTask => ledgerScopeId record.provenance.taskId entries "task_id" == context.taskId
  | .thisGoal =>
    match context.goalTaskIds, ledgerScopeId record.provenance.taskId entries "task_id" with
    | some taskIds, some taskId => taskIds.contains taskId
    | _, _ => false

structure LedgerVerdict where
  /-- `none`: the scope cannot be anchored. -/
  passed : Option Bool
  detail : String
  count : Nat

def scopeDefect (scope : LedgerEventScope) (context : LedgerScopeContext) : Option String :=
  match scope with
  | .thisRun =>
    if (context.runId.filter (· ≠ "")).isSome then none
    else some "scope=this_run 但 run_id 锚点缺失 — 无法结构锚定, fail-closed"
  | .thisTask =>
    if (context.taskId.filter (· ≠ "")).isSome then none
    else some "scope=this_task 但 task_id 锚点缺失 — 无法结构锚定, fail-closed"
  | .thisGoal =>
    if context.goalTaskIds.isSome then none
    else some ("scope=this_goal 但 goal→plan→task 集解析失败 — 无法结构锚定, fail-closed " ++
      "(绝不静默扩成 global 让别 goal 的旧事件误算)")
  | .global => none

def countsFor (env : LedgerEnv) (eventKind : String) (predicate : Option (Dict String Json))
    (scope : LedgerEventScope) (context : LedgerScopeContext) (record : EventRecord) : Bool :=
  let (kind, entries) := effKindPayload record.eventType record.payload
  kind == eventKind && ledgerPayloadMatches env entries predicate &&
    ledgerInScope record entries scope context

def gateLedgerEvent (env : LedgerEnv) (eventKind : String) (predicate : Option (Dict String Json))
    (minOccurrences : Int) (scope : LedgerEventScope) (records : List EventRecord)
    (context : LedgerScopeContext) : LedgerVerdict :=
  if minOccurrences < 1 then
    { passed := none, count := 0
      detail := "min_occurrences=" ++ toString minOccurrences ++
        " < 1 (合约自相矛盾, fail-closed)" }
  else
    match scopeDefect scope context with
    | some detail => { passed := none, detail, count := 0 }
    | none =>
      let count := records.countP (countsFor env eventKind predicate scope context)
      { passed := some (decide (minOccurrences ≤ count)), count
        detail := "门读 committed 账本 event_kind=" ++ env.repr (.str eventKind) ++ " scope=" ++
          scope.value ++ " 真计数 " ++ toString count ++ ", 门槛 ≥" ++ toString minOccurrences ++
          (match predicate.filter (· ≠ []) with
            | some entries => ", predicate=" ++ env.repr (.obj entries)
            | none => "") }

end Flowness.CommitGate
