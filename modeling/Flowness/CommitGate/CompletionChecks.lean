import Flowness.CommitGate.Effects
import Flowness.CommitGate.ReviewVerdict

/-!
The two checks of the gate on what ends a task: the verdict behind the completion of a review, and the
evidence behind a closure. Each matches the type of an intent by its own rule.
-/

namespace Flowness.CommitGate

open Library Schemas Ledger

structure ClosureEvidenceResult where
  passed : Bool
  applicable : Bool := false
  failureReason : Option String := none
  failureEvidence : List (String × String) := []
deriving DecidableEq, Repr

/-- Why the evidence for a closure does not hold, given its `after_state`, its task and the log: the reason
and the evidence of the failure. -/
abbrev EvidenceContract := Dict String Json → String → EventIndex → List EventRecord →
  Option (String × List (String × String))

structure ClosureContracts where
  retired : EvidenceContract
  doneElsewhere : EvidenceContract
  /-- Python's `repr`. -/
  repr : Json → String

/-- `_closed_after_states`, one intent: a wrapped closure faces the check as well. -/
def closedAfterState (intent : EventIntent) : Option (Dict String Json) :=
  let (kind, payload) := effKindPayload intent.eventType intent.payload
  if kind = "TaskNodeClosed" then some (Json.lookup payload "after_state").asDict else none

def closureFailure (failure : String × List (String × String)) : ClosureEvidenceResult :=
  { passed := false, applicable := true, failureReason := some failure.1, failureEvidence := failure.2 }

section

variable (contracts : ClosureContracts) (index : EventIndex) (committedRecords : List EventRecord)

def closureUnknownReason (taskId : String) (reason : Json) : String × List (String × String) :=
  ("closure_unknown_reason", [("task_id", taskId), ("reason", "未识别的 closure reason=" ++
    contracts.repr reason ++ " — anti-fake-done 门 fail-closed 拒")])

def checkClosure (after : Dict String Json) : Option (String × List (String × String)) :=
  match Json.nonBlank after "task_id" with
  | none => some ("closure_task_id_missing", [("reason", "TaskNodeClosed.after_state 无 task_id, 无法核验关闭")])
  | some taskId =>
    match Json.lookup after "reason" with
    | .str "retired" => contracts.retired after taskId index committedRecords
    | .str "done_elsewhere" => contracts.doneElsewhere after taskId index committedRecords
    | reason => some (closureUnknownReason contracts taskId reason)

def checkClosureEvidenceVerification (domainIntents : List EventIntent) : ClosureEvidenceResult :=
  let afterStates := domainIntents.filterMap closedAfterState
  match afterStates.findSome? (checkClosure contracts index committedRecords) with
  | some failure => closureFailure failure
  | none => { passed := true, applicable := afterStates ≠ [] }

end

structure CompletionsPass (verdict : VerdictEnv) (contracts : ClosureContracts) (read : CommittedLog)
    (domainIntents : List EventIntent) : Prop where
  review : (checkReviewVerdictGatedCompletion verdict domainIntents (EventIndex.build read.records)
    read.records).passed = true
  closure : (checkClosureEvidenceVerification contracts (EventIndex.build read.records) read.records
    domainIntents).passed = true

instance (verdict : VerdictEnv) (contracts : ClosureContracts) (read : CommittedLog)
    (domainIntents : List EventIntent) : Decidable (CompletionsPass verdict contracts read domainIntents) :=
  decidable_of_iff (_ ∧ _) ⟨fun h => ⟨h.1, h.2⟩, fun h => ⟨h.review, h.closure⟩⟩

section

variable {verdict : VerdictEnv} {contracts : ClosureContracts} {read : CommittedLog}
  {domainIntents : List EventIntent} {intent : EventIntent}

theorem failed_of_checkIntent {index : EventIndex}
    (h : checkIntent verdict domainIntents index records intent = some result) :
    result.passed = false := by
  unfold checkIntent at h
  split at h
  · cases h
  · split at h
    · split at h
      · cases h
        rfl
      · unfold checkReviewCompletion at h
        dsimp only at h
        split at h
        · cases h
          rfl
        · split at h
          · cases h
          · cases h
            rfl
    · cases h

section

variable (h : CompletionsPass verdict contracts read domainIntents)
    (hintent : intent ∈ domainIntents)
include h hintent

theorem CompletionsPass.checkIntent_eq_none :
    checkIntent verdict domainIntents (EventIndex.build read.records) read.records intent = none := by
  have hreview := h.review
  unfold checkReviewVerdictGatedCompletion at hreview
  cases hfind : domainIntents.findSome?
      (checkIntent verdict domainIntents (EventIndex.build read.records) read.records) with
  | none => exact List.findSome?_eq_none_iff.mp hfind intent hintent
  | some result =>
    obtain ⟨other, -, hresult⟩ := List.exists_of_findSome?_eq_some hfind
    rw [hfind, Option.getD_some, failed_of_checkIntent hresult] at hreview
    cases hreview

theorem CompletionsPass.checkClosure_eq_none (hafter : closedAfterState intent = some after) :
    checkClosure contracts (EventIndex.build read.records) read.records after = none := by
  have hclosure := h.closure
  unfold checkClosureEvidenceVerification at hclosure
  dsimp only at hclosure
  split at hclosure
  · cases hclosure
  next hnone =>
    exact List.findSome?_eq_none_iff.mp hnone after (List.mem_filterMap.mpr ⟨intent, hintent, hafter⟩)

end

theorem nonBlank_of_checkClosure {index : EventIndex}
    (h : checkClosure contracts index records after = none) :
    ∃ taskId, Json.nonBlank after "task_id" = some taskId := by
  unfold checkClosure at h
  split at h
  · cases h
  next taskId htask =>
    exact ⟨taskId, htask⟩

end

end Flowness.CommitGate
