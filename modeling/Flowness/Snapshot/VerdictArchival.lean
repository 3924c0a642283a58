import Flowness.CommitGate.ReviewVerdict
import Flowness.Snapshot.Collection

/-!
The completion check of a review on a log that is archived. It folds every event of the findings, while
the roots of the collection keep the last one of each; the verdict is the one of the whole log while no
archival takes a record that it depends on.
-/

namespace Flowness.Snapshot

open Library Schemas Ledger CommitGate

structure ArchivedLog where
  hot : HotLog
  run : Option MaintenanceRun
  committed : List EventRecord

def ArchivedLog.initial (hot : HotLog) : ArchivedLog := { hot, run := none, committed := hot.records }

inductive LogAction where
  /-- A write of anyone, of a maintenance run too. -/
  | write (rotates : Bool) (records : List EventRecord)
  | startRun (kind : MaintenanceKind) (projections : Projections) (projectionCursor : Int)
    (leases : List RetentionLease)
  | archive (segment : Nat)

def logStep (log : ArchivedLog) : LogAction → Option ArchivedLog
  | .write rotates records =>
    some { log with hot := log.hot.append rotates records, committed := log.committed ++ records }
  | .startRun kind projections projectionCursor leases =>
    some { log with run := some (startRun log.hot kind projections projectionCursor leases) }
  | .archive segment => (log.run.bind (log.hot.archive · segment)).map fun later => { log with hot := later }

/-- On the segment that is archived, the run's roots pin each record that a verdict may depend on. -/
def KeepsVerdicts (log : ArchivedLog) : LogAction → Prop
  | .archive segment => ∀ run ∈ log.run, ∀ records ∈ log.hot.sealed[segment]?, ∀ record ∈ records,
      isVerdictRecord record = true → run.start.Pins records record
  | _ => True

instance (log : ArchivedLog) : (action : LogAction) → Decidable (KeepsVerdicts log action)
  | .archive segment => inferInstanceAs (Decidable (∀ run ∈ log.run,
      ∀ records ∈ log.hot.sealed[segment]?, ∀ record ∈ records, _ → _))
  | .write _ _ => isTrue trivial
  | .startRun _ _ _ _ => isTrue trivial

/-- The check says of every batch what it says on the log that was never archived. -/
def VerdictKept (env : VerdictEnv) (log : ArchivedLog) : Prop :=
  ∀ domainIntents,
    checkReviewVerdictGatedCompletion env domainIntents (EventIndex.build log.hot.records) log.hot.records =
      checkReviewVerdictGatedCompletion env domainIntents (EventIndex.build log.committed) log.committed

section

variable {env : VerdictEnv} {log next : ArchivedLog} {action : LogAction}

def VerdictRecordsHot (log : ArchivedLog) : Prop :=
  log.hot.records.filter isVerdictRecord = log.committed.filter isVerdictRecord

theorem VerdictRecordsHot.step (h : VerdictRecordsHot log) (hkeeps : KeepsVerdicts log action)
    (hstep : logStep log action = some next) : VerdictRecordsHot next := by
  cases action with
  | write rotates records =>
    cases hstep
    unfold VerdictRecordsHot at ⊢
    rw [HotLog.append_records, List.filter_append, List.filter_append, h]
  | startRun kind projections projectionCursor leases =>
    cases hstep
    exact h
  | archive segment =>
    obtain ⟨later, hlater, rfl⟩ := Option.map_eq_some_iff.mp hstep
    obtain ⟨run, hrun, harchive⟩ := Option.bind_eq_some_iff.mp hlater
    obtain ⟨kept, hkept, rfl⟩ := Option.map_eq_some_iff.mp harchive
    obtain ⟨records, hrecords, hkept⟩ := Option.bind_eq_some_iff.mp hkept
    refine (HotLog.filter_set hrecords ?_).trans h
    rw [run.keeps_eq hkept, List.filter_filter]
    apply List.filter_congr
    intro record hrecord
    cases hverdict : isVerdictRecord record with
    | false => rfl
    | true =>
      have hpins := hkeeps run hrun records hrecords record hrecord hverdict
      rw [decide_eq_true hpins]
      rfl

end

def sampleVerdictEnv : VerdictEnv where
  str := fun value => value.text?.getD ""
  setOrder := fun texts => texts
  mem_setOrder := fun _ _ => Iff.rfl

def reviewerHint : ProvenanceHint :=
  { sampleIntent.provenanceHint with sessionId := some "sess-1" }

def reviewIntent (eventType : EventType) (eventCategory : EventCategory) (payload : Payload) : EventIntent :=
  { sampleIntent with
    eventType, eventCategory, payload
    provenanceHint := reviewerHint
    subjects := ⟨[⟨.task, ⟨"task-1", by decide⟩, .primary⟩], by decide⟩ }

def reviewTask : EventIntent :=
  reviewIntent .taskNodeCreated .stateTransition
    ⟨[("after_state", .obj [("task_id", .str "task-1"), ("task_type", .str "review")])], by decide⟩

def blockingFinding : EventIntent :=
  reviewIntent .findingCreated .finding
    ⟨[("finding_id", .str "f-1"), ("severity", .str "critical")], by decide⟩

def confirmation : EventIntent :=
  reviewIntent .findingVerified .finding
    ⟨[("finding_id", .str "f-1"), ("verification_state", .str "verified")], by decide⟩

def sampleSentinel : EventIntent := reviewIntent .commitAccepted .commit emptyPayload

def sampleSnapshot : EventIntent :=
  reviewIntent .snapshotCreated .snapshot ⟨[("event_offset", .int 5)], by decide⟩

def reviewCompleted : EventIntent :=
  reviewIntent .taskRunCompleted .stateTransition
    ⟨[("after_state", .obj [("task_id", .str "task-1"), ("outcome", .str "success")])], by decide⟩

def numbered (intent : EventIntent) (eventId : EventId) (sequenceNumber : Nat)
    (batch : Option BatchSlot) : EventRecord :=
  stamp sampleEnv intent eventId sampleTime sequenceNumber batch

def taskBatch : List EventRecord :=
  [numbered reviewTask ⟨"evt-10", by decide⟩ 1 (some ⟨"tx-1", "b-1", 0⟩),
    numbered sampleSentinel ⟨"evt-11", by decide⟩ 2 (some ⟨"tx-1", "b-1", 1⟩)]

def findingBatch : List EventRecord :=
  [numbered blockingFinding ⟨"evt-12", by decide⟩ 3 (some ⟨"tx-2", "b-2", 0⟩),
    numbered confirmation ⟨"evt-13", by decide⟩ 4 (some ⟨"tx-2", "b-2", 1⟩),
    numbered sampleSentinel ⟨"evt-14", by decide⟩ 5 (some ⟨"tx-2", "b-2", 2⟩)]

def laterTask : EventRecord := numbered reviewTask ⟨"evt-16", by decide⟩ 6 none

def findingProjection : Projections :=
  [("finding_lifecycle", [("findings", .arr [.obj [("finding_id", .str "f-1"),
    ("lifecycle_state", .str "verified"), ("last_state_change_event_id", .str "evt-13")]])])]

def archiveFirst (kind : MaintenanceKind) (first second : List EventRecord) : List LogAction :=
  [.write false first, .write true second,
    .write false [numbered sampleSnapshot ⟨"evt-15", by decide⟩ 7 none],
    .startRun kind findingProjection 8 [], .archive 0]

def emptyLog : ArchivedLog := .initial { sealed := [], active := [] }

def archivedLog (kind : MaintenanceKind) (first second : List EventRecord) : ArchivedLog :=
  ((archiveFirst kind first second).foldlM logStep emptyLog).getD emptyLog

end Flowness.Snapshot
