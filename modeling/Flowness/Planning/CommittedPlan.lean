import Flowness.Ledger.ForeignMerge
import Flowness.Planning.PlanReaders

/-!
The freeze checks on the raw lines of the hot segments against the same checks on the committed stream. A
write that was torn leaves lines that never become visible, and what is moved to cold storage is no longer
among the hot lines; the verdicts agree while neither happens to an event that a check reads.
-/

namespace Flowness.Planning

open List Library Schemas Ledger

structure WholeWrite where
  records : List EventRecord
  whole : WriteUnit records
  known : ∀ record ∈ records, record.isKnown = true

structure TornWrite where
  records : List EventRecord
  rest : List Text
  known : ∀ record ∈ records, record.isKnown = true
  noRecord : parsedRecords rest = []

def WholeWrite.lines (write : WholeWrite) : List Text := write.records.map EventRecord.dumpJson

def TornWrite.lines (write : TornWrite) : List Text := write.records.map EventRecord.dumpJson ++ write.rest

structure PlanLog where
  hot : List Text
  history : List Text

def PlanLog.empty : PlanLog := { hot := [], history := [] }

def PlanLog.append (log : PlanLog) (lines : List Text) : PlanLog :=
  { hot := log.hot ++ lines, history := log.history ++ lines }

inductive PlanAction where
  | write (write : WholeWrite)
  | tear (write : TornWrite)
  /-- A compaction or a cold move takes lines out of the hot segments. -/
  | archive (keeps : Text → Bool)

def planStep (log : PlanLog) : PlanAction → Option PlanLog
  | .write write => some (log.append write.lines)
  | .tear write => some (log.append write.lines)
  | .archive keeps => some { log with hot := log.hot.filter keeps }

def committedEvents (history : List Text) : Except ScanError (List LogEvent) :=
  (iterCommittedRecordsFromLines history).map fun records => records.map EventRecord.toEntries

section

variable {δ : Type} (env : PlanCheckEnv δ)

/-- The verdicts on the hot lines are those on the committed stream. -/
def JudgesCommitted (log : PlanLog) : Prop :=
  ∃ committed, committedEvents log.history = .ok committed ∧ SameVerdicts env (readEvents log.hot) committed

def KeepsPlan (log : PlanLog) : PlanAction → Prop
  | .write _ => True
  | .tear write => ∀ event ∈ readEvents write.lines, isPlanEvent env event = false
  | .archive keeps => ∀ event ∈ readEvents (log.hot.filter fun line => !keeps line),
      isPlanEvent env event = false

instance (log : PlanLog) : (action : PlanAction) → Decidable (KeepsPlan env log action)
  | .write _ => isTrue trivial
  | .tear _ => inferInstanceAs (Decidable (∀ event ∈ _, _ = false))
  | .archive _ => inferInstanceAs (Decidable (∀ event ∈ _, _ = false))

end

theorem readEvents_append (left right : List Text) :
    readEvents (left ++ right) = readEvents left ++ readEvents right := filterMap_append

theorem readEvents_dump (records : List EventRecord) :
    readEvents (records.map EventRecord.dumpJson) = records.map EventRecord.toEntries := by
  unfold readEvents
  rw [filterMap_map]
  refine filterMap_eq_map_iff_forall_eq_some.mpr fun record _ => ?_
  rw [Function.comp_apply, EventRecord.parse_dumpJson]
  rfl

theorem filter_readEvents
    (h : ∀ event ∈ readEvents (lines.filter fun line => !keeps line), p event = false) :
    (readEvents (lines.filter keeps)).filter p = (readEvents lines).filter p := by
  induction lines with
  | nil => rfl
  | cons line lines ih =>
    cases hkeeps : keeps line with
    | true =>
      rw [filter_cons_of_neg (by simp [hkeeps])] at h
      rw [filter_cons_of_pos hkeeps, ← singleton_append, readEvents_append, filter_append, ih h,
        ← filter_append, ← readEvents_append, singleton_append]
    | false =>
      rw [filter_cons_of_pos (by simp [hkeeps]), ← singleton_append, readEvents_append] at h
      have hline : (readEvents [line]).filter p = [] :=
        filter_eq_nil_iff.mpr fun event hevent => by simp [h event (mem_append_left _ hevent)]
      rw [filter_cons_of_neg (by simp [hkeeps]), ih fun event hevent => h event (mem_append_right _ hevent),
        ← singleton_append (l := lines), readEvents_append, filter_append, hline, nil_append]

section

variable {δ : Type} {env : PlanCheckEnv δ} {log next : PlanLog} {action : PlanAction}

theorem mem_waiting_of_mem_pending {buffer : Buffer} (h : record ∈ buffer.pending batchId) :
    record ∈ buffer.waiting := by
  unfold Buffer.pending at h
  cases hget : Dict.get buffer batchId with
  | none =>
    rw [hget] at h
    cases h
  | some records =>
    rw [hget] at h
    exact mem_flatMap.mpr ⟨(batchId, records), Dict.mem_of_get hget, h⟩

def IsPlanRecord (env : PlanCheckEnv δ) (record : EventRecord) : Prop := isPlanEvent env record.toEntries = true

/-- The committed scan succeeds, no plan event waits for a sentinel, and the hot lines have the plan events
of the committed stream. -/
structure PlanVisible (env : PlanCheckEnv δ) (log : PlanLog) : Prop where
  scan : ∃ committed buffer, visitAll [] (parsedRecords log.history) = .ok (committed, buffer) ∧
    (∀ record ∈ buffer.waiting, ¬ IsPlanRecord env record) ∧
      (readEvents log.hot).filter (isPlanEvent env) =
        (committed.map EventRecord.toEntries).filter (isPlanEvent env)

theorem filter_planRecords_eq_nil {records : List EventRecord} (h : ∀ record ∈ records,
    ¬ IsPlanRecord env record) :
    (records.map EventRecord.toEntries).filter (isPlanEvent env) = [] := by
  rw [filter_eq_nil_iff]
  intro event hevent
  obtain ⟨record, hrecord, rfl⟩ := mem_map.mp hevent
  exact h record hrecord

theorem visitAll_snoc (hlines : parsedRecords lines = records)
    (hscan : visitAll [] (parsedRecords history) = .ok (committed, buffer))
    (hvisit : visitAll buffer records = .ok (out, final)) :
    visitAll [] (parsedRecords (history ++ lines)) = .ok (committed ++ out, final) := by
  rw [parsedRecords_append, hlines]
  exact visitAll_append_ok hscan hvisit

theorem PlanVisible.write (h : PlanVisible env log) (write : WholeWrite) :
    PlanVisible env (log.append write.lines) := by
  obtain ⟨committed, buffer, hscan, hwaiting, hsame⟩ := h.scan
  obtain ⟨final, hvisit, -⟩ := write.whole.visitAll_pending write.known buffer
  have hearlier : ∀ record ∈ (batchIdOf write.records).elim [] buffer.pending, ¬ IsPlanRecord env record := by
    intro record hrecord
    cases hid : batchIdOf write.records with
    | none =>
      rw [hid] at hrecord
      cases hrecord
    | some batchId =>
      rw [hid] at hrecord
      exact hwaiting record (mem_waiting_of_mem_pending hrecord)
  refine ⟨_, final, visitAll_snoc (parsedRecords_dump write.records) hscan hvisit, ?_, ?_⟩
  · intro record hrecord hplan
    have hcount := count_visitAll_le hvisit record
    have hold : buffer.waiting.count record = 0 :=
      count_eq_zero.mpr fun hmem => hwaiting record hmem hplan
    have hnew : 0 < final.waiting.count record := count_pos_iff.mpr hrecord
    rw [count_append] at hcount
    omega
  · have hlines : readEvents write.lines = write.records.map EventRecord.toEntries :=
      readEvents_dump write.records
    unfold PlanLog.append
    rw [readEvents_append, filter_append, hsame, hlines, map_append, map_append, filter_append,
      filter_append, filter_planRecords_eq_nil hearlier, nil_append]

theorem PlanVisible.tear (h : PlanVisible env log) (write : TornWrite)
    (hkeeps : ∀ event ∈ readEvents write.lines, isPlanEvent env event = false) :
    PlanVisible env (log.append write.lines) := by
  obtain ⟨committed, buffer, hscan, hwaiting, hsame⟩ := h.scan
  have hlines : parsedRecords write.lines = write.records := by
    unfold TornWrite.lines
    rw [parsedRecords_append, parsedRecords_dump, write.noRecord, append_nil]
  have hplain : ∀ record ∈ write.records, ¬ IsPlanRecord env record := by
    intro record hrecord hplan
    have hevent : record.toEntries ∈ readEvents write.lines := by
      unfold TornWrite.lines
      rw [readEvents_append, readEvents_dump]
      exact mem_append_left _ (mem_map_of_mem hrecord)
    have hnot := hkeeps _ hevent
    rw [IsPlanRecord, hnot] at hplan
    cases hplan
  obtain ⟨out, final, hvisit⟩ := visitAll_ok buffer fun record hrecord =>
    failsReplay_of_isKnown (write.known record hrecord)
  have hread : ∀ record, record ∈ out ∨ record ∈ final.waiting → ¬ IsPlanRecord env record := by
    intro record hmem hplan
    have hcount := count_visitAll_le hvisit record
    have hold : buffer.waiting.count record = 0 :=
      count_eq_zero.mpr fun hmem => hwaiting record hmem hplan
    have hnew : write.records.count record = 0 :=
      count_eq_zero.mpr fun hmem => hplain record hmem hplan
    rcases hmem with hmem | hmem
    · have := count_pos_iff.mpr hmem
      omega
    · have := count_pos_iff.mpr hmem
      omega
  refine ⟨_, final, visitAll_snoc hlines hscan hvisit, fun record hrecord => hread record (.inr hrecord), ?_⟩
  have hnone : (readEvents write.lines).filter (isPlanEvent env) = [] :=
    filter_eq_nil_iff.mpr fun event hevent => by simp [hkeeps event hevent]
  unfold PlanLog.append
  rw [readEvents_append, filter_append, hsame, hnone, append_nil, map_append, filter_append,
    filter_planRecords_eq_nil fun record hrecord => hread record (.inl hrecord), append_nil]

theorem PlanVisible.step (h : PlanVisible env log) (hkeeps : KeepsPlan env log action)
    (hstep : planStep log action = some next) : PlanVisible env next := by
  cases action with
  | write write =>
    cases hstep
    exact h.write write
  | tear write =>
    cases hstep
    exact h.tear write hkeeps
  | archive keeps =>
    cases hstep
    obtain ⟨committed, buffer, hscan, hwaiting, hsame⟩ := h.scan
    exact ⟨committed, buffer, hscan, hwaiting, (filter_readEvents hkeeps).trans hsame⟩

/-- While torn writes and archivals spare the plan events, the checks judge the committed plan. -/
theorem judges_committed {actions : List PlanAction}
    (hrun : Run planStep (KeepsPlan env) .empty actions log) : JudgesCommitted env log := by
  have hvisible : PlanVisible env log :=
    hrun.invariant (I := PlanVisible env)
      ⟨[], [], rfl, fun record hrecord => absurd hrecord not_mem_nil, rfl⟩
      fun _ _ _ hstate => hstate.step
  obtain ⟨committed, buffer, hscan, -, hsame⟩ := hvisible.scan
  refine ⟨committed.map EventRecord.toEntries, ?_, sameVerdicts_of_planEvents hsame⟩
  unfold committedEvents iterCommittedRecordsFromLines
  rw [hscan]
  rfl

end

def samplePlanEnv : PlanCheckEnv Unit where
  strOther := sampleStr
  reprList := String.intercalate ", "
  packageCriteria := fun _ => some []

def planRecord (eventType : EventType) (eventId : EventId) (sequenceNumber : Nat) (batch : BatchSlot) :
    EventRecord :=
  stamp sampleEnv
    { sampleIntent with
      eventType
      payload := ⟨[("after_state", .obj [("task_id", .str "task-1"), ("plan_id", .str "plan-1")])], by decide⟩ }
    eventId sampleTime sequenceNumber (some batch)

def taskBatch : WholeWrite where
  records :=
    [planRecord .taskNodeCreated sampleId 0 ⟨"tx-1", "b-1", 0⟩,
      planRecord .taskReadSetClaimed secondId 1 ⟨"tx-1", "b-1", 1⟩,
      planRecord .commitAccepted thirdId 2 ⟨"tx-1", "b-1", 2⟩]
  whole := WriteUnit.batch [_, _] _ "b-1" (by decide +kernel) (by decide +kernel)
  known := by decide +kernel

def tornRecord (eventType : EventType) : TornWrite where
  records := [planRecord eventType fourthId 3 ⟨"tx-2", "b-2", 0⟩]
  rest := []
  known := fun record hrecord => by
    rw [List.mem_singleton.mp hrecord]
    rfl
  noRecord := rfl

def withoutRecord (record : EventRecord) (line : Text) : Bool := line ≠ record.dumpJson

theorem taskBatch_judges_committed :
    JudgesCommitted samplePlanEnv
      { hot := (taskBatch.lines ++ (tornRecord .conceptCreated).lines).filter
          (withoutRecord (planRecord .conceptCreated fourthId 3 ⟨"tx-2", "b-2", 0⟩))
        history := taskBatch.lines ++ (tornRecord .conceptCreated).lines } := by
  let plain := planRecord .conceptCreated fourthId 3 ⟨"tx-2", "b-2", 0⟩
  have hplain : isPlanEvent samplePlanEnv plain.toEntries = false := by decide +kernel
  have htorn : ∀ event ∈ readEvents (tornRecord .conceptCreated).lines,
      isPlanEvent samplePlanEnv event = false := by
    intro event hevent
    have hlines : readEvents (tornRecord .conceptCreated).lines = [plain.toEntries] := readEvents_dump [plain]
    rw [hlines] at hevent
    rw [mem_singleton.mp hevent]
    exact hplain
  have hgone : ∀ event ∈ readEvents ((taskBatch.lines ++ (tornRecord .conceptCreated).lines).filter
      fun line => !withoutRecord plain line), isPlanEvent samplePlanEnv event = false := by
    intro event hevent
    obtain ⟨line, hline, hread⟩ := mem_filterMap.mp hevent
    have hdump : line = plain.dumpJson := by simpa [withoutRecord] using (mem_filter.mp hline).2
    rw [hdump, EventRecord.parse_dumpJson] at hread
    rw [← Option.some.inj hread]
    exact hplain
  have hwrite : KeepsPlan samplePlanEnv .empty (.write taskBatch) := trivial
  have htear : KeepsPlan samplePlanEnv (PlanLog.empty.append taskBatch.lines)
      (.tear (tornRecord .conceptCreated)) :=
    htorn
  have harchive : KeepsPlan samplePlanEnv
      ((PlanLog.empty.append taskBatch.lines).append (tornRecord .conceptCreated).lines)
      (.archive (withoutRecord plain)) := hgone
  exact judges_committed (Run.cons hwrite rfl (Run.cons htear rfl (Run.cons harchive rfl Run.nil)))

/-- A torn batch lends the task the write claim that it lacks on the committed stream. -/
theorem torn_claim_passes_check :
    ¬ ∀ (actions : List PlanAction) (log : PlanLog),
      Run planStep (fun _ _ => True) .empty actions log → JudgesCommitted samplePlanEnv log := by
  intro hclaim
  let torn := tornRecord .taskWriteSetClaimed
  obtain ⟨committed, hcommitted, hsame⟩ := hclaim [.write taskBatch, .tear torn]
    { hot := taskBatch.lines ++ torn.lines, history := taskBatch.lines ++ torn.lines } (Run.of_steps rfl)
  have hparsed : parsedRecords (taskBatch.lines ++ torn.lines) = taskBatch.records ++ torn.records := by
    unfold WholeWrite.lines TornWrite.lines
    rw [parsedRecords_append, parsedRecords_append, parsedRecords_dump, parsedRecords_dump, torn.noRecord,
      append_nil]
  have hread : readEvents (taskBatch.lines ++ torn.lines) =
      (taskBatch.records ++ torn.records).map EventRecord.toEntries := by
    have hlines : readEvents torn.lines = torn.records.map EventRecord.toEntries := readEvents_dump torn.records
    unfold WholeWrite.lines
    rw [readEvents_append, readEvents_dump, hlines, map_append]
  have hstream : committedEvents (taskBatch.lines ++ torn.lines) =
      .ok (taskBatch.records.map EventRecord.toEntries) := by
    unfold committedEvents iterCommittedRecordsFromLines
    rw [hparsed]
    rfl
  obtain rfl : taskBatch.records.map EventRecord.toEntries = committed :=
    Except.ok.inj (hstream.symm.trans hcommitted)
  have hverdict := congrArg Prod.fst (hsame.allTasksSelfContained "plan-1")
  rw [hread] at hverdict
  exact absurd hverdict (by decide +kernel)

end Flowness.Planning
