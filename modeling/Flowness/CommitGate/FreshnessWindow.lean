import Flowness.CommitGate.DriftChecks
import Flowness.CommitGate.Effects
import Flowness.CommitGate.Stream

/-!
One call of `attempt_commit` and its `continue_attempt`, at the grain of the log accesses around the
freshness check: the index the checks read, the baseline sequence, the re-read before the write.
Any writer may append between two of them.
-/

namespace Flowness.CommitGate

open Option List Library Schemas Ledger Projection

structure View where
  seen : CommittedLog
  live : Bool

def View.catchUp (view : View) (index : IndexCache) (log : CommittedLog) (rebuilt : Bool) : View :=
  if index.current log then view
  else if rebuilt then { view with live := false }
  else if view.live then { view with seen := log }
  else view

inductive FreshnessStage where
  | entering
  /-- The envelope is written. -/
  | submitted
  | indexed (view : View)
  | checking (view : View) (baseline : Int) (owned : Bool)
  | checked (seen : CommittedLog) (baseline : Int)
  | waiting (seen : CommittedLog)
  /-- `continue_attempt` has read the verdict. -/
  | resuming (seen : CommittedLog)
  | finalizing (seen : CommittedLog) (baseline : Int)
  /-- The re-read found another maximum. -/
  | reread (atReread : CommittedLog)
  | rechecking (atReread : CommittedLog)
  /-- The last freshness check ran on `seen`. -/
  | accepted (seen atReread : CommittedLog)
  | rejected

structure FreshnessState where
  log : CommittedLog
  /-- The events the call has written for its envelope. -/
  own : List String
  index : IndexCache
  stage : FreshnessStage

inductive FreshnessAction where
  /-- Any write of another writer, the submit driver included. -/
  | foreign (records : List EventRecord)
  /-- The end of a rebuild. -/
  | takeSize
  /-- A read of the same `EventLog` outside the checks. -/
  | touch (rebuilt : Bool)
  | submit (envelope : EventIntent) (draw : Draw)
  | materialise (rebuilt : Bool)
  | readBaseline
  /-- A log access of `_read_ownership_projection`. -/
  | readOwnership (rebuilt : Bool)
  /-- `_run_checks`, with the verdict of the other checks. -/
  | check (othersPass : Bool)
  /-- `_emit_audit_triggered`, when there are triggers. -/
  | audit (trigger : Option (EventIntent × Draw)) (auditBlocking : Bool)
  | readVerdict (auditVerdictEventId : String) (rebuilt : Bool)
  | reread
  | reindex (rebuilt : Bool)
  | recheck

/-- `_read_max_seq_on_disk`. -/
def maxSeqOnDisk (log : CommittedLog) : Int := (log.nextSequence : Int) - 1

def readsOwnership (payload : Payload) : Bool :=
  let submitter := (payload.getD "run_id" .null).text?
  submitter.isSome && submitter ≠ some "" && (payload.getD "write_set" (.arr [])).asItems ≠ []

def FreshnessState.caughtUp (state : FreshnessState) (rebuilt : Bool) : FreshnessState :=
  { state with index := state.index.catchUp state.log rebuilt }

section Steps

variable (env : GateEnv) (payload : Payload)

def callStep (state : FreshnessState) : FreshnessStage → FreshnessAction → Option FreshnessState
  | .entering, .submit envelope draw =>
    if envelope.eventType = .transactionEnvelopeSubmitted then do
      let (log, record) ← writeDirectTo env state.log envelope draw
      return { state with log, own := [record.eventId.val], stage := .submitted }
    else none
  | .submitted, .materialise rebuilt =>
    let state := state.caughtUp rebuilt
    some { state with stage := .indexed { seen := state.index.seen, live := true } }
  | .indexed view, .readBaseline =>
    some { state with stage := .checking view (maxSeqOnDisk state.log) false }
  | .checking view baseline _, .readOwnership rebuilt =>
    if readsOwnership payload then
      let view := view.catchUp state.index state.log rebuilt
      some { state.caughtUp rebuilt with stage := .checking view baseline true }
    else none
  | .checking view baseline owned, .check othersPass =>
    if owned || !readsOwnership payload then
      if othersPass && (freshnessDrift env payload view.seen).passed then
        some { state with stage := .checked view.seen baseline }
      else some { state with stage := .rejected }
    else none
  | .checked seen baseline, .audit trigger auditBlocking =>
    match trigger with
    | none => some { state with stage := .finalizing seen baseline }
    | some (intent, draw) => do
      let (log, record) ← writeAuditEvent env state.log intent draw
      return { state with
        log, own := state.own ++ [record.eventId.val]
        stage := if auditBlocking then .waiting seen else .finalizing seen baseline }
  | .waiting seen, .readVerdict auditVerdictEventId rebuilt =>
    let state := state.caughtUp rebuilt
    let verdict := readAuditVerdict (state.index.seen.getEvent auditVerdictEventId)
    some { state with stage := if verdict = "fail" then .rejected else .resuming seen }
  | .resuming seen, .readBaseline =>
    some { state with stage := .finalizing seen (maxSeqOnDisk state.log) }
  | .finalizing seen baseline, .reread =>
    some { state with
      stage := if maxSeqOnDisk state.log = baseline then .accepted seen state.log
        else .reread state.log }
  | .reread atReread, .reindex rebuilt =>
    some { state.caughtUp rebuilt with stage := .rechecking atReread }
  | .rechecking atReread, .recheck =>
    match recheckDrift env payload state.index.seen with
    | some _ => some { state with stage := .rejected }
    | none => some { state with stage := .accepted state.index.seen atReread }
  | .entering, .touch rebuilt => some (state.caughtUp rebuilt)
  | .waiting _, .touch rebuilt => some (state.caughtUp rebuilt)
  | _, _ => none

def freshnessStep (state : FreshnessState) : FreshnessAction → Option FreshnessState
  | .foreign records => do
    let log ← state.log.append env.toWriterEnv records
    return { state with log }
  | .takeSize =>
    if state.index.covered = none then
      some { state with index :=
        { state.index with covered := some state.log.records.length } }
    else none
  | action => if state.index.covered = none then none else callStep env payload state state.stage action

end Steps

def CommittedLog.without (log : CommittedLog) (ids : List String) : CommittedLog where
  records := log.records.filter (·.eventId.val ∉ ids)
  increasing := (log.increasing.sublist ((List.filter_sublist).map _))
  distinct := log.distinct.sublist ((List.filter_sublist).map _)

def callTypes : List EventType := [.transactionEnvelopeSubmitted, .auditTriggered, .auditVerdictReceived]

def OwnTyped (own : List String) (log : CommittedLog) : Prop :=
  ∀ record ∈ log.records, record.eventId.val ∈ own → record.eventType ∈ callTypes

theorem not_invalidating_of_callType (h : eventType ∈ callTypes) :
    eventType ∉ invalidatingEventTypes ∧ eventType ≠ .capsuleCompiled := by
  simp only [callTypes, mem_cons, not_mem_nil, or_false] at h
  rcases h with rfl | rfl | rfl <;> decide

variable {log seen written : CommittedLog} {record : EventRecord} {action : FreshnessAction}
  {stage : FreshnessStage}

section

variable {env : GateEnv} {payload : Payload}

variable {own : List String}

theorem getEvent_without (h : eventId ∉ own) :
    (log.without own).getEvent eventId = log.getEvent eventId := by
  unfold CommittedLog.getEvent CommittedLog.without
  rw [List.find?_filter]
  congr 1
  funext record
  by_cases hid : record.eventId.val = eventId
  · simp [hid, h]
  · simp [hid]

theorem relevantSubjects_without (h : OwnTyped own log) :
    relevantSubjects env payload (log.without own) = relevantSubjects env payload log := by
  have hscope : capsuleNeighborhoodConceptIds (log.without own) (capsuleRef env payload) =
      capsuleNeighborhoodConceptIds log (capsuleRef env payload) := by
    by_cases hown : capsuleRef env payload ∈ own
    · have hleft : (log.without own).getEvent (capsuleRef env payload) = none := by
        refine List.find?_eq_none.mpr fun record hrecord hid => ?_
        have hkept := of_decide_eq_true (mem_filter.mp hrecord).2
        exact hkept (by rwa [beq_iff_eq.mp hid])
      unfold capsuleNeighborhoodConceptIds
      rw [hleft]
      cases hget : log.getEvent (capsuleRef env payload) with
      | none => rfl
      | some record =>
        obtain ⟨hmem, hid⟩ := CommittedLog.getEvent_some hget
        have htype := (not_invalidating_of_callType (h record hmem (hid ▸ hown))).2
        simp only [if_neg htype]
    · unfold capsuleNeighborhoodConceptIds
      rw [getEvent_without hown]
  unfold relevantSubjects freshnessRelevantSubjects
  rw [hscope]

theorem not_drifts_of_callType (h : record.eventType ∈ callTypes) :
    ¬ Drifts payload entity record := by
  rintro ⟨-, hinvalidates⟩
  simp only [invalidates, Bool.and_eq_true, decide_eq_true_eq] at hinvalidates
  exact (not_invalidating_of_callType h).1 hinvalidates.1.2

theorem freshnessDrift_without (h : OwnTyped own log) :
    (freshnessDrift env payload (log.without own)).passed = true ↔
      (freshnessDrift env payload log).passed = true := by
  rw [freshnessDrift_passed, freshnessDrift_passed, relevantSubjects_without h]
  constructor
  · intro hnone entity hentity record hrecord hdrifts
    by_cases hown : record.eventId.val ∈ own
    · exact not_drifts_of_callType (h record hrecord hown) hdrifts
    · exact hnone entity hentity record
        (mem_filter.mpr ⟨hrecord, decide_eq_true hown⟩) hdrifts
  · intro hnone entity hentity record hrecord
    exact hnone entity hentity record (mem_filter.mp hrecord).1

end

def StageSound (env : GateEnv) (payload : Payload) (own : List String) : FreshnessStage → Prop
  | .entering => own = []
  | .checked seen _ | .waiting seen | .resuming seen | .finalizing seen _ =>
    (freshnessDrift env payload seen).passed = true
  | .reread atReread | .rechecking atReread => OwnTyped own atReread
  | .accepted seen atReread =>
    (freshnessDrift env payload seen).passed = true ∧ OwnTyped own atReread
  | _ => True

structure FreshnessState.Sound (env : GateEnv) (payload : Payload) (state : FreshnessState) :
    Prop where
  written : ∀ eventId ∈ state.own, eventId ∈ state.log.ids
  typed : OwnTyped state.own state.log
  stage : StageSound env payload state.own state.stage

def FreshnessState.Entering (state : FreshnessState) : Prop :=
  state.own = [] ∧ state.stage = .entering

section

variable {env : GateEnv} {payload : Payload} {state next : FreshnessState}

theorem sound_entering (h : state.Entering) : state.Sound env payload := by
  obtain ⟨hown, hstage⟩ := h
  refine ⟨?_, ?_, ?_⟩
  · rw [hown]
    exact fun _ hmem => absurd hmem not_mem_nil
  · rw [hown]
    exact fun _ _ hmem => absurd hmem not_mem_nil
  · rw [hstage]
    exact hown

theorem FreshnessState.Sound.foreign (h : state.Sound env payload)
    (happend : state.log.append env.toWriterEnv records = some log) :
    ({ state with log } : FreshnessState).Sound env payload := by
  have hrecords := CommittedLog.append_records happend
  refine ⟨fun eventId hown => ?_, fun record hrecord hown => ?_, h.stage⟩
  · have hold := h.written eventId hown
    unfold CommittedLog.ids at ⊢
    rw [hrecords, map_append]
    exact mem_append_left _ hold
  · rw [hrecords] at hrecord
    rcases mem_append.mp hrecord with hold | hnew
    · exact h.typed record hold hown
    · obtain ⟨old, hold, hsame⟩ := exists_of_mem_reseqFrom hnew
      refine absurd (h.written _ hown) ?_
      rw [hsame.eventId]
      exact (CommittedLog.append_admissible happend).unused old hold

theorem FreshnessState.Sound.wrote (h : state.Sound env payload)
    (hadded : log.records = state.log.records ++ [record]) (htype : record.eventType ∈ callTypes) :
    (∀ eventId ∈ state.own ++ [record.eventId.val], eventId ∈ log.ids) ∧
      OwnTyped (state.own ++ [record.eventId.val]) log := by
  have hids : log.ids = state.log.ids ++ [record.eventId.val] := by
    unfold CommittedLog.ids
    rw [hadded, map_append]
    rfl
  refine ⟨fun eventId hown => ?_, fun other hother hown => ?_⟩
  · rw [hids]
    rcases mem_append.mp hown with hold | hnew
    · exact mem_append_left _ (h.written eventId hold)
    · exact mem_append_right _ hnew
  · rw [hadded] at hother
    rcases mem_append.mp hother with hold | hnew
    · rcases mem_append.mp hown with hown | hown
      · exact h.typed other hold hown
      · -- the new identifier is not an old record's
        have hdistinct := log.distinct
        rw [hadded, map_append, nodup_append] at hdistinct
        exact absurd (mem_singleton.mp hown)
          (hdistinct.2.2 _ (mem_map_of_mem hold) _ (mem_singleton_self _))
    · rw [mem_singleton.mp hnew]
      exact htype

end

section

variable {env : GateEnv} {payload : Payload} {state next : FreshnessState}

theorem added_writeAuditEvent (h : writeAuditEvent env log intent draw = some (written, record)) :
    record.eventType ∈ auditProducerOnlyTypes ∧ written.records = log.records ++ [record] := by
  unfold writeAuditEvent at h
  split at h
  next haudit =>
    obtain ⟨appended, happended, h⟩ := bind_eq_some_iff.mp h
    cases h
    exact ⟨haudit, CommittedLog.append_stamped rfl happended⟩
  · cases h

theorem FreshnessState.Sound.move (h : state.Sound env payload) {index : IndexCache}
    (hstage : StageSound env payload state.own stage) :
    ({ state with index, stage } : FreshnessState).Sound env payload :=
  ⟨h.written, h.typed, hstage⟩

theorem FreshnessState.Sound.callStep (h : state.Sound env payload)
    (hstep : callStep env payload state state.stage action = some next) :
    next.Sound env payload := by
  have hkept := h.stage
  unfold CommitGate.callStep at hstep
  split at hstep
  -- the envelope is the first own event
  next hentering =>
    rw [hentering] at hkept
    split at hstep
    next htype =>
      obtain ⟨⟨log, record⟩, hwrite, hstep⟩ := bind_eq_some_iff.mp hstep
      cases hstep
      obtain ⟨hrecord, -, hadded⟩ := added_writeDirectTo hwrite
      have hcall : record.eventType ∈ callTypes := by
        rw [hrecord, htype]
        decide
      obtain ⟨hwritten, htyped⟩ := h.wrote hadded hcall
      rw [hkept] at hwritten htyped
      exact ⟨hwritten, htyped, trivial⟩
    · cases hstep
  · cases hstep
    exact h.move trivial
  · cases hstep
    exact h.move trivial
  · split at hstep
    · cases hstep
      exact h.move trivial
    · cases hstep
  -- the checks pass on the view
  · split at hstep
    · split at hstep
      next hpassed =>
        cases hstep
        exact h.move (Bool.and_eq_true _ _ ▸ hpassed).2
      · cases hstep
        exact h.move trivial
    · cases hstep
  -- the audit trigger is an own event
  next hchecked =>
    rw [hchecked] at hkept
    split at hstep
    · cases hstep
      exact h.move hkept
    · obtain ⟨⟨log, record⟩, hwrite, hstep⟩ := bind_eq_some_iff.mp hstep
      cases hstep
      obtain ⟨hrecord, hadded⟩ := added_writeAuditEvent hwrite
      have hcall : record.eventType ∈ callTypes := mem_cons_of_mem _ hrecord
      obtain ⟨hwritten, htyped⟩ := h.wrote hadded hcall
      refine ⟨hwritten, htyped, ?_⟩
      dsimp only
      split <;> exact hkept
  next hwaiting =>
    rw [hwaiting] at hkept
    cases hstep
    refine h.move ?_
    split
    · trivial
    · exact hkept
  next hresuming =>
    rw [hresuming] at hkept
    cases hstep
    exact h.move hkept
  next hfinalizing =>
    rw [hfinalizing] at hkept
    cases hstep
    refine h.move ?_
    split
    · exact ⟨hkept, h.typed⟩
    · exact h.typed
  next hreread =>
    rw [hreread] at hkept
    cases hstep
    exact h.move hkept
  -- the re-check passes on the new index
  next hrechecking =>
    rw [hrechecking] at hkept
    split at hstep
    · cases hstep
      exact h.move trivial
    next hnone =>
      cases hstep
      refine h.move ⟨?_, hkept⟩
      unfold recheckDrift at hnone
      dsimp only at hnone
      split at hnone
      · assumption
      · cases hnone
  · cases hstep
    exact h.move hkept
  · cases hstep
    exact h.move hkept
  · cases hstep

theorem FreshnessState.Sound.step (h : state.Sound env payload)
    (hstep : freshnessStep env payload state action = some next) : next.Sound env payload := by
  unfold freshnessStep at hstep
  split at hstep
  · obtain ⟨log, happend, hstep⟩ := bind_eq_some_iff.mp hstep
    cases hstep
    exact h.foreign happend
  · split at hstep
    · cases hstep
      exact h.move h.stage
    · cases hstep
  · split at hstep
    · cases hstep
    · exact h.callStep hstep

end

section

variable (env : GateEnv) (payload : Payload)

/-- The record is not the capsule, and changes no subject that is relevant over `seen`. -/
def Harmless (seen : CommittedLog) (record : EventRecord) : Prop :=
  record.eventId.val ≠ capsuleRef env payload ∧
    ∀ entity ∈ relevantSubjects env payload seen, ¬Drifts payload entity record

/-- Up to the baseline, `seen` has every record of the log but harmless ones. -/
def Covers (seen log : CommittedLog) (baseline : Int) : Prop :=
  ∀ record ∈ log.records, (record.sequenceNumber : Int) ≤ baseline →
    record ∈ seen.records ∨ Harmless env payload seen record

/-- Where a baseline is taken, the view that was or will be checked covers the log. The ownership
read brings a view up to the log, and nothing brings up the one from before an audit. -/
def BaselineCovers (log : CommittedLog) : FreshnessStage → Prop
  | .indexed view => readsOwnership payload = true ∨
      Covers env payload view.seen log (maxSeqOnDisk log)
  | .resuming seen => Covers env payload seen log (maxSeqOnDisk log)
  | _ => True

/-- A rebuild leaves the view behind, so the view must cover the baseline already. -/
def OwnershipCovers (log : CommittedLog) (rebuilt : Bool) : FreshnessStage → Prop
  | .checking view baseline false => rebuilt = false ∨ Covers env payload view.seen log baseline
  | _ => True

/-- What the other writers leave alone at each step of the call. Nothing is committed during a
rebuild of the index. -/
def KeepsFresh (state : FreshnessState) : FreshnessAction → Prop
  | .takeSize => state.index.seen.records.length = state.log.records.length
  | .readBaseline => BaselineCovers env payload state.log state.stage
  | .readOwnership rebuilt => OwnershipCovers env payload state.log rebuilt state.stage
  | _ => True

def StageFresh (log : CommittedLog) (index : IndexCache) : FreshnessStage → Prop
  | .indexed view => view = { seen := index.seen, live := true }
  | .checking view baseline owned =>
    (view.live = true → view.seen = index.seen) ∧ (owned = false → view.live = true) ∧
      baseline ≤ maxSeqOnDisk log ∧
        (owned = true ∨ readsOwnership payload = false → Covers env payload view.seen log baseline)
  | .checked seen baseline | .finalizing seen baseline =>
    baseline ≤ maxSeqOnDisk log ∧ Covers env payload seen log baseline
  | .reread atReread => atReread.records ⊆ log.records
  | .rechecking atReread => atReread.records ⊆ index.seen.records
  | .accepted seen atReread => ∀ record ∈ atReread.records,
    record ∈ seen.records ∨ Harmless env payload seen record
  | _ => True

/-- The index is an earlier state of the log, and as long as it says unless it is being rebuilt. -/
structure IndexCache.Behind (index : IndexCache) (log : CommittedLog) : Prop where
  isPrefix : index.seen.records <+: log.records
  covered : index.covered = none ∨ index.covered = some index.seen.records.length

structure FreshnessState.Fresh (state : FreshnessState) : Prop where
  behind : state.index.Behind state.log
  stage : StageFresh env payload state.log state.index state.stage

end

section

variable {env : GateEnv} {payload : Payload} {state next : FreshnessState} {index : IndexCache}

theorem covers_of_subset (h : log.records ⊆ seen.records) : Covers env payload seen log baseline :=
  fun _ hrecord _ => Or.inl (h hrecord)

theorem maxSeqOnDisk_mono (h : written.records = log.records ++ added) :
    maxSeqOnDisk log ≤ maxSeqOnDisk written := by
  have hnext := CommittedLog.nextSequence_mono h
  unfold maxSeqOnDisk
  omega

theorem Covers.added (h : Covers env payload seen log baseline) (hmax : baseline ≤ maxSeqOnDisk log)
    {added : List EventRecord} (hadded : written.records = log.records ++ added) :
    Covers env payload seen written baseline := by
  intro record hrecord hbelow
  rw [hadded] at hrecord
  rcases mem_append.mp hrecord with hold | hnew
  · exact h record hold hbelow
  · have hnext := CommittedLog.nextSequence_le_of_added hadded hnew
    unfold maxSeqOnDisk at hmax
    omega

namespace IndexCache.Behind

theorem eq_of_current (h : index.Behind log) (hcurrent : index.current log) :
    index.seen.records = log.records := by
  rcases h.covered with hnone | hsome
  · rw [IndexCache.current, hnone] at hcurrent
    cases hcurrent
  · rw [IndexCache.current, hsome] at hcurrent
    exact h.isPrefix.eq_of_length (some.inj hcurrent)

theorem catchUp_records (h : index.Behind log) (rebuilt : Bool) :
    (index.catchUp log rebuilt).seen.records = log.records := by
  rw [IndexCache.catchUp_seen]
  split
  next hcurrent => exact h.eq_of_current hcurrent
  · rfl

theorem catchUp (h : index.Behind log) (rebuilt : Bool) : (index.catchUp log rebuilt).Behind log := by
  constructor
  · exact (h.catchUp_records rebuilt).symm ▸ prefix_refl log.records
  · unfold IndexCache.catchUp
    split
    · exact h.covered
    · cases rebuilt
      · exact Or.inr rfl
      · exact Or.inl rfl

theorem added (h : index.Behind log) {added : List EventRecord}
    (hadded : written.records = log.records ++ added) : index.Behind written := by
  refine ⟨?_, h.covered⟩
  rw [hadded]
  exact h.isPrefix.trans (prefix_append _ _)

end IndexCache.Behind

theorem FreshnessState.Fresh.added (h : state.Fresh env payload) {added : List EventRecord}
    (hadded : log.records = state.log.records ++ added) :
    ({ state with log } : FreshnessState).Fresh env payload := by
  refine ⟨h.behind.added hadded, ?_⟩
  have hkept := h.stage
  have hmono := maxSeqOnDisk_mono hadded
  cases hstage : state.stage with
  | checking view baseline owned =>
    rw [hstage] at hkept
    obtain ⟨hlive, hfirst, hmax, hcovers⟩ := hkept
    exact ⟨hlive, hfirst, hmax.trans hmono, fun howned => (hcovers howned).added hmax hadded⟩
  | checked seen baseline =>
    rw [hstage] at hkept
    exact ⟨hkept.1.trans hmono, hkept.2.added hkept.1 hadded⟩
  | finalizing seen baseline =>
    rw [hstage] at hkept
    exact ⟨hkept.1.trans hmono, hkept.2.added hkept.1 hadded⟩
  | reread atReread =>
    rw [hstage] at hkept
    exact fun record hrecord => hadded ▸ mem_append_left _ (hkept hrecord)
  | _ =>
    rw [hstage] at hkept
    exact hkept

theorem FreshnessState.Fresh.caughtUp (h : state.Fresh env payload)
    (hstage : StageFresh env payload state.log (state.caughtUp rebuilt).index stage) :
    ({ state.caughtUp rebuilt with stage } : FreshnessState).Fresh env payload :=
  ⟨h.behind.catchUp rebuilt, hstage⟩

/-- The first ownership read brings a live view up to the log, or leaves one that covers it. -/
theorem stageFresh_readOwnership {view : View} (hbehind : index.Behind log)
    (hfresh : StageFresh env payload log index (.checking view baseline owned))
    (hcovers : OwnershipCovers env payload log rebuilt (.checking view baseline owned)) :
    StageFresh env payload log (index.catchUp log rebuilt)
      (.checking (view.catchUp index log rebuilt) baseline true) := by
  obtain ⟨hlive, hfirst, hmax, hold⟩ := hfresh
  refine ⟨?_, fun howned => absurd howned.symm Bool.false_ne_true, hmax, fun _ => ?_⟩
  · unfold View.catchUp IndexCache.catchUp
    split_ifs with hcurrent hrebuilt hview
    · exact hlive
    · exact fun hdead => absurd hdead id
    · exact fun _ => rfl
    · exact fun hview' => absurd hview' hview
  · unfold View.catchUp
    split_ifs with hcurrent hrebuilt hview
    · cases owned with
      | true => exact hold (Or.inl rfl)
      | false =>
        apply covers_of_subset
        rw [hlive (hfirst rfl), hbehind.eq_of_current hcurrent]
        exact Subset.refl _
    · cases owned with
      | true => exact hold (Or.inl rfl)
      | false => exact hcovers.resolve_left fun hfalse => by rw [hrebuilt] at hfalse; cases hfalse
    · exact covers_of_subset (Subset.refl _)
    · cases owned with
      | true => exact hold (Or.inl rfl)
      | false => exact absurd (hfirst rfl) hview

theorem FreshnessState.Fresh.callStep (h : state.Fresh env payload)
    (hguard : KeepsFresh env payload state action)
    (hstep : callStep env payload state state.stage action = some next) :
    next.Fresh env payload := by
  have hkept := h.stage
  unfold CommitGate.callStep at hstep
  split at hstep
  · split at hstep
    · obtain ⟨⟨log, record⟩, hwrite, hstep⟩ := bind_eq_some_iff.mp hstep
      cases hstep
      exact ⟨h.behind.added (added_writeDirectTo hwrite).2.2, trivial⟩
    · cases hstep
  · cases hstep
    exact h.caughtUp rfl
  -- the first baseline
  next hindexed =>
    rw [hindexed] at hkept
    cases hstep
    refine ⟨h.behind, fun _ => congrArg View.seen hkept, fun _ => congrArg View.live hkept,
      le_refl _, fun howned => ?_⟩
    have hcovers : BaselineCovers env payload state.log state.stage := hguard
    rw [hindexed] at hcovers
    refine hcovers.resolve_left fun howns => ?_
    rcases howned with howned | hnone
    · cases howned
    · rw [howns] at hnone
      cases hnone
  next hchecking =>
    rw [hchecking] at hkept
    have hcovers : OwnershipCovers env payload state.log _ state.stage := hguard
    rw [hchecking] at hcovers
    split at hstep
    · cases hstep
      exact h.caughtUp (stageFresh_readOwnership h.behind hkept hcovers)
    · cases hstep
  next hchecking =>
    rw [hchecking] at hkept
    split at hstep
    next howned =>
      split at hstep
      · cases hstep
        refine ⟨h.behind, hkept.2.2.1, hkept.2.2.2 ?_⟩
        simpa using howned
      · cases hstep
        exact ⟨h.behind, trivial⟩
    · cases hstep
  next hchecked =>
    rw [hchecked] at hkept
    split at hstep
    · cases hstep
      exact ⟨h.behind, hkept⟩
    · obtain ⟨⟨log, record⟩, hwrite, hstep⟩ := bind_eq_some_iff.mp hstep
      cases hstep
      have hadded := (added_writeAuditEvent hwrite).2
      refine ⟨h.behind.added hadded, ?_⟩
      dsimp only
      split
      · trivial
      · exact ⟨hkept.1.trans (maxSeqOnDisk_mono hadded), hkept.2.added hkept.1 hadded⟩
  · cases hstep
    apply h.caughtUp
    split <;> trivial
  -- the baseline behind the audit
  next hresuming =>
    cases hstep
    have hcovers : BaselineCovers env payload state.log state.stage := hguard
    rw [hresuming] at hcovers
    exact ⟨h.behind, le_refl _, hcovers⟩
  next hfinalizing =>
    rw [hfinalizing] at hkept
    cases hstep
    refine ⟨h.behind, ?_⟩
    dsimp only
    split
    next hsame =>
      refine fun record hrecord => hkept.2 record hrecord ?_
      have hbelow := CommittedLog.sequenceNumber_lt_next hrecord
      unfold maxSeqOnDisk at hsame
      omega
    · exact Subset.refl _
  next hreread =>
    rw [hreread] at hkept
    cases hstep
    refine h.caughtUp fun record hrecord => ?_
    unfold FreshnessState.caughtUp
    rw [h.behind.catchUp_records]
    exact hkept hrecord
  next hrechecking =>
    rw [hrechecking] at hkept
    split at hstep
    · cases hstep
      exact ⟨h.behind, trivial⟩
    · cases hstep
      exact ⟨h.behind, fun record hrecord => Or.inl (hkept hrecord)⟩
  next hentering =>
    cases hstep
    apply h.caughtUp
    rw [hentering]
    trivial
  next hwaiting =>
    cases hstep
    apply h.caughtUp
    rw [hwaiting]
    trivial
  · cases hstep

theorem FreshnessState.Fresh.step (h : state.Fresh env payload)
    (hguard : KeepsFresh env payload state action)
    (hstep : freshnessStep env payload state action = some next) : next.Fresh env payload := by
  unfold freshnessStep at hstep
  split at hstep
  · obtain ⟨log, happend, hstep⟩ := bind_eq_some_iff.mp hstep
    cases hstep
    exact h.added (CommittedLog.append_records happend)
  -- the size taken is that of the log the rebuild read
  · split at hstep
    · cases hstep
      refine ⟨⟨h.behind.isPrefix, Or.inr (congrArg some hguard.symm)⟩, ?_⟩
      have hkept := h.stage
      cases hstage : state.stage with
      | indexed view =>
        rw [hstage] at hkept
        exact hkept
      | checking view baseline owned =>
        rw [hstage] at hkept
        exact hkept
      | rechecking atReread =>
        rw [hstage] at hkept
        exact hkept
      | _ =>
        rw [hstage] at hkept
        exact hkept
    · cases hstep
  · split at hstep
    · cases hstep
    · exact h.callStep hguard hstep

/-- What the last check did not see is harmless, so it changes nothing over the whole log. -/
theorem freshnessDrift_of_harmless (hpassed : (freshnessDrift env payload seen).passed = true)
    (hrest : ∀ record ∈ log.records, record ∈ seen.records ∨ Harmless env payload seen record) :
    (freshnessDrift env payload log).passed = true := by
  rw [freshnessDrift_passed] at hpassed ⊢
  intro entity hentity record hrecord
  have hrelevant : entity ∈ relevantSubjects env payload seen := by
    refine relevantSubjects_mono (fun capsule hget => ?_) hentity
    obtain ⟨hmem, hid⟩ := CommittedLog.getEvent_some hget
    rw [← hid]
    exact CommittedLog.getEvent_of_mem ((hrest capsule hmem).resolve_right fun h => h.1 hid)
  rcases hrest record hrecord with hseen | hharmless
  · exact hpassed entity hrelevant record hseen
  · exact hharmless.2 entity hrelevant

end

/-- The envelope's payload: it read `c-1` as of sequence 1. -/
def readingPayload : Payload :=
  ⟨[("run_id", .str "run-1"), ("as_of_projection_seq", .int 1),
    ("read_set", .arr [.obj [("entity_type", .str "concept"), ("entity_id", .str "c-1")]]),
    ("write_set", .arr [.obj [("entity_type", .str "task"), ("entity_id", .str "t-1"),
      ("change_type", .str "modified")]])], by decide⟩

def conceptTransition : EventIntent :=
  { sampleIntent with
    eventType := .conceptStateTransition }

def foreignRecord (intent : EventIntent) (n : Nat) : EventRecord :=
  stamp sampleEnv intent (sampleDraw n).eventId sampleTime 0 none

def emptyHandle : FreshnessState where
  log := .empty
  own := []
  index := { seen := .empty, covered := some 0 }
  stage := .entering

def beforeChecks : List FreshnessAction :=
  [.foreign [foreignRecord sampleIntent 0, foreignRecord sampleIntent 1],
    .submit sampleEnvelope (sampleDraw 2), .materialise false, .readBaseline, .readOwnership false,
    .check true]

/-- Nothing relevant changes while the audit runs, and the re-check finds nothing after it. -/
def auditedWindow : List FreshnessAction :=
  beforeChecks ++ [.audit (some (sampleTrigger, sampleDraw 3)) true,
    .foreign [foreignRecord sampleIntent 4], .foreign [foreignRecord sampleVerdict 5],
    .readVerdict "evt-gxxxxx" false, .readBaseline, .foreign [foreignRecord sampleIntent 6], .reread,
    .reindex false, .recheck]

/-- `c-1` changes while the audit runs; `continue_attempt` takes its baseline behind the change. -/
def changeDuringAudit : List FreshnessAction :=
  beforeChecks ++ [.audit (some (sampleTrigger, sampleDraw 3)) true,
    .foreign [foreignRecord conceptTransition 4], .foreign [foreignRecord sampleVerdict 5],
    .readVerdict "evt-gxxxxx" false, .readBaseline, .reread]

def acceptedOver : FreshnessStage → Option (CommittedLog × CommittedLog)
  | .accepted seen atReread => some (seen, atReread)
  | _ => none

theorem stage_of_acceptedOver (h : acceptedOver stage = some (seen, atReread)) :
    stage = .accepted seen atReread := by
  cases stage <;> cases h
  rfl

def checksFresh (payload : Payload) (state : FreshnessState) (action : FreshnessAction) : Bool :=
  match action, state.stage with
  | .takeSize, _ => state.index.seen.records.length = state.log.records.length
  | .readBaseline, .indexed _ => readsOwnership payload
  | .readBaseline, .resuming seen => state.log.records.all fun record =>
      record ∈ seen.records || (record.eventId.val ≠ capsuleRef sampleGateEnv payload &&
        (relevantSubjects sampleGateEnv payload seen).all fun entity =>
          !invalidates (asOfProjectionSeq payload) entity record)
  | .readOwnership rebuilt, .checking _ _ false => !rebuilt
  | _, _ => true

theorem keepsFresh_of_checksFresh {payload : Payload} (state : FreshnessState)
    (action : FreshnessAction) (h : checksFresh payload state action = true) :
    KeepsFresh sampleGateEnv payload state action := by
  cases action with
  | takeSize =>
    simp only [checksFresh, decide_eq_true_eq] at h
    exact h
  | readBaseline =>
    show BaselineCovers sampleGateEnv payload state.log state.stage
    cases hstage : state.stage with
    | indexed view => exact Or.inl (by simpa [checksFresh, hstage] using h)
    | resuming seen =>
      intro record hrecord _
      simp only [checksFresh, hstage] at h
      have hchecked := List.all_eq_true.mp h record hrecord
      simp only [Bool.or_eq_true, decide_eq_true_eq, Bool.and_eq_true, List.all_eq_true] at hchecked
      refine hchecked.imp_right fun hharmless => ⟨hharmless.1, fun entity hentity hdrifts => ?_⟩
      have hnone := hharmless.2 entity hentity
      rw [hdrifts.2] at hnone
      cases hnone
    | _ => trivial
  | readOwnership rebuilt =>
    show OwnershipCovers sampleGateEnv payload state.log rebuilt state.stage
    cases hstage : state.stage with
    | checking view baseline owned =>
      cases owned with
      | true => trivial
      | false => exact Or.inl (by simpa [checksFresh, hstage] using h)
    | _ => trivial
  | _ => trivial

end Flowness.CommitGate
