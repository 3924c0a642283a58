import Flowness.CommitGate.StepEffects
import Flowness.Snapshot.Collection

/-!
Commit attempts, scans for abandoned envelopes and archival on one log. The scan and the collection of
the roots read the hot records only; an envelope with an outcome stays settled while no archival takes
the outcome out of the hot log ahead of the envelope.
-/

namespace Flowness.Snapshot

open Library Schemas Ledger CommitGate

structure ArchivedGate where
  gate : GateState
  hot : HotLog
  reads : gate.log.records = hot.records
  run : Option MaintenanceRun
  committed : List EventRecord

def ArchivedGate.initial (log : CommittedLog) (hot : HotLog) (reads : log.records = hot.records) :
    ArchivedGate :=
  { gate := { log, calls := [], pending := [] }, hot, reads, run := none, committed := log.records }

inductive ArchivalAction where
  | gate (action : CommitGate.Action) (rotates : Bool)
  | startRun (kind : MaintenanceKind) (projections : Projections) (projectionCursor : Int)
    (leases : List RetentionLease)
  | archive (segment : Nat)

def restrictLog (log : CommittedLog) {records : List EventRecord}
    (h : records.Sublist log.records) : CommittedLog where
  records := records
  increasing := log.increasing.sublist (h.map _)
  distinct := log.distinct.sublist (h.map _)

theorem records_of_step {env : GateEnv} {state next : GateState} {action : CommitGate.Action}
    (h : CommitGate.step env state action = some next) :
    next.log.records = state.log.records ++ next.log.records.drop state.log.records.length := by
  obtain ⟨⟨added, hadded, _⟩, _⟩ := step_effect h
  rw [hadded, List.drop_left]

section

variable (env : GateEnv) (state : ArchivedGate)

def gateStep (action : CommitGate.Action) (rotates : Bool) : Option ArchivedGate :=
  match hstep : CommitGate.step env state.gate action with
  | none => none
  | some next =>
    let added := next.log.records.drop state.gate.log.records.length
    if ∀ record ∈ added, record.eventId.val ∉ collectEnvelopeOutcomes state.committed then
      some { state with
        gate := next
        hot := state.hot.append rotates added
        reads := by rw [HotLog.append_records, ← state.reads, ← records_of_step hstep]
        committed := state.committed ++ added }
    else none

def archiveStep (segment : Nat) : Option ArchivedGate :=
  match state.run with
  | none => none
  | some run =>
    match harchive : state.hot.archive run segment with
    | none => none
    | some later =>
      some { state with
        gate := { state.gate with
          log := restrictLog state.gate.log
            (state.reads ▸ HotLog.archive_sublist harchive : later.records.Sublist _) }
        hot := later
        reads := rfl }

def archivalStep : ArchivalAction → Option ArchivedGate
  | .gate action rotates => gateStep env state action rotates
  | .startRun kind projections projectionCursor leases =>
    some { state with run := some (startRun state.hot kind projections projectionCursor leases) }
  | .archive segment => archiveStep state segment

end

section

variable (state : ArchivedGate)

/-- Where an outcome of the envelope lies on a segment that is archived. Another outcome lies
elsewhere, the run's roots pin it, or the envelope is left nowhere: no scan has it before it, and it
is not hot but for records of the segment that nothing pins. -/
def OutcomeSafe (run : MaintenanceRun) (segment : Nat) (records : List EventRecord)
    (outcome : EventRecord) (id : String) : Prop :=
  id ∈ collectEnvelopeOutcomes (state.hot.elsewhere segment) ∨
    run.start.Pins records outcome ∨
      ((∀ stage ∈ state.gate.calls, id ∉ stage.listed) ∧
        id ∉ envelopeIds (state.hot.elsewhere segment) ∧
        ∀ envelope ∈ records, envelope.eventType = .transactionEnvelopeSubmitted →
          envelope.eventId.val = id → ¬run.start.Pins records envelope)

def KeepsOutcomes : ArchivalAction → Prop
  | .archive segment => ∀ run ∈ state.run, ∀ records ∈ state.hot.sealed[segment]?,
      ∀ outcome ∈ records, ∀ id ∈ outcomeOf outcome.eventType outcome.payload,
        OutcomeSafe state run segment records outcome id
  | _ => True

instance (run : MaintenanceRun) (segment : Nat) (records : List EventRecord) (outcome : EventRecord)
    (id : String) : Decidable (OutcomeSafe state run segment records outcome id) :=
  inferInstanceAs (Decidable (_ ∨ _ ∨ (_ ∧ _ ∧ ∀ envelope ∈ records, _ → _ → _)))

instance : (action : ArchivalAction) → Decidable (KeepsOutcomes state action)
  | .archive segment => inferInstanceAs (Decidable (∀ run ∈ state.run,
      ∀ records ∈ state.hot.sealed[segment]?, ∀ outcome ∈ records,
        ∀ id ∈ outcomeOf outcome.eventType outcome.payload, _))
  | .gate _ _ => isTrue trivial
  | .startRun _ _ _ _ => isTrue trivial

end

namespace ArchivalAction

variable (state : ArchivedGate)

def finalised : ArchivalAction → List String
  | .gate action _ => state.gate.finalised action
  | _ => []

def writer? : ArchivalAction → Option Nat
  | .gate (.write call _) _ => some call
  | _ => none

end ArchivalAction

/-- An archival finds the outcomes safe, and no call finalises an envelope that the scan of another is about
to reject. -/
structure OutcomesStay (state : ArchivedGate) (action : ArchivalAction) : Prop where
  kept : KeepsOutcomes state action
  alone : ∀ id ∈ action.finalised state, ∀ entry ∈ state.gate.calls.zipIdx,
    entry.1.recovers = some id → action.writer? = some entry.2

instance (state : ArchivedGate) (action : ArchivalAction) : Decidable (OutcomesStay state action) :=
  decidable_of_iff (KeepsOutcomes state action ∧
    ∀ id ∈ action.finalised state, ∀ entry ∈ state.gate.calls.zipIdx,
      entry.1.recovers = some id → action.writer? = some entry.2)
    ⟨fun h => ⟨h.1, h.2⟩, fun h => ⟨h.kept, h.alone⟩⟩

/-- An envelope that was ever finalised is not in flight, and no scan is about to reject it. -/
structure StaysSettled (state : ArchivedGate) : Prop where
  roots : ∀ id ∈ collectEnvelopeOutcomes state.committed, id ∉ inFlightEnvelopeRoots state.hot.view
  scans : ∀ stage ∈ state.gate.calls, ∀ id, stage.recovers = some id →
    id ∉ collectEnvelopeOutcomes state.committed

/-- An envelope that was ever finalised has an outcome in the hot log, or is neither there nor before a
scan. -/
structure EnvelopesSound (state : ArchivedGate) : Prop where
  settled : ∀ id ∈ collectEnvelopeOutcomes state.committed,
    id ∈ collectEnvelopeOutcomes state.hot.records ∨
      (id ∉ envelopeIds state.hot.records ∧ ∀ stage ∈ state.gate.calls, id ∉ stage.listed)
  scans : ∀ stage ∈ state.gate.calls, ∀ id, stage.recovers = some id →
    id ∉ collectEnvelopeOutcomes state.committed

section

variable {env : GateEnv} {state next : ArchivedGate} {records later : List EventRecord} {id : String}

theorem envelopeIds_sublist (h : later.Sublist records) (hid : id ∈ envelopeIds later) :
    id ∈ envelopeIds records :=
  ((h.filter _).map _).subset hid

theorem outcomeOf_eq_some {record : EventRecord} : outcomeOf record.eventType record.payload = some id ↔
    (record.eventType = .commitAccepted ∨ record.eventType = .commitRejected) ∧
      (record.payload.get "envelope_event_id").bind Json.text? = some id := by
  have htext : ((record.payload.get "envelope_event_id").bind Json.text?) =
      (record.payload.getD "envelope_event_id" .null).text? := by
    unfold Payload.getD
    cases record.payload.get "envelope_event_id" with
    | none => rfl
    | some value => cases value <;> rfl
  rw [htext]
  simp [outcomeOf, EventRecord.isSentinelType]

theorem mem_inFlightEnvelopeRoots {hot : HotLog} : id ∈ inFlightEnvelopeRoots hot.view ↔
    id ∈ envelopeIds hot.records ∧ id ∉ collectEnvelopeOutcomes hot.records := by
  have hresolved : id ∈ (hot.view.eventsByType .commitAccepted ++
      hot.view.eventsByType .commitRejected).filterMap
        (fun record => (record.payload.get "envelope_event_id").bind Json.text?) ↔
      id ∈ collectEnvelopeOutcomes hot.records := by
    rw [collectEnvelopeOutcomes, List.mem_filterMap, List.mem_filterMap]
    refine exists_congr fun record => ?_
    rw [outcomeOf_eq_some]
    simp only [LogView.eventsByType, List.mem_append, List.mem_filter, decide_eq_true_eq]
    tauto
  have hids : ∀ records : List EventRecord, envelopeIds records =
      EventIndex.idsOf (records.filter (·.eventType = .transactionEnvelopeSubmitted)) := by
    intro records
    simp [envelopeIds, EventIndex.idsOf, beq_eq_decide]
  unfold inFlightEnvelopeRoots
  simp only [List.mem_filter, decide_eq_true_eq, hresolved]
  rfl

theorem EnvelopesSound.staysSettled (h : EnvelopesSound state) : StaysSettled state where
  roots := by
    intro id hid hroot
    obtain ⟨henvelope, houtcome⟩ := mem_inFlightEnvelopeRoots.mp hroot
    obtain hhot | hgone := h.settled id hid
    · exact houtcome hhot
    · exact hgone.1 henvelope
  scans := h.scans

theorem envelopesSound_initial (reads : log.records = hot.records) :
    EnvelopesSound (.initial log hot reads) where
  settled id hid := .inl (reads ▸ hid)
  scans := by simp [ArchivedGate.initial]

theorem gateStep_some {action : CommitGate.Action}
    (h : gateStep env state action rotates = some next) :
    ∃ added, next.hot.records = state.hot.records ++ added ∧ next.committed = state.committed ++ added ∧
      collectEnvelopeOutcomes added = state.gate.finalised action ∧
      (∀ record ∈ added, record.eventId.val ∉ collectEnvelopeOutcomes state.committed) ∧
      CallsAfter state.gate action next.gate.calls := by
  unfold gateStep at h
  split at h
  · cases h
  next after hstep =>
    obtain ⟨⟨added, hadded, houtcomes⟩, hcalls⟩ := step_effect hstep
    have hdrop : after.log.records.drop state.gate.log.records.length = added := by
      rw [hadded, List.drop_left]
    dsimp only at h
    split at h
    next hfresh =>
      cases h
      rw [hdrop] at hfresh
      exact ⟨added, by simp [hdrop], by simp [hdrop], houtcomes, hfresh, hcalls⟩
    · cases h

section

variable {gate : GateState} {action : CommitGate.Action} {calls : List Stage}
    (h : CallsAfter gate action calls) {stage : Stage} (hstage : stage ∈ calls)
include h hstage

theorem listed_of_callsAfter (hid : id ∈ stage.listed) :
    (∃ old ∈ gate.calls, id ∈ old.listed) ∨ id ∈ envelopeIds gate.log.records := by
  cases h with
  | kept => exact .inl ⟨stage, hstage, hid⟩
  | moved hnew =>
    obtain hold | rfl := List.mem_or_eq_of_mem_set hstage
    · exact .inl ⟨stage, hold, hid⟩
    · exact hnew.listed id hid
  | started hnew =>
    obtain hold | hlast := List.mem_append.mp hstage
    · exact .inl ⟨stage, hold, hid⟩
    · obtain rfl := List.mem_singleton.mp hlast
      exact hnew.listed id hid

theorem recovers_of_callsAfter (hid : stage.recovers = some id) :
    (∃ other, gate.calls[other]? = some stage ∧ ∀ call draw, action = .write call draw → other ≠ call) ∨
      ((∀ call draw, action ≠ .write call draw) ∧ id ∉ gate.log.outcomes ∧
        ∃ old ∈ gate.calls, id ∈ old.listed) := by
  obtain ⟨other, hother⟩ := List.mem_iff_getElem?.mp hstage
  cases h with
  | kept hwrite => exact .inl ⟨other, hother, fun call draw heq => absurd heq (hwrite call draw)⟩
  | @moved call new hnew hwrite =>
    rw [List.getElem?_set] at hother
    split at hother
    next hcall =>
      split at hother
      · cases hother
        refine .inr ⟨fun call draw heq => ?_, hnew.recovers id hid⟩
        rw [(hwrite call draw heq).2] at hid
        cases hid
      · cases hother
    next hcall =>
      exact .inl ⟨other, hother, fun writer draw heq => fun hsame =>
        hcall ((hwrite writer draw heq).1.symm.trans hsame.symm)⟩
  | started hnew hwrite =>
    obtain hold | hlast := List.mem_append.mp hstage
    · obtain ⟨other, hother⟩ := List.mem_iff_getElem?.mp hold
      exact .inl ⟨other, hother, fun call draw heq => absurd heq (hwrite call draw)⟩
    · obtain rfl := List.mem_singleton.mp hlast
      exact .inr ⟨hwrite, hnew.recovers id hid⟩

end

theorem EnvelopesSound.gateStep (h : EnvelopesSound state) {action : CommitGate.Action}
    (hstay : OutcomesStay state (.gate action rotates))
    (hstep : gateStep env state action rotates = some next) : EnvelopesSound next := by
  obtain ⟨added, hhot, hcommitted, houtcomes, hfresh, hcalls⟩ := gateStep_some hstep
  constructor
  · intro id hid
    rw [hhot, collectEnvelopeOutcomes_append, List.mem_append]
    rw [hcommitted, collectEnvelopeOutcomes_append, List.mem_append] at hid
    obtain hold | hnew := hid
    · obtain houtcome | ⟨henvelope, hlisted⟩ := h.settled id hold
      · exact .inl (.inl houtcome)
      · refine .inr ⟨?_, fun stage hstage hmem => ?_⟩
        · rw [envelopeIds_append, List.mem_append]
          rintro (hmem | hmem)
          · exact henvelope hmem
          · obtain ⟨record, hrecord, rfl⟩ := List.mem_map.mp hmem
            exact hfresh record (List.mem_filter.mp hrecord).1 hold
        · obtain ⟨old, hmemOld, hidOld⟩ | hmemHot := listed_of_callsAfter hcalls hstage hmem
          · exact hlisted old hmemOld hidOld
          · exact henvelope (state.reads ▸ hmemHot)
    · exact .inl (.inr hnew)
  · intro stage hstage id hid
    rw [hcommitted, collectEnvelopeOutcomes_append, List.mem_append, houtcomes, not_or]
    obtain ⟨other, hother, hwriter⟩ | ⟨hwrite, hnone, old, hold, hlisted⟩ :=
      recovers_of_callsAfter hcalls hstage hid
    · refine ⟨h.scans stage (List.mem_of_getElem? hother) id hid, fun hfinal => ?_⟩
      have hmem : (stage, other) ∈ state.gate.calls.zipIdx := List.mem_zipIdx_iff_getElem?.mpr hother
      have hself := hstay.alone id hfinal (stage, other) hmem hid
      cases action with
      | write call draw => exact hwriter call draw rfl (Option.some.inj hself).symm
      | _ => cases hfinal
    · constructor
      · intro hsettled
        obtain houtcome | hgone := h.settled id hsettled
        · exact hnone (by rwa [CommittedLog.outcomes, state.reads])
        · exact hgone.2 old hold hlisted
      · intro hfinal
        cases action with
        | write call draw => exact absurd rfl (hwrite call draw)
        | _ => cases hfinal

/-- An outcome that leaves the hot log leaves no envelope behind. -/
theorem gone_of_archive {run : MaintenanceRun} {segment : Nat} {later : HotLog}
    (hrun : state.run = some run) (hkeeps : KeepsOutcomes state (.archive segment))
    (harchive : state.hot.archive run segment = some later)
    (houtcome : id ∈ collectEnvelopeOutcomes state.hot.records)
    (hlost : id ∉ collectEnvelopeOutcomes later.records) :
    id ∉ envelopeIds later.records ∧ ∀ stage ∈ state.gate.calls, id ∉ stage.listed := by
  obtain ⟨kept, hkept, rfl⟩ := Option.map_eq_some_iff.mp harchive
  obtain ⟨records, hrecords, hkept⟩ := Option.bind_eq_some_iff.mp hkept
  have hlater : ∀ record, _ ↔ record ∈ kept ∨ record ∈ state.hot.elsewhere segment :=
    HotLog.mem_set hrecords
  obtain ⟨outcome, hmem, hof⟩ := List.mem_filterMap.mp houtcome
  have hleaves : ∀ record, outcomeOf record.eventType record.payload = some id →
      record ∉ ({ state.hot with sealed := state.hot.sealed.set segment kept } : HotLog).records :=
    fun record hof hstays => hlost (List.mem_filterMap.mpr ⟨record, hstays, hof⟩)
  have hsegment : outcome ∈ records := by
    rcases (HotLog.mem_records hrecords outcome).mp hmem with hsegment | helsewhere
    · exact hsegment
    · exact absurd ((hlater outcome).mpr (Or.inr helsewhere)) (hleaves outcome hof)
  rcases hkeeps run hrun records hrecords outcome hsegment id hof with
    hother | hpins | ⟨hlisted, henvelopes, hunpinned⟩
  · obtain ⟨other, hother, hsame⟩ := List.mem_filterMap.mp hother
    exact absurd ((hlater other).mpr (Or.inr hother)) (hleaves other hsame)
  · refine absurd ((hlater outcome).mpr (Or.inl ?_)) (hleaves outcome hof)
    rw [run.keeps_eq hkept]
    exact List.mem_filter.mpr ⟨hsegment, decide_eq_true hpins⟩
  · refine ⟨fun henvelope => ?_, hlisted⟩
    obtain ⟨envelope, hfound, rfl⟩ := List.mem_map.mp henvelope
    obtain ⟨hhot, htype⟩ := List.mem_filter.mp hfound
    rcases (hlater envelope).mp hhot with hstays | helsewhere
    · rw [run.keeps_eq hkept] at hstays
      obtain ⟨hmem, hpins⟩ := List.mem_filter.mp hstays
      exact hunpinned envelope hmem (eq_of_beq htype) rfl (of_decide_eq_true hpins)
    · exact henvelopes (List.mem_map_of_mem (List.mem_filter.mpr ⟨helsewhere, htype⟩))

theorem EnvelopesSound.archiveStep {segment : Nat} (h : EnvelopesSound state)
    (hstay : OutcomesStay state (.archive segment)) (hstep : archiveStep state segment =
      some next) : EnvelopesSound next := by
  unfold Snapshot.archiveStep at hstep
  split at hstep
  · cases hstep
  next run hrun =>
    split at hstep
    · cases hstep
    next later harchive =>
      cases hstep
      have hsub := HotLog.archive_sublist harchive
      refine { h with settled := fun id hid => ?_ }
      by_cases hlater : id ∈ collectEnvelopeOutcomes later.records
      · exact .inl hlater
      · refine .inr ?_
        obtain houtcome | ⟨henvelope, hlisted⟩ := h.settled id hid
        · have hgone := gone_of_archive hrun hstay.kept harchive houtcome hlater
          exact hgone
        · exact ⟨fun hmem => henvelope (envelopeIds_sublist hsub hmem), hlisted⟩

theorem EnvelopesSound.step (h : EnvelopesSound state) {action : ArchivalAction}
    (hstay : OutcomesStay state action) (hstep : archivalStep env state action = some next) :
    EnvelopesSound next := by
  cases action with
  | gate action rotates => exact h.gateStep hstay hstep
  | startRun kind projections projectionCursor leases =>
    cases hstep
    exact ⟨h.settled, h.scans⟩
  | archive segment => exact h.archiveStep hstay hstep

end

def samplePolicy : EventIntent :=
  { sampleIntent with eventType := .retentionPolicyChanged, eventCategory := .snapshot }

def sampleAnchor : EventIntent :=
  { sampleIntent with
    eventType := .snapshotCreated
    eventCategory := .snapshot
    payload := ⟨[("event_offset", .int 2)], by decide⟩ }

/-- A retention policy, an accepted envelope and the anchor of a run; the outcome opens a segment of its
own if `rotates`. -/
def sampleCommit (rotates : Bool) : List ArchivalAction :=
  [.gate (.direct samplePolicy (sampleDraw 0)) false,
    .gate (.submit sampleEnvelope (sampleDraw 1) [] sampleIds false) false,
    .gate (.check 0 {} none) false, .gate (.recheck 0 none) false,
    .gate (.write 0 (fun n => sampleDraw (n + 2))) rotates,
    .gate (.direct sampleAnchor (sampleDraw 3)) true]

def sampleScan : List ArchivalAction :=
  [.gate .scanAbandoned false, .gate (.snapshot 1) false, .gate (.reread 1 true sampleIds) false]

def emptyGate : ArchivedGate := .initial .empty { sealed := [], active := [] } rfl

def archivedState (actions : List ArchivalAction) : ArchivedGate :=
  (actions.foldlM (archivalStep sampleGateEnv) emptyGate).getD emptyGate

def compactedTogether : List ArchivalAction :=
  sampleCommit false ++ [.startRun .compaction [] 4 [], .archive 0] ++
    [.gate .scanAbandoned false, .gate (.snapshot 1) false]

/-- The policy keeps the first segment hot, with the envelope in it; a cold move takes the second one,
with the outcome, and a scan rejects the envelope. -/
def outcomeMoved : List ArchivalAction :=
  sampleCommit true ++ [.startRun .coldMove [] 4 [], .archive 1] ++ sampleScan ++
    [.gate (.write 1 (fun n => sampleDraw (n + 4))) false]

end Flowness.Snapshot
