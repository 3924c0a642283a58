import Flowness.Snapshot.FiledStore

/-!
Supersede chains across maintenance runs. A superseded record is a root only while a record that
supersedes it is hot.
-/

namespace Flowness.Snapshot

open List Library Schemas Ledger
open Ledger.EventIndex (idsOf)

/-- The first `turns` turns of `get_supersede_chain`. -/
def supersedeChain (lookup : String → Option EventRecord) : Nat → String → List EventRecord
  | 0, _ => []
  | turns + 1, eventId =>
    match lookup eventId with
    | none => []
    | some record =>
      record :: match record.supersede.supersededEventId? with
        | none => []
        | some older => supersedeChain lookup turns older

def Names (newer older : EventRecord) : Prop :=
  newer.supersede.supersededEventId? = some older.eventId.val

namespace GcStore

variable (store : GcStore)

def history (eventId : String) : Option EventRecord :=
  store.written.find? (·.eventId.val = eventId)

structure ChainsWhole : Prop where
  retrievable : ∀ newer ∈ store.written, ∀ older ∈ store.written, Names newer older →
    store.getEvent older.eventId.val = some older
  chain : ∀ newer ∈ store.written, ∀ older ∈ store.written, Names newer older → ∀ turns,
    supersedeChain store.getEvent turns newer.eventId.val =
      supersedeChain store.history turns newer.eventId.val

/-- The record is an end of a chain between committed records. -/
def Linked (record : EventRecord) : Prop :=
  ∃ other ∈ store.written, Names record other ∨ Names other record

/-- Every committed record that supersedes this one was hot with it when the run began. -/
def Rooted (state : GcState) (record : EventRecord) : Prop :=
  ∀ newer ∈ store.written, Names newer record →
    newer ∈ state.log.allRecords ∧ record ∈ state.log.allRecords

/-- A write links nothing with a record that is gone. A run that takes a segment finds every linked
record of it; one that discards it has the superseders of its records before it, and no record of it
supersedes another. -/
def ChainStep : Action → Prop
  | .write _ records => ∀ lost ∈ store.written, ¬store.Kept lost → ∀ record ∈ records,
      ¬Names record lost ∧ ¬Names lost record
  | .moveSegment segment => ∀ state records, store.visit segment = some (state, records) →
      (∀ record ∈ records, legible record = false → ¬store.Linked record) ∧
        (archivePath store.hotRecords (records.filter legible) = .pureDiscard → ∀ record ∈ records,
          store.Rooted state record ∧ ∀ older ∈ store.written, ¬Names record older)
  | .compactSegment segment => ∀ state records, store.visit segment = some (state, records) →
      ∀ record ∈ records, legible record = false → ¬store.Linked record
  | .begin _ | .finish => True

/-- Ids are unique, an archive has what is left of its segment in the hot directory, and the ends of
the chains are kept. -/
structure Sound : Prop extends store.Filed where
  linked : ∀ record ∈ store.written, store.Linked record → store.Kept record

variable {store : GcStore}

theorem Sound.history_of_written (h : store.Sound) (hwritten : record ∈ store.written) :
    store.history record.eventId.val = some record := by
  unfold history
  cases hfind : store.written.find? (·.eventId.val = record.eventId.val) with
  | none =>
    have habsent := List.find?_eq_none.mp hfind record hwritten
    simp at habsent
  | some found =>
    have hsame := List.find?_some hfind
    rw [h.toFiled.eq_of_id (mem_of_find?_eq_some hfind) hwritten (by simpa using hsame)]

theorem written_of_history (h : store.history eventId = some record) :
    record ∈ store.written ∧ record.eventId.val = eventId := by
  have hsame := List.find?_some h
  exact ⟨mem_of_find?_eq_some h, by simpa using hsame⟩

theorem Sound.chain_eq (h : store.Sound) (turns : Nat)
    (hlinked : ∀ record, store.history eventId = some record → store.Linked record) :
    supersedeChain store.getEvent turns eventId = supersedeChain store.history turns eventId := by
  induction turns generalizing eventId with
  | zero => rfl
  | succ turns ih =>
    unfold supersedeChain
    cases hrecord : store.history eventId with
    | none =>
      cases hfound : store.getEvent eventId with
      | none => rfl
      | some found =>
        obtain ⟨hwritten, rfl⟩ := h.toFiled.written_of_getEvent hfound
        rw [h.history_of_written hwritten] at hrecord
        contradiction
    | some record =>
      obtain ⟨hwritten, rfl⟩ := written_of_history hrecord
      rw [h.toFiled.getEvent_of_kept hwritten (h.linked record hwritten (hlinked record hrecord))]
      simp only [List.cons.injEq, true_and]
      cases hnext : record.supersede.supersededEventId? with
      | none => rfl
      | some older =>
        refine ih fun next hhistory => ?_
        obtain ⟨-, rfl⟩ := written_of_history hhistory
        exact ⟨record, hwritten, .inr hnext⟩

theorem Sound.chainsWhole (h : store.Sound) : store.ChainsWhole where
  retrievable newer hnewer older holder hnames :=
    h.toFiled.getEvent_of_kept holder (h.linked older holder ⟨newer, hnewer, .inr hnames⟩)
  chain newer hnewer older holder hnames turns := by
    refine h.chain_eq turns fun record hrecord => ?_
    obtain ⟨hwritten, hid⟩ := written_of_history hrecord
    rw [h.toFiled.eq_of_id hwritten hnewer hid]
    exact ⟨older, holder, .inl hnames⟩

theorem Sound.append (h : store.Sound) {records : List EventRecord}
    (hids : (idsOf (store.written ++ records)).Nodup)
    (hstep : store.ChainStep (.write rotates records)) : (store.append rotates records).Sound := by
  refine Sound.mk (h.toFiled.append hids) fun record hrecord hlinked => ?_
  obtain ⟨other, hother, hnames⟩ := hlinked
  rw [written_append] at hrecord hother
  rcases List.mem_append.mp hrecord with hold | hnew
  · by_cases hkept : store.Kept record
    · exact hkept.append h.ascending rotates records
    · rcases List.mem_append.mp hother with hother | hother
      · exact absurd (h.linked record hold ⟨other, hother, hnames⟩) hkept
      · obtain ⟨hnewer, holder⟩ := hstep record hold hkept other hother
        rcases hnames with hnames | hnames
        · exact absurd hnames holder
        · exact absurd hnames hnewer
  · exact .inl ((mem_hotRecords_append h.ascending).mpr (.inr hnew))

theorem reachable_of_rooted {state : GcState} (hnewer : newer ∈ state.log.allRecords)
    (hrecord : record ∈ state.log.allRecords) (hnames : Names newer record) :
    record.eventId.val ∈ state.reachable := by
  refine (mem_computeGcReachable _ _ _).mpr ⟨_, ?_, Relation.ReflTransGen.refl⟩
  refine mem_append_left _ (List.mem_filter.mpr ⟨?_, ?_⟩)
  · have hroot : record.eventId.val ∈ supersedeChainRoots state.log :=
      List.mem_filterMap.mpr ⟨newer, hnewer, hnames⟩
    exact mem_append_right _ hroot
  · exact decide_eq_true (mem_map_of_mem hrecord)

section

variable (h : store.Sound) {segment : Nat} {state : GcState} {records : List EventRecord}
    (hvisit : store.visit segment = some (state, records))
include h hvisit

/-- A cold move keeps the ends of the chains: what it archives is routed, and a linked record of a
segment that is discarded would have been a root. -/
theorem Sound.moved
    (hadmits : admitsMove (records.filter legible) state.moveBound.bound state.reachable = true)
    (hstep : store.ChainStep (.moveSegment segment)) : (store.moved segment records).Sound := by
  obtain ⟨hlegible, hdiscard⟩ := hstep state records hvisit
  refine Sound.mk (h.toFiled.moved hvisit) fun record hrecord hlinked => ?_
  rw [written_moved] at hrecord
  unfold Linked at hlinked
  rw [written_moved] at hlinked
  have hfound : record ∈ records → legible record = true := by
    intro hmem
    by_contra hbroken
    exact hlegible record hmem (by simpa using hbroken) hlinked
  refine (h.linked record hrecord hlinked).moved h.toFiled hvisit hrecord hfound fun hpath hmem => ?_
  have hseen := List.mem_filter.mpr ⟨hmem, hfound hmem⟩
  obtain ⟨hrooted, hnames⟩ := hdiscard hpath record hmem
  obtain ⟨other, hother, hlink | hlink⟩ := hlinked
  · exact absurd hlink (hnames other hother)
  · obtain ⟨hnewer, holder⟩ := hrooted other hother hlink
    exact absurd (mem_map_of_mem hseen)
      (not_mem_of_admitsMove hadmits (reachable_of_rooted hnewer holder hlink))

theorem Sound.compacted (hstep : store.ChainStep (.compactSegment segment)) :
    (store.compacted segment records state.reachable).Sound := by
  refine Sound.mk (h.toFiled.compacted hvisit state.reachable) fun record hrecord hlinked => ?_
  rw [written_compacted] at hrecord
  unfold Linked at hlinked
  rw [written_compacted] at hlinked
  refine (h.linked record hrecord hlinked).compacted h.toFiled hvisit state.reachable hrecord ?_
  intro hmem
  by_contra hbroken
  exact hstep state records hvisit record hmem (by simpa using hbroken) hlinked

end

theorem Sound.step (h : store.Sound) {next : GcStore} (hguard : store.ChainStep action)
    (hnext : store.step action = some next) : next.Sound := by
  obtain ⟨_, _, rfl, hids, rfl⟩ | ⟨_, -, -, rfl⟩ | ⟨_, _, _, rfl, hvisit, hadmits, rfl⟩ |
    ⟨_, _, _, rfl, hvisit, -, rfl⟩ | ⟨-, rfl⟩ := step_cases hnext
  · exact h.append hids hguard
  · exact Sound.mk (h.toFiled.step hnext) h.linked
  · exact h.moved hvisit hadmits hguard
  · exact h.compacted hvisit hguard
  · exact Sound.mk (h.toFiled.step hnext) h.linked

theorem sound_empty : ({} : GcStore).Sound :=
  Sound.mk filed_empty (by simp)

/-- However writes, cold moves and compactions follow on each other, no chain is cut. -/
theorem chainsWhole_of_run {actions : List Action}
    (h : Run GcStore.step ChainStep ({} : GcStore) actions store) : store.ChainsWhole :=
  (h.invariant sound_empty fun _ _ _ hsound hguard hnext => hsound.step hguard hnext).chainsWhole

def sampleEvent (eventId : EventId) (sequenceNumber : Nat) (eventType : EventType) : EventRecord :=
  stamp sampleEnv { sampleIntent with eventType } eventId sampleTime sequenceNumber none

def olderRecord : EventRecord :=
  stamp sampleEnv { sampleIntent with baseClassification := .discardableNoise }
    secondId sampleTime 1 none

def newerRecord : EventRecord :=
  stamp sampleEnv { sampleIntent with supersede := .supersedes "evt-2" "new" .correctedError }
    thirdId sampleTime 2 none

def snapshotRecord (eventId : EventId) (sequenceNumber : Nat) (eventOffset : Int) : EventRecord :=
  stamp sampleEnv { sampleIntent with
    eventType := .snapshotCreated
    eventCategory := .snapshot
    payload := ⟨[("event_offset", .int eventOffset)], rfl⟩ } eventId sampleTime sequenceNumber none

def chainState (hot : List EventRecord) (projectionCursor : Int) : GcState where
  log := { allRecords := hot, indexed := hot }
  projections := []
  projectionCursor
  leases := []
  cursors := []

def chainWrites : List Action :=
  [.write false [sampleRecord], .write true [olderRecord], .write true [newerRecord],
    .write true [snapshotRecord fourthId 3 2]]

def moveBatch : List EventRecord :=
  [sampleEvent ⟨"evt-5", by decide⟩ 4 .transactionEnvelopeSubmitted,
    sampleEvent ⟨"evt-6", by decide⟩ 5 .archiveSegmentMoved,
    sampleEvent ⟨"evt-7", by decide⟩ 6 .commitAccepted]

def firstRun : List Action :=
  [.begin (chainState [sampleRecord, olderRecord, newerRecord,
      snapshotRecord fourthId 3 2] 3),
    .write false moveBatch, .moveSegment 2, .finish]

def secondRun : List Action :=
  [.write false [snapshotRecord ⟨"evt-8", by decide⟩ 7 6],
    .begin (chainState ([sampleRecord, olderRecord, snapshotRecord fourthId 3 2] ++
      moveBatch ++ [snapshotRecord ⟨"evt-8", by decide⟩ 7 6]) 7),
    .write false [sampleEvent ⟨"evt-9", by decide⟩ 8 .archiveSegmentMoved],
    .moveSegment 1, .finish]

def lostOlder (store : GcStore) : Bool :=
  newerRecord ∈ store.written && olderRecord ∈ store.written &&
    (store.getEvent olderRecord.eventId.val).isNone

/-- A superseded record goes when the record that supersedes it is no longer hot. -/
theorem superseded_record_discarded : ∃ actions store,
    Run GcStore.step (fun _ _ => True) ({} : GcStore) actions store ∧ ¬store.ChainsWhole := by
  have hlost : ((chainWrites ++ firstRun ++ secondRun).foldlM GcStore.step ({} : GcStore)).any
      lostOlder = true := by
    decide +kernel
  obtain ⟨store, hstore, hlost⟩ := (Option.any_eq_true _ _).mp hlost
  refine ⟨_, store, Run.of_steps hstore, fun hwhole => ?_⟩
  unfold lostOlder at hlost
  simp only [Bool.and_eq_true, decide_eq_true_eq, Option.isNone_iff_eq_none] at hlost
  obtain ⟨⟨hnewer, holder⟩, hnone⟩ := hlost
  have hsome := hwhole.retrievable newerRecord hnewer olderRecord holder rfl
  rw [hnone] at hsome
  exact absurd hsome.symm (Option.some_ne_none _)

/-- The steps of a run that loses nothing: writes with every record hot, and moves of legible
segments that are not all noise. -/
def harmless (store : GcStore) : Action → Bool
  | .write _ _ => store.written.all (· ∈ store.hotRecords)
  | .moveSegment segment =>
    match store.visit segment with
    | some (_, records) => records.all legible &&
        archivePath store.hotRecords (records.filter legible) ≠ .pureDiscard
    | none => false
  | .compactSegment _ => false
  | .begin _ | .finish => true

theorem chainStep_of_harmless (store : GcStore) (action : Action)
    (h : harmless store action = true) : store.ChainStep action := by
  cases action with
  | write rotates records =>
    intro lost hlost hgone
    exact absurd (.inl (by simpa using List.all_eq_true.mp h lost hlost)) hgone
  | begin => trivial
  | moveSegment segment =>
    intro state records hvisit
    simp only [harmless, hvisit, Bool.and_eq_true, decide_eq_true_eq] at h
    refine ⟨fun record hmem hbroken => ?_, fun hpath => absurd hpath h.2⟩
    rw [List.all_eq_true.mp h.1 record hmem] at hbroken
    contradiction
  | compactSegment => exact absurd h Bool.false_ne_true
  | finish => trivial

/-- The first run keeps the chain, with the newer record in cold storage. -/
theorem chainsWhole_firstRun : ∃ store : GcStore, newerRecord ∈ store.written ∧
    newerRecord ∉ store.hotRecords ∧ store.ChainsWhole := by
  have hmoved : ((chainWrites ++ firstRun).foldlM (fun store action =>
      if harmless store action then store.step action else none) ({} : GcStore)).any
        (fun store => newerRecord ∈ store.written && newerRecord ∉ store.hotRecords) = true := by
    decide +kernel
  obtain ⟨store, hstore, hmoved⟩ := (Option.any_eq_true _ _).mp hmoved
  simp only [Bool.and_eq_true, decide_eq_true_eq] at hmoved
  exact ⟨store, hmoved.1, hmoved.2, chainsWhole_of_run (Run.of_checked chainStep_of_harmless hstore)⟩

end GcStore

end Flowness.Snapshot
