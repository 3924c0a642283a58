import Flowness.Snapshot.Collection
import Flowness.Snapshot.ColdVerbatim

/-!
Retention leases. A lease names events by id, by a lowest sequence number or by the input hash of a
decision; what it names should be reachable, so that no run takes it from the hot log.
-/

namespace Flowness.Snapshot

open List Library Schemas Ledger
open Ledger.EventIndex (idsOf)

namespace RetentionLease

variable (lease : RetentionLease) (record : EventRecord)

def NamesId : Prop := record.eventId.val ∈ lease.eventIds.getD []

def NamesSequence : Prop := ∃ minSeq, lease.minSeq = some minSeq ∧ minSeq ≤ record.sequenceNumber

/-- The hash is the one by which the index files the decision. -/
def NamesDecision : Prop :=
  ∃ key, inputHashKey record = some key ∧ key.2 ∈ lease.inputHashes.getD []

end RetentionLease

namespace GcState

variable (state : GcState)

def Leased (record : EventRecord) : Prop :=
  record ∈ state.log.allRecords ∧ ∃ lease ∈ state.leases,
    lease.NamesId record ∨ lease.NamesSequence record ∨ lease.NamesDecision record

/-- A leased event is reachable, so no run over the sealed segments takes it. -/
structure LeasesProtect (visits : List SegmentVisit) : Prop where
  reachable : ∀ record, state.Leased record → record.eventId.val ∈ state.reachable
  reported : ∀ record, state.Leased record → record ∉ state.archivable
  moved : ∀ limit run, run.map Prod.fst = visits → ∀ visit ∈ state.runGcColdMove limit run,
    ∀ record, state.Leased record → ¬visit.Holds state record
  compacted : ∀ limit run, run.map Prod.fst = visits →
    ∀ visit ∈ state.runSegmentCompaction limit run, ∀ record, state.Leased record →
      visit.Holds state record → record.eventId.val ∈ idsOf (visit.pinned state)
  planned : ∀ visit ∈ state.planCompaction visits, ∀ record, state.Leased record →
    record.eventId.val ∉ idsOf (visit.movable state)

/-- No later event of the log has the sequence number of this one. -/
def LastOfNumber (record : EventRecord) : Prop :=
  ∃ before last after, state.log.allRecords = before ++ last :: after ∧
    last.eventId = record.eventId ∧ last.sequenceNumber = record.sequenceNumber ∧
      ∀ later ∈ after, later.sequenceNumber ≠ record.sequenceNumber

/-- The decision carries a hash of the lease at the top of its payload, where the resolver looks. -/
def HashAtTop (lease : RetentionLease) (record : EventRecord) : Prop :=
  record ∈ state.log.indexed ∧ record.eventType = .resolverDecisionMade ∧
    ∃ inputHash ∈ lease.inputHashes.getD [],
      record.payload.get "input_hash" = some (.str inputHash)

def RootedByLease (record : EventRecord) : Prop :=
  ∃ lease ∈ state.leases, lease.NamesId record ∨
    (lease.NamesSequence record ∧ state.LastOfNumber record) ∨ state.HashAtTop lease record

/-- Each leased event has the shape under which a lease roots it, and `_segment_records` finds it on
the segment that holds it. -/
structure LeasesShaped (visits : List SegmentVisit) : Prop where
  rooted : ∀ record, state.Leased record → state.RootedByLease record
  seen : ∀ visit ∈ visits, ∀ record, state.Leased record → visit.Holds state record →
    record.eventId.val ∈ idsOf visit.records

/-- Nothing but the leases keeps the event: it is the only one of its id, no other root names it,
it is not above the floor of the retained snapshots, and no event has it as its cause. -/
structure OnlyLeased (record : EventRecord) : Prop where
  single : ∀ other ∈ state.log.allRecords ++ state.log.indexed,
    other.eventId = record.eventId → other = record
  unrooted : record.eventId.val ∉ (computeGcRoots state.log state.projections none).ids
  replayed : ∀ floor, (snapshotAnchorRoots state.log 5).2 = some floor →
    (record.sequenceNumber : Int) ≤ floor
  uncaused : ∀ other ∈ state.log.allRecords,
    other.provenance.causationEventId ≠ some record.eventId.val

variable {state} {visits : List SegmentVisit} {record : EventRecord}

theorem lastOfNumber_iff : state.LastOfNumber record ↔ ∃ last,
    state.log.bySequence record.sequenceNumber = some last ∧ last.eventId = record.eventId := by
  constructor
  · rintro ⟨before, last, after, hlog, hid, hnumber, hlater⟩
    refine ⟨last, ?_, hid⟩
    have hafter : after.filter (·.sequenceNumber = record.sequenceNumber) = [] := by
      rw [filter_eq_nil_iff]
      intro later hmem
      simpa using hlater later hmem
    unfold LogView.bySequence
    have hback : (last :: after).filter (·.sequenceNumber = record.sequenceNumber) = [last] := by
      rw [filter_cons_of_pos (by simpa using hnumber), hafter]
    rw [hlog, filter_append, hback]
    exact getLast?_concat
  · rintro ⟨last, hlast, hid⟩
    obtain ⟨init, hinit⟩ := getLast?_eq_some_iff.mp hlast
    obtain ⟨front, back, hlog, -, hback⟩ := filter_eq_append_iff.mp hinit
    obtain ⟨between, after, hsplit, -, hnumber, hafter⟩ := filter_eq_cons_iff.mp hback
    rw [filter_eq_nil_iff] at hafter
    refine ⟨front ++ between, last, after, ?_, hid, of_decide_eq_true hnumber, ?_⟩
    · rw [hlog, hsplit, append_assoc]
    · intro later hmem
      simpa using hafter later hmem

theorem reachable_of_leaseRoots {lease : RetentionLease} (hlease : lease ∈ state.leases)
    (hrecord : record ∈ state.log.allRecords)
    (h : record.eventId.val ∈ leaseRoots state.log lease) :
    record.eventId.val ∈ state.reachable := by
  refine (mem_computeGcReachable _ _ _).mpr ⟨_, ?_, Relation.ReflTransGen.refl⟩
  have hroot : record.eventId.val ∈
      (computeGcRoots state.log state.projections (some state.leases)).ids := by
    have hprotects : record.eventId.val ∈ leaseProtectionRoots state.leases state.log :=
      mem_flatMap.mpr ⟨lease, hlease, h⟩
    exact mem_append_left _ (mem_append_right _ hprotects)
  refine mem_append_left _ (mem_filter.mpr ⟨hroot, ?_⟩)
  rw [decide_eq_true_eq]
  exact mem_map_of_mem hrecord

theorem leaseRoots_of_namesSequence {lease : RetentionLease}
    (hrecord : record ∈ state.log.allRecords) (hnames : lease.NamesSequence record)
    (hlast : state.LastOfNumber record) : record.eventId.val ∈ leaseRoots state.log lease := by
  obtain ⟨minSeq, hminSeq, hle⟩ := hnames
  obtain ⟨last, hby, hid⟩ := lastOfNumber_iff.mp hlast
  have hnumber : last.sequenceNumber = record.sequenceNumber := by
    have hmem := mem_of_getLast? hby
    simpa using (mem_filter.mp hmem).2
  unfold leaseRoots
  rw [hminSeq]
  refine mem_append_left _ (mem_append_right _ (mem_map.mpr ⟨last, ?_, congrArg Subtype.val hid⟩))
  refine mem_filter.mpr ⟨mem_filterMap.mpr ⟨record, hrecord, hby⟩, ?_⟩
  simpa [hnumber] using hle

theorem resolveInputHashEvents_of_hashAtTop {lease : RetentionLease}
    (h : state.HashAtTop lease record) :
    record.eventId.val ∈ resolveInputHashEvents (lease.inputHashes.getD []) state.log := by
  obtain ⟨hindexed, htype, inputHash, hhash, hpayload⟩ := h
  refine mem_map_of_mem (mem_filter.mpr ⟨mem_filter.mpr ⟨hindexed, decide_eq_true htype⟩, ?_⟩)
  rw [hpayload]
  exact decide_eq_true hhash

theorem reachable_of_rootedByLease (hrecord : record ∈ state.log.allRecords)
    (h : state.RootedByLease record) : record.eventId.val ∈ state.reachable := by
  obtain ⟨lease, hlease, hnames | ⟨hnames, hlast⟩ | htop⟩ := h
  · apply reachable_of_leaseRoots hlease hrecord
    exact mem_append_left _ (mem_append_left _ hnames)
  · exact reachable_of_leaseRoots hlease hrecord
      (leaseRoots_of_namesSequence hrecord hnames hlast)
  · apply reachable_of_leaseRoots hlease hrecord
    exact mem_append_right _ (resolveInputHashEvents_of_hashAtTop htop)

theorem rootedByLease_of_leaseRoots {lease : RetentionLease} (hlease : lease ∈ state.leases)
    (honly : state.OnlyLeased record) (h : record.eventId.val ∈ leaseRoots state.log lease) :
    state.RootedByLease record := by
  refine ⟨lease, hlease, ?_⟩
  have hsame : ∀ other ∈ state.log.allRecords ++ state.log.indexed,
      other.eventId.val = record.eventId.val → other = record :=
    fun other hmem hid => honly.single other hmem (Subtype.ext hid)
  rcases mem_append.mp h with h | htop
  · rcases mem_append.mp h with hnames | hsequence
    · exact Or.inl hnames
    · refine Or.inr (Or.inl ?_)
      cases hminSeq : lease.minSeq with
      | none => simp [hminSeq] at hsequence
      | some minSeq =>
        rw [hminSeq] at hsequence
        obtain ⟨last, hlast, hid⟩ := mem_map.mp hsequence
        obtain ⟨hlast, hle⟩ := mem_filter.mp hlast
        obtain ⟨named, -, hby⟩ := mem_filterMap.mp hlast
        obtain ⟨hlogged, hnumber⟩ := mem_filter.mp (mem_of_getLast? hby)
        obtain rfl := hsame last (mem_append_left _ hlogged) hid
        refine ⟨⟨minSeq, hminSeq, of_decide_eq_true hle⟩, lastOfNumber_iff.mpr ⟨last, ?_, rfl⟩⟩
        rw [of_decide_eq_true hnumber]
        exact hby
  · obtain ⟨decision, hdecision, hid⟩ := mem_map.mp htop
    obtain ⟨hmade, hhash⟩ := mem_filter.mp hdecision
    obtain ⟨hindexed, htype⟩ := mem_filter.mp hmade
    obtain rfl := hsame decision (mem_append_right _ hindexed) hid
    refine Or.inr (Or.inr ⟨hindexed, of_decide_eq_true htype, ?_⟩)
    split at hhash
    next inputHash hpayload => exact ⟨inputHash, of_decide_eq_true hhash, hpayload⟩
    · contradiction

/-- Nothing refers to the event, so it is reachable as a root or not at all. -/
theorem rootedByLease_of_reachable (honly : state.OnlyLeased record)
    (h : record.eventId.val ∈ state.reachable) : state.RootedByLease record := by
  obtain ⟨seed, hseed, hpath⟩ := (mem_computeGcReachable _ _ _).mp h
  cases hpath with
  | refl =>
    rcases mem_append.mp hseed with hroot | hfloor
    · have hids := (mem_filter.mp hroot).1
      rcases mem_append.mp hids with hids | hchain
      · rcases mem_append.mp hids with hother | hlease
        · refine absurd ?_ honly.unrooted
          exact mem_append_left _ (mem_append_left _ hother)
        · obtain ⟨lease, hmem, hroots⟩ := mem_flatMap.mp hlease
          exact rootedByLease_of_leaseRoots hmem honly hroots
      · exact absurd (mem_append_right _ hchain) honly.unrooted
    · split at hfloor
      · contradiction
      next floor hsome =>
        obtain ⟨found, hfound, hid⟩ := mem_map.mp hfloor
        obtain ⟨hfound, habove⟩ := mem_filter.mp hfound
        obtain ⟨other, -, hother⟩ := mem_filterMap.mp hfound
        have hlogged := (LogView.byId_some hother).1
        obtain rfl := honly.single found (mem_append_left _ hlogged) (Subtype.ext hid)
        have hbelow := honly.replayed floor hsome
        have habove := of_decide_eq_true habove
        omega
  | tail hpath hedge =>
    obtain ⟨referrer, hreferrer, href⟩ := mem_flatMap.mp (mem_filter.mp hedge).1
    have hlogged := (LogView.byId_some (Option.mem_toList.mp hreferrer)).1
    rcases mem_append.mp href with hcause | hsupersedes
    · exact absurd (Option.mem_toList.mp hcause) (honly.uncaused referrer hlogged)
    · refine absurd ?_ honly.unrooted
      exact mem_append_right _ (mem_filterMap.mpr ⟨referrer, hlogged, Option.mem_toList.mp hsupersedes⟩)

theorem not_mem_archivable (h : record.eventId.val ∈ state.reachable) : record ∉ state.archivable := by
  unfold archivable
  split
  · intro hmem
    have hall := (mem_filter.mp hmem).2
    simp only [decide_eq_true_eq] at hall
    exact hall.2.2 h
  · exact not_mem_nil

variable {visit : SegmentVisit}

theorem mem_pinned_of_reachable (hseen : eventId ∈ idsOf visit.records)
    (h : eventId ∈ state.reachable) : eventId ∈ idsOf (visit.pinned state) := by
  obtain ⟨record, hrecord, rfl⟩ := mem_map.mp hseen
  refine mem_map_of_mem ?_
  unfold SegmentVisit.pinned splitPinnedMovable
  rw [partition_eq_filter_filter]
  exact mem_filter.mpr ⟨hrecord, isPinned_of_reachable hrecord h⟩

theorem not_mem_movable_of_reachable (h : eventId ∈ state.reachable) :
    eventId ∉ idsOf (visit.movable state) := by
  intro hmem
  obtain ⟨record, hrecord, rfl⟩ := mem_map.mp hmem
  unfold SegmentVisit.movable splitPinnedMovable at hrecord
  rw [partition_eq_filter_filter] at hrecord
  obtain ⟨hin, hnot⟩ := mem_filter.mp hrecord
  simp [isPinned_of_reachable hin h] at hnot

theorem mem_runGcColdMove (h : visit ∈ state.runGcColdMove limit run) :
    visit ∈ run.map Prod.fst ∧
      admitsMove visit.records state.moveBound.bound state.reachable = true := by
  unfold runGcColdMove at h
  split at h
  · contradiction
  · exact mem_archiveSegments h

theorem mem_runSegmentCompaction (h : visit ∈ state.runSegmentCompaction limit run) :
    visit ∈ run.map Prod.fst := by
  unfold runSegmentCompaction at h
  split at h
  · contradiction
  · exact (mem_archiveSegments h).1

theorem leasesProtect_of_shaped (h : state.LeasesShaped visits) : state.LeasesProtect visits := by
  have hreachable : ∀ record, state.Leased record → record.eventId.val ∈ state.reachable :=
    fun record hleased => reachable_of_rootedByLease hleased.1 (h.rooted record hleased)
  constructor
  · exact hreachable
  · exact fun record hleased => not_mem_archivable (hreachable record hleased)
  · rintro limit run rfl visit hvisit record hleased hholds
    obtain ⟨hmem, hadmits⟩ := mem_runGcColdMove hvisit
    exact not_mem_of_admitsMove hadmits (hreachable record hleased)
      (h.seen visit hmem record hleased hholds)
  · rintro limit run rfl visit hvisit record hleased hholds
    exact mem_pinned_of_reachable
      (h.seen visit (mem_runSegmentCompaction hvisit) record hleased hholds)
      (hreachable record hleased)
  · exact fun _ _ record hleased => not_mem_movable_of_reachable (hreachable record hleased)

/-- Leases of that shape protect what they name; an event that only a lease names is lost where it
lacks the shape. -/
theorem leases_protect (state : GcState) (visits : List SegmentVisit) :
    (state.LeasesShaped visits → state.LeasesProtect visits) ∧
      ∀ record, state.Leased record → state.OnlyLeased record → ¬state.RootedByLease record →
        ¬state.LeasesProtect visits := by
  constructor
  · exact leasesProtect_of_shaped
  · exact fun record hleased honly hunrooted h =>
      hunrooted (rootedByLease_of_reachable honly (h.reachable record hleased))

end GcState

def decisionPayload (top : List (String × Json)) : List (String × Json) :=
  [("judgment_type", .str "resolver_decision"),
    ("after_state", .obj [("resolver_id", .str "r-1"), ("task_id", .str "t-1"),
      ("input_hash", .str "h-1"),
      ("pipeline_stages", .obj [("stage_2_candidate_retrieval", .obj []),
        ("stage_3_mechanical_filtering", .obj []), ("stage_4_semantic_judgment", .obj []),
        ("stage_6_placement", .arr [])]),
      ("final_active_set", .arr []), ("uncertainties", .arr []), ("cache_hit", .bool false)]),
    ("confidence", .null), ("fallback_applied", .bool false)] ++ top

def decisionRecord : EventRecord :=
  stamp sampleEnv { sampleIntent with
    eventType := .resolverDecisionMade
    eventCategory := .semanticJudgment
    payload := ⟨decisionPayload [], by decide⟩ } sampleId sampleTime 0 none

/-- The same decision with its hash at the top as well. -/
def hashedRecord : EventRecord :=
  stamp sampleEnv { sampleIntent with
    eventType := .resolverDecisionMade
    eventCategory := .semanticJudgment
    payload := ⟨decisionPayload [("input_hash", .str "h-1")], by decide⟩ } secondId sampleTime 1 none

def decisionState : GcState where
  log := { allRecords := [decisionRecord], indexed := [decisionRecord] }
  projections := []
  projectionCursor := 1
  leases := [{ inputHashes := some ["h-1"] }]
  cursors := []

/-- The lease looks for the hash where the decision does not carry it. -/
theorem leased_decision_unreachable : ¬decisionState.LeasesProtect [] := by
  intro h
  have hleased : decisionState.Leased decisionRecord :=
    ⟨mem_cons_self, _, mem_cons_self,
      Or.inr (Or.inr ⟨("r-1", "h-1"), by decide +kernel, mem_cons_self⟩)⟩
  have hmem := h.reachable decisionRecord hleased
  exact absurd hmem (by decide +kernel)

def hashedState : GcState where
  log := { allRecords := [sampleRecord, hashedRecord], indexed := [sampleRecord, hashedRecord] }
  projections := []
  projectionCursor := 2
  leases := [{ inputHashes := some ["h-1"] }, { minSeq := some 1 }]
  cursors := []

def hashedVisit : SegmentVisit where
  content := recordLines [sampleRecord, hashedRecord]
  warm := [sampleRecord, hashedRecord]
  cold := ColdStore.empty
  records := [sampleRecord, hashedRecord]
  read := by
    have hunbroken : Unbroken [sampleRecord, hashedRecord] := by decide +kernel
    exact (Verbatim.of_unbroken hunbroken).segment _ _ (by decide)

theorem shaped_leases_protect : hashedState.LeasesProtect [hashedVisit] := by
  have hleased : ∀ record, hashedState.Leased record → record = hashedRecord := by
    rintro record ⟨hmem, lease, hlease, hnames⟩
    rcases mem_cons.mp hmem with rfl | hmem
    · exfalso
      simp only [hashedState, mem_cons, not_mem_nil, or_false] at hlease
      rcases hlease with rfl | rfl
      · rcases hnames with hnames | ⟨_, hsome, _⟩ | ⟨key, hkey, _⟩
        · exact not_mem_nil hnames
        · cases hsome
        · have hnone : inputHashKey sampleRecord = none := by decide +kernel
          cases hkey
      · rcases hnames with hnames | ⟨_, hsome, hle⟩ | ⟨_, _, hmem⟩
        · exact not_mem_nil hnames
        · cases hsome
          exact absurd hle (by decide)
        · exact not_mem_nil hmem
    · exact mem_singleton.mp hmem
  refine (GcState.leases_protect hashedState [hashedVisit]).1 ⟨?_, ?_⟩
  · intro record hrecord
    rw [hleased record hrecord]
    exact ⟨_, mem_cons_self, Or.inr (Or.inr
      ⟨mem_cons_of_mem _ mem_cons_self, rfl, "h-1", mem_cons_self, by decide⟩)⟩
  · intro visit hvisit record hrecord _
    rw [hleased record hrecord, mem_singleton.mp hvisit]
    exact mem_cons_of_mem _ mem_cons_self

end Flowness.Snapshot
