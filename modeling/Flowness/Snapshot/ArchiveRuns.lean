import Mathlib.Data.List.ReduceOption
import Flowness.Snapshot.ArchiveRecovery
import Flowness.Snapshot.HotOrder

/-!
Runs of writes and completed archival operations, and what the files have in every state they
reach: an archived segment stands whole in its archive, its hot file keeps some of it, and what the
hot file does not keep is routed to the archive and is out of the index.
-/

namespace Flowness.Snapshot

open Option Library Schemas Ledger Disk
open Ledger.EventIndex (idsOf)

/-! ### The records of one segment -/

def WholeWrites (records : List EventRecord) : Prop :=
  ∃ units : List (List EventRecord), units.flatten = records ∧
    ∀ unit ∈ units, WriteUnit unit ∧ ∀ record ∈ unit, record.isKnown = true

/-- Whole writes whose ids belong to the segment, each id once. -/
structure Owned (owner : String → SegmentPath) (path : SegmentPath)
    (records : List EventRecord) : Prop where
  whole : WholeWrites records
  nodup : (idsOf records).Nodup
  owned : ∀ record ∈ records, owner record.eventId.val = path

section

variable {owner : String → SegmentPath} {path : SegmentPath} {records : List EventRecord}

theorem WholeWrites.append (h : WholeWrites records) (hmore : WholeWrites more) :
    WholeWrites (records ++ more) := by
  obtain ⟨units, rfl, hunits⟩ := h
  obtain ⟨others, rfl, hothers⟩ := hmore
  refine ⟨units ++ others, List.flatten_append, fun unit hunit => ?_⟩
  rcases List.mem_append.mp hunit with hmem | hmem
  · exact hunits unit hmem
  · exact hothers unit hmem

theorem Owned.nil : Owned owner path [] :=
  ⟨⟨[], rfl, by simp⟩, List.nodup_nil, by simp⟩

theorem Owned.append (h : Owned owner path records) (hwhole : WholeWrites more)
    (hnodup : (idsOf (records ++ more)).Nodup)
    (howned : ∀ record ∈ more, owner record.eventId.val = path) :
    Owned owner path (records ++ more) := by
  refine ⟨h.whole.append hwhole, hnodup, fun record hrecord => ?_⟩
  rcases List.mem_append.mp hrecord with hmem | hmem
  · exact h.owned record hmem
  · exact howned record hmem

theorem mem_idsOf (h : record ∈ records) : record.eventId.val ∈ idsOf records :=
  List.mem_map_of_mem h

theorem eq_of_eventId (hnodup : (idsOf records).Nodup) (hleft : left ∈ records)
    (hright : right ∈ records) (heq : left.eventId.val = right.eventId.val) : left = right :=
  List.inj_on_of_nodup_map hnodup hleft hright heq

theorem filter_mem_idsOf (hnodup : (idsOf records).Nodup) (hsub : kept.Sublist records) :
    records.filter (fun record => record.eventId.val ∈ idsOf kept) = kept := by
  induction hsub with
  | slnil => rfl
  | @cons kept rest record hsub ih =>
    obtain ⟨hfirst, hrest⟩ := List.nodup_cons.mp hnodup
    have hout : record.eventId.val ∉ idsOf kept := by
      intro hmem
      exact hfirst ((hsub.map fun r : EventRecord => r.eventId.val).subset hmem)
    rw [List.filter_cons_of_neg (by simpa using hout), ih hrest]
  | @cons_cons kept rest record hsub ih =>
    obtain ⟨hfirst, hrest⟩ := List.nodup_cons.mp hnodup
    rw [List.filter_cons_of_pos (by simp [EventIndex.idsOf])]
    congr 1
    refine (List.filter_congr fun other hother => ?_).trans (ih hrest)
    have hne : other.eventId.val ≠ record.eventId.val := by
      intro heq
      have hmem := mem_idsOf hother
      rw [heq] at hmem
      exact hfirst hmem
    simp [EventIndex.idsOf, hne]

section

variable (records : List EventRecord) (reachable : List String)

theorem splitPinnedMovable_eq :
    splitPinnedMovable records reachable = (records.filter (isPinned records reachable),
      records.filter (fun record => !isPinned records reachable record)) := by
  unfold splitPinnedMovable
  rw [List.partition_eq_filter_filter]
  rfl

theorem pinned_sublist : (splitPinnedMovable records reachable).1.Sublist records := by
  rw [splitPinnedMovable_eq]
  exact List.filter_sublist

end

theorem mem_movable {reachable : List String} : record ∈ (splitPinnedMovable records reachable).2 ↔
      record ∈ records ∧ record ∉ (splitPinnedMovable records reachable).1 := by
  rw [splitPinnedMovable_eq]
  simp only [List.mem_filter, Bool.not_eq_true', not_and, Bool.not_eq_true]
  exact ⟨fun hmem => ⟨hmem.1, fun _ => hmem.2⟩, fun hmem => ⟨hmem.1, hmem.2 hmem.1⟩⟩

theorem Owned.pinned (h : Owned owner path records) (reachable : List String) :
    Owned owner path (splitPinnedMovable records reachable).1 := by
  have hsub := pinned_sublist records reachable
  refine ⟨?_, h.nodup.sublist (hsub.map _), fun record hrecord => h.owned record (hsub.subset hrecord)⟩
  obtain ⟨units, hflatten, hunits⟩ := h.whole
  have hconst : ∀ unit ∈ units, ∀ x ∈ unit, ∀ y ∈ unit,
      isPinned records reachable x = isPinned records reachable y := by
    intro unit hunit x hx y hy
    have hwrite := (hunits unit hunit).1
    have hbatch : x.batchId = y.batchId := by rw [hwrite.batchId hx, hwrite.batchId hy]
    cases hwrite with
    | direct record _ => rw [List.mem_singleton.mp hx, List.mem_singleton.mp hy]
    | batch front sentinel batchId _ hall =>
      unfold isPinned
      rw [← hbatch, hall x hx]
  obtain ⟨kept, hkept, hfilter⟩ := filter_flatten hconst
  rw [splitPinnedMovable_eq, ← hflatten]
  rw [hflatten] at hfilter ⊢
  exact ⟨kept, hfilter.symm, fun unit hunit => hunits unit (hkept.subset hunit)⟩

end

/-! ### What `get_event` finds -/

theorem eventId_of_getEvent {warm : List EventRecord}
    (h : getEvent warm cold eventId = some (some record)) : record.eventId.val = eventId := by
  unfold getEvent at h
  split at h
  next found hfound =>
    cases some.inj h
    have hmem := List.mem_of_getLast? hfound
    exact of_decide_eq_true (List.mem_filter.mp hmem).2
  · unfold coldLookup at h
    split at h
    · simp at h
    · obtain ⟨lines, -, hfind⟩ := map_eq_some_iff.mp h
      have hfound := List.find?_some hfind
      simpa using hfound

private theorem mem_of_mapM_getEvent {warm : List EventRecord} {eventIds : List String}
    {options : List (Option EventRecord)} {record : EventRecord}
    (h : eventIds.mapM (getEvent warm cold) = some options) (hmem : some record ∈ options) :
    record.eventId.val ∈ eventIds := by
  induction eventIds generalizing options with
  | nil =>
    obtain rfl : [] = options := some.inj h
    simp at hmem
  | cons eventId eventIds ih =>
    rw [List.mapM_cons] at h
    obtain ⟨first, hfirst, h⟩ := bind_eq_some_iff.mp h
    obtain ⟨rest, hrest, h⟩ := bind_eq_some_iff.mp h
    obtain rfl : first :: rest = options := some.inj h
    rcases List.mem_cons.mp hmem with heq | hmem
    · rw [← heq] at hfirst
      rw [eventId_of_getEvent hfirst]
      exact List.mem_cons_self
    · exact List.mem_cons_of_mem _ (ih hrest hmem)

theorem mem_segmentRecordsBy {warm found : List EventRecord} {cold : ColdStore} {content : Bytes}
    (h : segmentRecordsBy warm cold content = some found) :
    ∃ eventIds, segmentEventIds content = some eventIds ∧
      ∀ record ∈ found, record.eventId.val ∈ eventIds := by
  obtain ⟨eventIds, heventIds, h⟩ := bind_eq_some_iff.mp h
  obtain ⟨options, hoptions, rfl⟩ := map_eq_some_iff.mp h
  exact ⟨eventIds, heventIds, fun record hrecord =>
    mem_of_mapM_getEvent hoptions (List.reduceOption_mem_iff.mp hrecord)⟩

/-! ### What the files have -/

/-- An archive has the whole segment, which is before the active one. While the hot file exists the
archive reads back, and what the hot file does not keep is routed to it. -/
structure Shelved (owner : String → SegmentPath) (state : ArchiveState) (segment : Nat)
    (copy : Bytes) (records : List EventRecord) : Prop where
  copied : prepareArchiveToCold (recordLines records) = some copy
  owned : Owned owner (.hot segment) records
  nonempty : records ≠ []
  before : (SegmentPath.hot segment).rank < state.disk.activeSegmentPath.rank
  readable : ∀ content, state.disk.read (.hot segment) = some content →
    archiveRecords copy = some records
  kept : ∀ content, state.disk.read (.hot segment) = some content →
    (segmentRecords content).Sublist records
  routed : ∀ content, state.disk.read (.hot segment) = some content →
    ∀ record ∈ records, record ∉ segmentRecords content →
      state.cold.index.get record.eventId.val = some segment

/-- A record of the index is in the hot file of its segment, or its segment is all archived. -/
def Placed (owner : String → SegmentPath) (state : ArchiveState) (record : EventRecord) : Prop :=
  (∃ content, state.disk.read (owner record.eventId.val) = some content ∧
    record ∈ segmentRecords content) ∨
  ∃ segment, owner record.eventId.val = .hot segment ∧
    state.disk.read (.hot segment) = none ∧ state.cold.archives.contains segment = true

structure ArchiveState.Stored (owner : String → SegmentPath) (state : ArchiveState) : Prop where
  whole : ∀ path content, state.disk.read path = some content →
    content = recordLines (segmentRecords content)
  owned : ∀ path content, state.disk.read path = some content →
    Owned owner path (segmentRecords content)
  archives : ∀ segment copy, state.cold.archives.get segment = some copy →
    ∃ records, Shelved owner state segment copy records
  unstaged : state.cold.staging = []

structure ArchiveState.Sound (owner : String → SegmentPath) (state : ArchiveState) : Prop extends
    ArchiveState.Stored owner state where
  indexed : state.index.eventIds = none ∨ ∃ records,
    state.index.eventIds = some (eventIdLines records) ∧ ∀ record ∈ records, Placed owner state record

def lastOp (history : List ArchiveOp) (segment : Nat) : Option ArchiveOp :=
  (history.filter (fun op => op.segment = segment)).getLast?

/-- Every move is on the finalize log and has an archive, and a segment last compacted holds what
was pinned. -/
structure Archive.Sound (owner : String → SegmentPath) (archive : Archive) : Prop where
  files : archive.toArchiveState.Sound owner
  finalized : ∀ move ∈ archive.accepted, move.key ∈ archive.finalizeLog
  archived : ∀ move ∈ archive.accepted, archive.cold.archives.contains move.segment = true
  compacted : ∀ segment move pinnedIds, lastOp archive.history segment = some (.moved move) →
    move.pinnedIds = some pinnedIds → archive.cold.archives.contains segment = true ∧
      ∃ content, archive.disk.read (.hot segment) = some content ∧
        idsOf (segmentRecords content) = pinnedIds

/-- The conditions on one step: a write is some whole writes with ids of their segment that are
new, a compaction finds every record on the unbroken lines of its segment, and the ids that a cold
move finds on the lines are ids of the segment. -/
def Archive.Regular (owner : String → SegmentPath) (archive : Archive) : Archive.Action → Prop
  | .write rotates records =>
    let path := writePath archive.disk rotates
    WholeWrites records ∧ (∀ record ∈ records, owner record.eventId.val = path) ∧
      (idsOf (segmentRecords ((archive.disk.read path).getD []) ++ records)).Nodup
  | .compact segment warm _ _ => ∀ content, archive.disk.read (.hot segment) = some content →
      Unbroken (segmentRecords content) ∧
        segmentRecordsBy warm archive.cold content = some (segmentRecords content)
  | .moveToCold segment _ _ _ => ∀ content eventIds,
      archive.disk.read (.hot segment) = some content → segmentEventIds content = some eventIds →
        ∀ eventId ∈ eventIds, owner eventId = .hot segment
  | .rebuildIndex | .uncompact _ => True

/-! ### Steps -/

section

variable {owner : String → SegmentPath} {state : ArchiveState} {segment : Nat} {copy : Bytes}
  {records : List EventRecord}

theorem Shelved.transfer (h : Shelved owner state segment copy records)
    (hactive : state.disk.activeSegmentPath.rank ≤ later.disk.activeSegmentPath.rank)
    (hread : later.disk.read (.hot segment) = state.disk.read (.hot segment))
    (hroute : ∀ record ∈ records, state.cold.index.get record.eventId.val = some segment →
      later.cold.index.get record.eventId.val = some segment) :
    Shelved owner later segment copy records := by
  refine ⟨h.copied, h.owned, h.nonempty, lt_of_lt_of_le h.before hactive, ?_, ?_, ?_⟩
  · rw [hread]
    exact h.readable
  · rw [hread]
    exact h.kept
  · rw [hread]
    intro content hcontent record hrecord hout
    exact hroute record hrecord (h.routed content hcontent record hrecord hout)

theorem rank_active_le_writePath (disk : Disk) (rotates : Bool) :
    disk.activeSegmentPath.rank ≤ (Archive.writePath disk rotates).rank := by
  unfold Archive.writePath
  split
  · exact le_of_lt disk.active_lt_next
  · exact le_rfl

theorem rank_active_le_append (disk : Disk) (path : SegmentPath) (bytes : Bytes) :
    disk.activeSegmentPath.rank ≤ (disk.append path bytes).activeSegmentPath.rank := by
  apply active_rank_le
  intro content hread
  by_cases hpath : disk.activeSegmentPath = path
  · rw [hpath]
    exact ⟨_, read_append_self disk path bytes⟩
  · exact ⟨content, by rw [read_append_of_ne disk bytes hpath, hread]⟩

theorem ArchiveState.Stored.ne_writePath (h : state.Stored owner)
    (hcontains : state.cold.archives.contains segment = true) (rotates : Bool) :
    SegmentPath.hot segment ≠ Archive.writePath state.disk rotates := by
  intro heq
  obtain ⟨copy, hcopy⟩ := isSome_iff_exists.mp hcontains
  obtain ⟨shelved, hshelved⟩ := h.archives segment copy hcopy
  have hbefore := hshelved.before
  have hrank := rank_active_le_writePath state.disk rotates
  rw [heq] at hbefore
  omega

theorem ArchiveState.Sound.write (h : state.Sound owner) (rotates : Bool)
    {path : SegmentPath} (hpath : path = Archive.writePath state.disk rotates) (hwhole : WholeWrites records)
    (howned : ∀ record ∈ records, owner record.eventId.val = path)
    (hnodup : (idsOf (segmentRecords ((state.disk.read path).getD []) ++ records)).Nodup) :
    ({ state with disk := state.disk.append path (recordLines records) } :
      ArchiveState).Sound owner := by
  have hold : (state.disk.read path).getD [] =
      recordLines (segmentRecords ((state.disk.read path).getD [])) ∧
      Owned owner path (segmentRecords ((state.disk.read path).getD [])) := by
    cases hread : state.disk.read path with
    | none =>
      exact ⟨rfl, Owned.nil⟩
    | some content => exact ⟨h.whole path content hread, h.owned path content hread⟩
  have hself : segmentRecords ((state.disk.read path).getD [] ++ recordLines records) =
      segmentRecords ((state.disk.read path).getD []) ++ records := by
    rw [hold.1, segmentRecords_recordLines_append, segmentRecords_recordLines,
      segmentRecords_recordLines]
  have hne : ∀ segment, state.cold.archives.contains segment = true →
      SegmentPath.hot segment ≠ path := by
    rw [hpath]
    exact fun segment hcontains => h.ne_writePath hcontains rotates
  refine ⟨⟨?_, ?_, ?_, h.unstaged⟩, ?_⟩
  · intro q content hread
    by_cases hq : q = path
    · subst hq
      rw [read_append_self] at hread
      rw [← some.inj hread, hself, recordLines_append, ← hold.1]
    · rw [read_append_of_ne _ _ hq] at hread
      exact h.whole q content hread
  · intro q content hread
    by_cases hq : q = path
    · subst hq
      rw [read_append_self] at hread
      rw [← some.inj hread, hself]
      exact hold.2.append hwhole hnodup howned
    · rw [read_append_of_ne _ _ hq] at hread
      exact h.owned q content hread
  · intro segment copy hcopy
    obtain ⟨shelved, hshelved⟩ := h.archives segment copy hcopy
    refine ⟨shelved, hshelved.transfer (rank_active_le_append _ _ _) ?_ (fun _ _ hroute => hroute)⟩
    exact read_append_of_ne _ _ (hne segment (isSome_of_eq_some hcopy))
  · rcases h.indexed with hnone | ⟨indexed, hlines, hplaced⟩
    · exact .inl hnone
    refine .inr ⟨indexed, hlines, fun record hrecord => ?_⟩
    rcases hplaced record hrecord with ⟨content, hread, hmem⟩ | ⟨segment, howner, hread, hcontains⟩
    · left
      by_cases hq : owner record.eventId.val = path
      · rw [hq] at hread ⊢
        refine ⟨_, read_append_self _ _ _, ?_⟩
        rw [hself, hread]
        exact List.mem_append_left _ hmem
      · exact ⟨content, by rw [read_append_of_ne _ _ hq, hread], hmem⟩
    · right
      refine ⟨segment, howner, ?_, hcontains⟩
      exact (read_append_of_ne _ _ (hne segment hcontains)).trans hread

theorem rank_active_le_write (disk : Disk) (path : SegmentPath) (bytes : Bytes) :
    disk.activeSegmentPath.rank ≤ (disk.write path bytes).activeSegmentPath.rank := by
  apply active_rank_le
  intro content hread
  by_cases hpath : disk.activeSegmentPath = path
  · rw [hpath]
    exact ⟨_, read_write_self disk path bytes⟩
  · exact ⟨content, by rw [read_write_of_ne disk bytes hpath, hread]⟩

theorem rank_active_le_remove {disk : Disk}
    (h : (SegmentPath.hot segment).rank < disk.activeSegmentPath.rank) :
    disk.activeSegmentPath.rank ≤ (disk.remove segment).activeSegmentPath.rank := by
  apply active_rank_le
  intro content hread
  have hne : disk.activeSegmentPath ≠ .hot segment := by
    intro heq
    rw [heq] at h
    exact lt_irrefl _ h
  exact ⟨content, by rw [read_remove_of_ne disk hne, hread]⟩

/-- A segment is rewritten with records of its own. -/
theorem ArchiveState.Stored.rewritten (h : state.Stored owner) (hpinned : Owned owner (.hot segment) pinned)
    (hread : (state.disk.write (.hot segment) (recordLines pinned)).read path = some content) :
    content = recordLines (segmentRecords content) ∧ Owned owner path (segmentRecords content) := by
  by_cases hpath : path = .hot segment
  · subst hpath
    rw [read_write_self] at hread
    rw [← some.inj hread, segmentRecords_recordLines]
    exact ⟨rfl, hpinned⟩
  · rw [read_write_of_ne _ _ hpath] at hread
    exact ⟨h.whole path content hread, h.owned path content hread⟩

/-- The archive of another segment is as good when ids of this one are routed. -/
theorem Shelved.routed_of_ne (h : Shelved owner state other copy records) (hne : other ≠ segment)
    (eventIds : List String) (heventIds : ∀ eventId ∈ eventIds, owner eventId = .hot segment)
    (hindex : later.cold.index = (state.cold.updateIndex eventIds segment).index)
    (hactive : state.disk.activeSegmentPath.rank ≤ later.disk.activeSegmentPath.rank)
    (hread : later.disk.read (.hot other) = state.disk.read (.hot other)) :
    Shelved owner later other copy records := by
  refine h.transfer hactive hread fun record hrecord hroute => ?_
  have hout : record.eventId.val ∉ eventIds := by
    intro hmem
    have hmine := heventIds _ hmem
    rw [h.owned.owned record hrecord] at hmine
    exact hne (SegmentPath.hot.inj hmine)
  rw [hindex, ColdStore.get_updateIndex, if_neg hout]
  exact hroute

section

variable {content : Bytes} {pinned movable : List EventRecord} (h : state.Sound owner)
  (hread : state.disk.read (.hot segment) = some content)
  (hmovable : ∀ record, record ∈ movable ↔ record ∈ segmentRecords content ∧ record ∉ pinned)
include h hread

/-- The archive is the old one with all of the segment, or the copy just made. -/
theorem ArchiveState.Sound.shelf (hunbroken : Unbroken (segmentRecords content))
    (hnonempty : segmentRecords content ≠ []) (hcopy : prepareArchiveToCold content = some copy) :
    ∃ shelved, prepareArchiveToCold (recordLines shelved) =
        some ((state.cold.archives.get segment).getD copy) ∧
      Owned owner (.hot segment) shelved ∧ shelved ≠ [] ∧
      archiveRecords ((state.cold.archives.get segment).getD copy) = some shelved ∧
      (segmentRecords content).Sublist shelved ∧
      ∀ record ∈ shelved, record ∉ segmentRecords content →
        state.cold.index.get record.eventId.val = some segment := by
  cases hold : state.cold.archives.get segment with
  | none =>
    rw [h.whole _ content hread, prepareArchiveToCold_unbroken hunbroken] at hcopy
    obtain rfl := some.inj hcopy
    exact ⟨segmentRecords content, prepareArchiveToCold_unbroken hunbroken, h.owned _ content hread,
      hnonempty, archiveRecords_recordLines hunbroken, List.Sublist.refl _,
      fun record hrecord hout => absurd hrecord hout⟩
  | some old =>
    obtain ⟨shelved, hshelved⟩ := h.archives segment old hold
    exact ⟨shelved, hshelved.copied, hshelved.owned, hshelved.nonempty,
      hshelved.readable content hread, hshelved.kept content hread, hshelved.routed content hread⟩

include hmovable

theorem ArchiveState.Sound.prunedIndex {sha256 : Bytes → String}
    (hprune : pruneEventIds sha256 state.index (idsOf movable) = some (dir, count))
    {later : ArchiveState} (hdisk : later.disk = state.disk.write (.hot segment) (recordLines pinned))
    (hcontains : ∀ other, state.cold.archives.contains other = true →
      later.cold.archives.contains other = true) :
    dir.eventIds = none ∨ ∃ records,
      dir.eventIds = some (eventIdLines records) ∧ ∀ record ∈ records, Placed owner later record := by
  rcases h.indexed with hnone | ⟨indexed, hindex, hplaced⟩
  · left
    rw [pruneEventIds, hnone] at hprune
    rw [← (Prod.mk.inj (some.inj hprune)).1]
    exact hnone
  right
  refine ⟨_, pruneEventIds_eq hindex hprune, fun record hrecord => ?_⟩
  unfold Placed
  rw [hdisk]
  obtain ⟨hmem, hkeep⟩ := List.mem_filter.mp hrecord
  have hkept : record.eventId.val ∉ idsOf movable := by simpa using hkeep
  rcases hplaced record hmem with ⟨bytes, hbytes, hline⟩ | ⟨other, howner, hgone, harchived⟩
  · left
    by_cases hpath : owner record.eventId.val = .hot segment
    · rw [hpath] at hbytes ⊢
      rw [hread] at hbytes
      rw [← some.inj hbytes] at hline
      refine ⟨_, read_write_self _ _ _, ?_⟩
      rw [segmentRecords_recordLines]
      by_contra hout
      exact hkept (mem_idsOf ((hmovable record).mpr ⟨hline, hout⟩))
    · exact ⟨bytes, (read_write_of_ne _ _ hpath).trans hbytes, hline⟩
  · right
    refine ⟨other, howner, ?_, hcontains other harchived⟩
    have hne : SegmentPath.hot other ≠ .hot segment := by
      intro heq
      rw [heq, hread] at hgone
      contradiction
    exact (read_write_of_ne _ _ hne).trans hgone

theorem ArchiveState.Sound.compact (hsealed : isSealed state.disk segment = true)
    (hpinned : Owned owner (.hot segment) pinned) (hsub : pinned.Sublist (segmentRecords content))
    (hunbroken : Unbroken (segmentRecords content)) (hnonempty : segmentRecords content ≠ [])
    (hcopy : prepareArchiveToCold content = some copy) {sha256 : Bytes → String}
    (hprune : pruneEventIds sha256 state.index (idsOf movable) = some (dir, count))
    (finalizeLog : List (Nat × String)) :
    ({ disk := state.disk.write (.hot segment) (recordLines pinned)
       cold := ((state.cold.stage segment copy).renameStagingToCold segment).updateIndex
         (idsOf movable) segment
       index := dir
       finalizeLog } : ArchiveState).Sound owner := by
  have hactive := rank_active_le_write state.disk (.hot segment) (recordLines pinned)
  have hself : ∀ bytes, (state.disk.write (.hot segment) (recordLines pinned)).read (.hot segment) =
      some bytes → segmentRecords bytes = pinned := by
    intro bytes hbytes
    rw [read_write_self] at hbytes
    rw [← some.inj hbytes, segmentRecords_recordLines]
  have hindex : ((state.cold.stage segment copy).renameStagingToCold segment).index =
      state.cold.index := ColdStore.index_renameStagingToCold _ _
  refine ⟨⟨fun q bytes hq => (h.rewritten hpinned hq).1, fun q bytes hq => (h.rewritten hpinned hq).2,
    ?_, ColdStore.staging_renameStagingToCold_stage h.unstaged segment copy⟩, ?_⟩
  · intro other archived harchived
    have hget : ((state.cold.stage segment copy).renameStagingToCold segment).archives.get other =
        some archived := harchived
    rw [ColdStore.get_archives_renameStagingToCold_stage h.unstaged] at hget
    split at hget
    next heq =>
      subst heq
      obtain ⟨shelved, hcopied, howned, hfull, hreads, hwithin, hrouted⟩ :=
        h.shelf hread hunbroken hnonempty hcopy
      rw [some.inj hget] at hcopied hreads
      refine ⟨shelved, hcopied, howned, hfull,
        lt_of_lt_of_le (rank_lt_active_of_isSealed hsealed) hactive, fun _ _ => hreads, ?_, ?_⟩
      · intro bytes hbytes
        rw [hself bytes hbytes]
        exact hsub.trans hwithin
      · intro bytes hbytes record hrecord hout
        rw [hself bytes hbytes] at hout
        rw [ColdStore.get_updateIndex]
        by_cases hmem : record ∈ segmentRecords content
        · rw [if_pos (mem_idsOf ((hmovable record).mpr ⟨hmem, hout⟩))]
        · split
          · rfl
          · rw [hindex]
            exact hrouted record hrecord hmem
    next hne =>
      obtain ⟨shelved, hshelved⟩ := h.archives other archived hget
      refine ⟨shelved, hshelved.routed_of_ne hne (idsOf movable) ?_ ?_ hactive
        (read_write_of_ne _ _ fun heq => hne (SegmentPath.hot.inj heq))⟩
      · intro eventId hid
        obtain ⟨moved, hmoved, rfl⟩ := List.mem_map.mp hid
        exact (h.owned _ content hread).owned moved ((hmovable moved).mp hmoved).1
      · unfold ColdStore.updateIndex
        rw [hindex]
  · refine h.prunedIndex hread hmovable hprune rfl fun other hother => ?_
    show ((state.cold.stage segment copy).renameStagingToCold segment).archives.contains other = true
    rw [ColdStore.contains_renameStagingToCold_stage h.unstaged, hother, Bool.or_true]

end

section

variable (h : state.Stored owner)
include h

theorem ArchiveState.Stored.allFramed : state.disk.AllFramed := by
  intro path content hread _
  rw [h.whole path content hread]
  exact framed_recordLines _

theorem ArchiveState.Stored.mem_hot (hrecord : record ∈ state.disk.physicalRecords) :
    ∃ path content,
      state.disk.read path = some content ∧ record ∈ segmentRecords content ∧
      owner record.eventId.val = path ∧ record.isKnown = true := by
  obtain ⟨path, hmem⟩ := Disk.mem_physicalRecords.mp hrecord
  unfold Disk.recordsAt at hmem
  split at hmem
  · cases hread : state.disk.read path with
    | none => simp [hread] at hmem
    | some content =>
      rw [hread, getD_some] at hmem
      have howned := h.owned path content hread
      obtain ⟨units, hflatten, hunits⟩ := howned.whole
      obtain ⟨unit, hunit, hin⟩ := List.mem_flatten.mp (hflatten ▸ hmem)
      exact ⟨path, content, hread, hmem, howned.owned record hmem, (hunits unit hunit).2 record hin⟩
  · simp at hmem

theorem ArchiveState.Stored.scan : ∃ scanned, iterCommittedRecords state.disk = .ok scanned ∧
      ∀ record, record ∈ scanned ↔ record ∈ state.disk.physicalRecords := by
  obtain ⟨out, final, hvisit⟩ := visitAll_ok [] fun record hrecord => by
    obtain ⟨path, content, -, -, -, hknown⟩ := h.mem_hot hrecord
    exact failsReplay_of_isKnown hknown
  have hscan : iterCommittedRecords state.disk = .ok out := by
    rw [h.allFramed.iterCommittedRecords_eq, hvisit]
    rfl
  refine ⟨out, hscan, fun record => ⟨h.allFramed.yields_physical hscan record, fun hrecord => ?_⟩⟩
  obtain ⟨path, hmem⟩ := Disk.mem_physicalRecords.mp hrecord
  have hwithin := state.disk.recordsAt_infix path
  have howned : Owned owner path (state.disk.recordsAt path) := by
    unfold Disk.recordsAt
    split
    · cases hread : state.disk.read path with
      | none =>
        rw [getD_none, segmentRecords_nil]
        exact Owned.nil
      | some content => exact h.owned path content hread
    · exact Owned.nil
  obtain ⟨units, hflatten, hunits⟩ := howned.whole
  obtain ⟨unit, hunit, hin⟩ := List.mem_flatten.mp (hflatten ▸ hmem)
  obtain ⟨hwrite, hknown⟩ := hunits unit hunit
  have hpart : unit <:+: state.disk.recordsAt path := by
    rw [← hflatten]
    exact List.infix_of_mem_flatten hunit
  exact hwrite.yielded hknown (hpart.trans hwithin) hvisit record hin

theorem ArchiveState.Stored.rebuildIndex {sha256 : Bytes → String}
    (hstep : Snapshot.rebuildIndex sha256 state = some later) : later.Sound owner := by
  unfold Snapshot.rebuildIndex at hstep
  cases hscan : iterCommittedRecords state.disk with
  | error e => simp [hscan] at hstep
  | ok scanned =>
    rw [hscan] at hstep
    cases hstep
    refine ⟨⟨h.whole, h.owned, fun segment copy hcopy => ?_, h.unstaged⟩, .inr ⟨scanned, rfl, ?_⟩⟩
    · obtain ⟨shelved, hshelf⟩ := h.archives segment copy hcopy
      exact ⟨shelved, hshelf.transfer le_rfl rfl (fun _ _ hroute => hroute)⟩
    · intro record hrecord
      obtain ⟨path, content, hread, hmem, howner, -⟩ :=
        h.mem_hot (h.allFramed.yields_physical hscan record hrecord)
      exact .inl ⟨content, by rw [howner]; exact hread, hmem⟩

end

theorem ArchiveState.Sound.move (h : state.Sound owner)
    (hsealed : isSealed state.disk segment = true)
    (hread : state.disk.read (.hot segment) = some content)
    (hnonempty : segmentRecords content ≠ []) (hcopy : prepareArchiveToCold content = some copy)
    {eventIds : List String} (heventIds : ∀ eventId ∈ eventIds, owner eventId = .hot segment)
    (finalizeLog : List (Nat × String)) :
    ({ disk := state.disk.remove segment
       cold := ((state.cold.stage segment copy).renameStagingToCold segment).updateIndex
         eventIds segment
       index := state.index
       finalizeLog } : ArchiveState).Sound owner := by
  have hlines := h.whole _ content hread
  have hbefore := rank_lt_active_of_isSealed hsealed
  have hactive := rank_active_le_remove hbefore
  have hself : (state.disk.remove segment).read (.hot segment) = none :=
    read_remove_self _ _
  have hkept : ∀ q bytes, (state.disk.remove segment).read q = some bytes →
      state.disk.read q = some bytes := by
    intro q bytes hq
    have hpath : q ≠ .hot segment := by
      rintro rfl
      rw [hself] at hq
      contradiction
    rw [read_remove_of_ne _ hpath] at hq
    exact hq
  have hcontains : ∀ other, state.cold.archives.contains other = true ∨ other = segment →
      ((state.cold.stage segment copy).renameStagingToCold segment).archives.contains other =
        true := by
    intro other hother
    rw [ColdStore.contains_renameStagingToCold_stage h.unstaged]
    simpa [or_comm] using hother
  refine ⟨⟨fun q bytes hq => h.whole q bytes (hkept q bytes hq),
    fun q bytes hq => h.owned q bytes (hkept q bytes hq), ?_,
    ColdStore.staging_renameStagingToCold_stage h.unstaged segment copy⟩, ?_⟩
  · intro other archived harchived
    have hget : ((state.cold.stage segment copy).renameStagingToCold segment).archives.get other =
        some archived := harchived
    rw [ColdStore.get_archives_renameStagingToCold_stage h.unstaged] at hget
    split at hget
    next heq =>
      subst heq
      obtain ⟨shelved, hcopied, howned, hnil⟩ : ∃ shelved,
          prepareArchiveToCold (recordLines shelved) = some archived ∧
            Owned owner (.hot other) shelved ∧ shelved ≠ [] := by
        cases hold : state.cold.archives.get other with
        | none =>
          rw [hold, getD_none] at hget
          refine ⟨segmentRecords content, ?_, h.owned _ content hread, hnonempty⟩
          rw [← hlines, hcopy, hget]
        | some old =>
          rw [hold, getD_some] at hget
          obtain rfl := some.inj hget
          obtain ⟨shelved, hshelved⟩ := h.archives other old hold
          exact ⟨shelved, hshelved.copied, hshelved.owned, hshelved.nonempty⟩
      have hgone : ∀ bytes, (state.disk.remove other).read (.hot other) ≠ some bytes := by
        intro bytes hbytes
        rw [hself] at hbytes
        contradiction
      exact ⟨shelved, hcopied, howned, hnil, lt_of_lt_of_le hbefore hactive,
        fun bytes hbytes => absurd hbytes (hgone bytes),
        fun bytes hbytes => absurd hbytes (hgone bytes),
        fun bytes hbytes => absurd hbytes (hgone bytes)⟩
    next hne =>
      obtain ⟨shelved, hshelved⟩ := h.archives other archived hget
      refine ⟨shelved, hshelved.routed_of_ne hne eventIds heventIds ?_ hactive
        (read_remove_of_ne _ fun heq => hne (SegmentPath.hot.inj heq))⟩
      unfold ColdStore.updateIndex
      rw [ColdStore.index_renameStagingToCold]
      rfl
  · rcases h.indexed with hnone | ⟨indexed, hindex, hplaced⟩
    · exact .inl hnone
    refine .inr ⟨indexed, hindex, fun record hrecord => ?_⟩
    rcases hplaced record hrecord with ⟨bytes, hbytes, hline⟩ | ⟨other, howner, hgone, harchived⟩
    · by_cases hpath : owner record.eventId.val = .hot segment
      · exact .inr ⟨segment, hpath, hself, hcontains segment (.inr rfl)⟩
      · exact .inl ⟨bytes, (read_remove_of_ne _ hpath).trans hbytes, hline⟩
    · refine .inr ⟨other, howner, ?_, hcontains other (.inl harchived)⟩
      have hne : SegmentPath.hot other ≠ .hot segment := by
        intro heq
        rw [heq, hread] at hgone
        contradiction
      exact (read_remove_of_ne _ hne).trans hgone

theorem ArchiveState.Sound.uncompact (h : state.Sound owner) {sha256 : Bytes → String}
    (hstep : uncompactSegment sha256 state segment = some later) : later.Sound owner := by
  obtain ⟨archive, restored, harchive, hrestored, -, hstep⟩ := uncompactSegment_eq hstep
  obtain ⟨shelved, hshelved⟩ := h.archives segment archive harchive
  obtain rfl := archiveRecords_prepare hshelved.copied hrestored
  have hactive := rank_active_le_write state.disk (.hot segment) (recordLines restored)
  have hself : (state.disk.write (.hot segment) (recordLines restored)).read (.hot segment) =
      some (recordLines restored) := read_write_self _ _ _
  have hstored : ArchiveState.Stored owner { state with
      disk := state.disk.write (.hot segment) (recordLines restored)
      cold := state.cold.dropSegment segment } := by
    refine ⟨fun q bytes hq => (h.rewritten hshelved.owned hq).1,
      fun q bytes hq => (h.rewritten hshelved.owned hq).2, fun other archived harchived => ?_, h.unstaged⟩
    by_cases hother : other = segment
    · subst hother
      obtain rfl : archive = archived := some.inj (harchive.symm.trans harchived)
      have hlines : ∀ bytes, (state.disk.write (.hot other) (recordLines restored)).read
          (.hot other) = some bytes → segmentRecords bytes = restored := by
        intro bytes hbytes
        rw [hself] at hbytes
        rw [← some.inj hbytes, segmentRecords_recordLines]
      refine ⟨restored, hshelved.copied, hshelved.owned, hshelved.nonempty,
        lt_of_lt_of_le hshelved.before hactive, fun _ _ => hrestored, ?_, ?_⟩
      · intro bytes hbytes
        rw [hlines bytes hbytes]
      · intro bytes hbytes record hrecord hout
        rw [hlines bytes hbytes] at hout
        exact absurd hrecord hout
    · obtain ⟨others, hothers⟩ := h.archives other archived harchived
      refine ⟨others, hothers.transfer hactive ?_ ?_⟩
      · exact read_write_of_ne _ _ (fun heq => hother (SegmentPath.hot.inj heq))
      · exact fun record _ hroute => ColdStore.get_dropSegment_of_ne hroute hother
  exact hstored.rebuildIndex hstep

end

/-! ### Runs -/

section

variable {owner : String → SegmentPath} {archive next : Archive} {sha256 : Bytes → String}
  {sha256OfArchive : Bytes → String}

theorem lastOp_append (history : List ArchiveOp) (op : ArchiveOp) (segment : Nat) :
    lastOp (history ++ [op]) segment =
      if op.segment = segment then some op else lastOp history segment := by
  unfold lastOp
  rw [List.filter_append]
  split
  next heq =>
    rw [List.filter_cons_of_pos (by simpa using heq), List.filter_nil, List.getLast?_concat]
  next hne =>
    rw [List.filter_cons_of_neg (by simpa using hne), List.filter_nil, List.append_nil]

theorem sound_fresh (owner : String → SegmentPath) : Archive.fresh.Sound owner := by
  have hread : ∀ path content, Archive.fresh.disk.read path = some content → content = [] := by
    intro path content hread
    cases path with
    | base => exact (some.inj hread).symm
    | hot number => contradiction
  refine ⟨⟨⟨?_, ?_, fun segment copy hcopy => ?_, rfl⟩, .inl rfl⟩, by simp [Archive.accepted,
    Archive.fresh], by simp [Archive.accepted, Archive.fresh], fun segment move pinnedIds hlast => ?_⟩
  · intro path content hcontent
    rw [hread path content hcontent, segmentRecords_nil]
    rfl
  · intro path content hcontent
    rw [hread path content hcontent, segmentRecords_nil]
    exact Owned.nil
  · contradiction
  · contradiction

theorem rebuildIndex_eq {state later : ArchiveState}
    (h : rebuildIndex sha256 state = some later) : ∃ dir, later = { state with index := dir } := by
  unfold rebuildIndex at h
  split at h
  · contradiction
  · exact ⟨_, (some.inj h).symm⟩

private theorem Archive.Sound.write (h : archive.Sound owner) {records : List EventRecord}
    (hregular : archive.Regular owner (.write rotates records))
    (hstep : Archive.step sha256 sha256OfArchive archive (.write rotates records) = some next) :
    next.Sound owner := by
  cases hstep
  obtain ⟨hwhole, howned, hnodup⟩ := hregular
  refine ⟨h.files.write rotates rfl hwhole howned hnodup, h.finalized, h.archived, ?_⟩
  intro segment move pinnedIds hlast hpinned
  obtain ⟨hcontains, content, hread, hids⟩ := h.compacted segment move pinnedIds hlast hpinned
  refine ⟨hcontains, content, ?_, hids⟩
  exact (read_append_of_ne _ _ (h.files.ne_writePath hcontains rotates)).trans hread

theorem mem_recordFinalizeCompleted :
    other ∈ recordFinalizeCompleted log key ↔ other ∈ log ∨ other = key := by
  unfold recordFinalizeCompleted
  split
  next hmem =>
    exact ⟨.inl, fun h => h.elim id (fun heq => heq ▸ hmem)⟩
  · rw [List.mem_append, List.mem_singleton]

private theorem Archive.finalized_append {history : List ArchiveOp} {log : List (Nat × String)}
    {move : ArchiveMove} (h : ∀ m ∈ history.filterMap ArchiveOp.move?, m.key ∈ log) :
    ∀ m ∈ (history ++ [ArchiveOp.moved move]).filterMap ArchiveOp.move?,
      m.key ∈ recordFinalizeCompleted log move.key := by
  intro m hm
  rw [List.filterMap_append] at hm
  apply mem_recordFinalizeCompleted.mpr
  rcases List.mem_append.mp hm with hold | hnew
  · exact .inl (h m hold)
  · rw [List.mem_singleton.mp hnew]
    exact .inr rfl

private theorem Archive.archived_append {history : List ArchiveOp} {store : ColdStore}
    (hstaging : store.staging = [])
    (h : ∀ m ∈ history.filterMap ArchiveOp.move?, store.archives.contains m.segment = true)
    (move : ArchiveMove) (copy : Bytes) : ∀ m ∈ (history ++ [ArchiveOp.moved move]).filterMap ArchiveOp.move?,
      ((store.stage move.segment copy).renameStagingToCold move.segment).archives.contains
        m.segment = true := by
  intro m hm
  rw [ColdStore.contains_renameStagingToCold_stage hstaging]
  rw [List.filterMap_append] at hm
  rcases List.mem_append.mp hm with hold | hnew
  · rw [h m hold, Bool.or_true]
  · simp [List.mem_singleton.mp hnew]

section

variable (h : archive.Sound owner) {segment : Nat} {warm : List EventRecord}
include h

private theorem Archive.Sound.compact
    (hregular : archive.Regular owner (.compact segment warm bound reachable))
    (hstep : Archive.step sha256 sha256OfArchive archive (.compact segment warm bound reachable) =
      some next) : next.Sound owner := by
  obtain ⟨⟨staged, accepted⟩, haccept, hstep⟩ := bind_eq_some_iff.mp hstep
  obtain ⟨content, records, copy, hsealed, hread, hrecords, hadmits, hcopy, rfl, hmove, hsteps⟩ :=
    acceptCompaction_eq haccept
  obtain ⟨hunbroken, hresolves⟩ := hregular content hread
  obtain rfl : segmentRecords content = records := some.inj (hresolves.symm.trans hrecords)
  obtain ⟨later, hrun, rfl⟩ := map_eq_some_iff.mp hstep
  rw [hsteps] at hrun
  obtain ⟨⟨dir, count⟩, hprune, rfl⟩ := runSteps_finalizeCompaction hrun
  have hsegment : accepted.move.segment = segment := by rw [hmove]
  have hpinnedIds : accepted.move.pinnedIds =
      some (idsOf (splitPinnedMovable (segmentRecords content) reachable).1) := by rw [hmove]
  have hfiles := h.files.compact hread (fun _ => mem_movable) hsealed
    ((h.files.owned _ content hread).pinned reachable) (pinned_sublist _ reachable)
    hunbroken (admitsCompaction_iff.mp hadmits).1 hcopy hprune
    (recordFinalizeCompleted archive.finalizeLog accepted.move.key)
  have harchived := Archive.archived_append h.files.unstaged h.archived accepted.move copy
  rw [hsegment] at harchived ⊢
  refine ⟨hfiles, Archive.finalized_append h.finalized, harchived, ?_⟩
  intro other move pinnedIds hlast hpinned
  rw [lastOp_append] at hlast
  split at hlast
  next heq =>
    obtain rfl : segment = other := hsegment.symm.trans heq
    obtain rfl := ArchiveOp.moved.inj (some.inj hlast)
    have hself := read_write_self archive.disk (.hot segment)
      (recordLines (splitPinnedMovable (segmentRecords content) reachable).1)
    refine ⟨?_, _, hself, ?_⟩
    · exact (ColdStore.contains_renameStagingToCold_stage h.files.unstaged _ _ _).trans (by simp)
    · rw [segmentRecords_recordLines]
      exact some.inj (hpinnedIds.symm.trans hpinned)
  next hne =>
    have hother : other ≠ segment := fun heq => hne (hsegment.trans heq.symm)
    obtain ⟨hcontains, bytes, hbytes, hids⟩ := h.compacted other move pinnedIds hlast hpinned
    refine ⟨?_, bytes, ?_, hids⟩
    · exact (ColdStore.contains_renameStagingToCold_stage h.files.unstaged _ _ _).trans (by simp [hcontains])
    · exact (read_write_of_ne _ _ (fun heq => hother (SegmentPath.hot.inj heq))).trans hbytes

private theorem Archive.Sound.move
    (hregular : archive.Regular owner (.moveToCold segment warm bound reachable))
    (hstep : Archive.step sha256 sha256OfArchive archive (.moveToCold segment warm bound reachable)
      = some next) : next.Sound owner := by
  obtain ⟨⟨staged, accepted⟩, haccept, hstep⟩ := bind_eq_some_iff.mp hstep
  obtain ⟨content, records, copy, hsealed, hread, hrecords, hadmits, hcopy, rfl, hmove, hsteps⟩ :=
    acceptMove_eq haccept
  obtain ⟨later, hrun, rfl⟩ := map_eq_some_iff.mp hstep
  rw [hsteps, runSteps_finalizeArchive] at hrun
  cases hrun
  have hsegment : accepted.move.segment = segment := by rw [hmove]
  have hpinnedIds : accepted.move.pinnedIds = none := by rw [hmove]
  obtain ⟨eventIds, heventIds, hfound⟩ := mem_segmentRecordsBy hrecords
  have hlines : segmentRecords content ≠ [] := by
    intro hnil
    rw [h.files.whole _ content hread, hnil] at heventIds
    obtain rfl : [] = eventIds := some.inj heventIds
    exact (admitsMove_iff.mp hadmits).1 (List.eq_nil_iff_forall_not_mem.mpr fun record hrecord =>
      List.not_mem_nil (hfound record hrecord))
  have howned : ∀ eventId ∈ idsOf records, owner eventId = .hot segment := by
    intro eventId hid
    obtain ⟨record, hrecord, rfl⟩ := List.mem_map.mp hid
    exact hregular content eventIds hread heventIds _ (hfound record hrecord)
  have hfiles := h.files.move hsealed hread hlines hcopy howned
    (recordFinalizeCompleted archive.finalizeLog accepted.move.key)
  have harchived := Archive.archived_append h.files.unstaged h.archived accepted.move copy
  rw [hsegment] at harchived ⊢
  refine ⟨hfiles, Archive.finalized_append h.finalized, harchived, ?_⟩
  intro other move pinnedIds hlast hpinned
  rw [lastOp_append] at hlast
  split at hlast
  · obtain rfl := ArchiveOp.moved.inj (some.inj hlast)
    rw [hpinnedIds] at hpinned
    contradiction
  next hne =>
    have hother : other ≠ segment := fun heq => hne (hsegment.trans heq.symm)
    obtain ⟨hcontains, bytes, hbytes, hids⟩ := h.compacted other move pinnedIds hlast hpinned
    refine ⟨?_, bytes, ?_, hids⟩
    · exact (ColdStore.contains_renameStagingToCold_stage h.files.unstaged _ _ _).trans (by simp [hcontains])
    · exact (read_remove_of_ne _ (fun heq => hother (SegmentPath.hot.inj heq))).trans hbytes

end

private theorem Archive.Sound.uncompact (h : archive.Sound owner) {segment : Nat}
    (hstep : Archive.step sha256 sha256OfArchive archive (.uncompact segment) = some next) :
    next.Sound owner := by
  obtain ⟨later, huncompact, rfl⟩ := map_eq_some_iff.mp hstep
  have hfiles := h.files.uncompact huncompact
  obtain ⟨copy, records, -, -, -, hrebuild⟩ := uncompactSegment_eq huncompact
  obtain ⟨dir, rfl⟩ := rebuildIndex_eq hrebuild
  have hhistory : (archive.history ++ [ArchiveOp.restored segment]).filterMap ArchiveOp.move? =
      archive.accepted := by
    rw [List.filterMap_append]
    exact List.append_nil _
  refine ⟨hfiles, fun move hmove => h.finalized move (hhistory ▸ hmove),
    fun move hmove => h.archived move (hhistory ▸ hmove), ?_⟩
  · intro other move pinnedIds hlast hpinned
    rw [lastOp_append] at hlast
    split at hlast
    · exact absurd (some.inj hlast) (by simp)
    next hne =>
      obtain ⟨hcontains, bytes, hbytes, hids⟩ := h.compacted other move pinnedIds hlast hpinned
      refine ⟨hcontains, bytes, ?_, hids⟩
      exact (read_write_of_ne _ _ (fun heq => hne (SegmentPath.hot.inj heq).symm)).trans hbytes

theorem Archive.Sound.step (h : archive.Sound owner) (hregular : archive.Regular owner action)
    (hstep : Archive.step sha256 sha256OfArchive archive action = some next) :
    next.Sound owner := by
  cases action with
  | write rotates records => exact h.write hregular hstep
  | rebuildIndex =>
    obtain ⟨later, hrebuild, rfl⟩ := map_eq_some_iff.mp hstep
    have hfiles := h.files.toStored.rebuildIndex hrebuild
    obtain ⟨dir, rfl⟩ := rebuildIndex_eq hrebuild
    exact ⟨hfiles, h.finalized, h.archived, h.compacted⟩
  | compact segment warm bound reachable => exact h.compact hregular hstep
  | moveToCold segment warm bound reachable => exact h.move hregular hstep
  | uncompact segment => exact h.uncompact hstep

theorem Archive.Sound.run
    (h : Run (Archive.step sha256 sha256OfArchive) (Archive.Regular owner) .fresh labels archive) :
    archive.Sound owner :=
  h.invariant (sound_fresh owner) fun _ _ _ hsound hregular hstep => hsound.step hregular hstep

end

end Flowness.Snapshot
