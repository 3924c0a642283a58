import Flowness.Snapshot.SettledRecovery

/-!
An accepted move whose finalize tail stopped after any of its steps. Until then every record of the
segment is in the hot file or routed to the archive, and recovery redoes the tail from the archive.
-/

namespace Flowness.Snapshot

open List Option Library Schemas Ledger Disk
open Ledger.EventIndex (idsOf)

def segmentEvents (state : ArchiveState) (segment : Nat) : List EventRecord :=
  if state.cold.archives.contains segment then archivedRecords state segment
  else hotRecords state segment

def Archive.accept (sha256OfArchive : Bytes → String) (archive : Archive) :
    Archive.Action → Option (ArchiveState × AcceptedMove)
  | .compact segment warm bound reachable =>
    acceptCompaction sha256OfArchive archive.toArchiveState segment warm bound reachable
  | .moveToCold segment warm bound reachable =>
    acceptMove sha256OfArchive archive.toArchiveState segment warm bound reachable
  | .write _ _ | .rebuildIndex | .uncompact _ => none

def Archive.FindsWhole (archive : Archive) : Archive.Action → Prop
  | .compact segment warm _ _ | .moveToCold segment warm _ _ => ∀ content,
      archive.disk.read (.hot segment) = some content → Unbroken (segmentRecords content) ∧
        segmentRecordsBy warm archive.cold content = some (segmentRecords content)
  | .write _ _ | .rebuildIndex | .uncompact _ => True

/-- The files but for the staging copies, the routing index up to the order of its entries. -/
structure ArchiveState.Agrees (state other : ArchiveState) : Prop where
  disk : state.disk = other.disk
  archives : state.cold.archives = other.cold.archives
  routes : ∀ eventId, state.cold.index.get eventId = other.cold.index.get eventId
  index : state.index = other.index
  finalizeLog : state.finalizeLog = other.finalizeLog

/-- The index of a reader has the records of the hot file and, of the ids of the segment, only its
records. -/
structure Covers (warm : List EventRecord) (state : ArchiveState) (segment : Nat)
    (events : List EventRecord) : Prop where
  hot : hotRecords state segment ⊆ warm
  own : ∀ record ∈ warm, record.eventId.val ∈ idsOf events → record ∈ events

/-- How far a finalize tail has come: the archive is in place before the ids are routed, these
before the hot file changes, and this before the index does. -/
structure Torn (start : ArchiveState) (segment : Nat) (copy : Bytes) (routed : List String)
    (left : Disk) (pruned : IndexDir) (torn : ArchiveState) : Prop where
  cold : torn.cold = start.cold.stage segment copy ∨
    torn.cold = (start.cold.stage segment copy).renameStagingToCold segment ∨
    torn.cold = ((start.cold.stage segment copy).renameStagingToCold segment).updateIndex routed
      segment
  disk : torn.disk = start.disk ∨ torn.disk = left ∧
    torn.cold = ((start.cold.stage segment copy).renameStagingToCold segment).updateIndex routed
      segment
  index : torn.index = start.index ∨ torn.index = pruned ∧ torn.disk = left

section

variable {sha256 : Bytes → String} {start final : ArchiveState} {segment : Nat} {copy : Bytes}
  {move : ArchiveMove}

theorem torn_compaction {pinned movable : List EventRecord} (done : Nat)
    (hsegment : move.segment = segment)
    (h : runSteps sha256 { start with cold := start.cold.stage segment copy }
      (finalizeCompaction move pinned movable) = some final) :
    ∃ torn, runSteps sha256 { start with cold := start.cold.stage segment copy }
        ((finalizeCompaction move pinned movable).take done) = some torn ∧
      Torn start segment copy (idsOf movable)
        (start.disk.write (.hot segment) (recordLines pinned)) final.index torn ∧
      (torn = final ∨ torn.finalizeLog = start.finalizeLog) := by
  subst hsegment
  obtain ⟨pruned, hprune, rfl⟩ := runSteps_finalizeCompaction h
  match done with
  | 0 => exact ⟨_, rfl, ⟨.inl rfl, .inl rfl, .inl rfl⟩, .inr rfl⟩
  | 1 => exact ⟨_, rfl, ⟨.inr (.inl rfl), .inl rfl, .inl rfl⟩, .inr rfl⟩
  | 2 => exact ⟨_, rfl, ⟨.inr (.inr rfl), .inl rfl, .inl rfl⟩, .inr rfl⟩
  | 3 => exact ⟨_, rfl, ⟨.inr (.inr rfl), .inr ⟨rfl, rfl⟩, .inl rfl⟩, .inr rfl⟩
  | 4 =>
    refine ⟨_, bind_eq_some_iff.mpr ⟨_, map_eq_some_iff.mpr ⟨pruned, hprune, rfl⟩, rfl⟩,
      ⟨.inr (.inr rfl), .inr ⟨rfl, rfl⟩, .inr ⟨rfl, rfl⟩⟩, .inr rfl⟩
  | n + 5 =>
    have hall : (finalizeCompaction move pinned movable).take (n + 5) =
        finalizeCompaction move pinned movable := take_of_length_le (Nat.le_add_left 5 n)
    rw [hall, h]
    exact ⟨_, rfl, ⟨.inr (.inr rfl), .inr ⟨rfl, rfl⟩, .inr ⟨rfl, rfl⟩⟩, .inl rfl⟩

theorem torn_move (done : Nat) (hsegment : move.segment = segment)
    (h : runSteps sha256 { start with
      cold := start.cold.stage segment copy } (finalizeArchive move eventIds) = some final) :
    ∃ torn, runSteps sha256 { start with cold := start.cold.stage segment copy }
        ((finalizeArchive move eventIds).take done) = some torn ∧
      Torn start segment copy eventIds (start.disk.remove segment) final.index torn ∧
      (torn = final ∨ torn.finalizeLog = start.finalizeLog) := by
  subst hsegment
  cases h
  match done with
  | 0 => exact ⟨_, rfl, ⟨.inl rfl, .inl rfl, .inl rfl⟩, .inr rfl⟩
  | 1 => exact ⟨_, rfl, ⟨.inr (.inl rfl), .inl rfl, .inl rfl⟩, .inr rfl⟩
  | 2 => exact ⟨_, rfl, ⟨.inr (.inr rfl), .inl rfl, .inl rfl⟩, .inr rfl⟩
  | 3 => exact ⟨_, rfl, ⟨.inr (.inr rfl), .inr ⟨rfl, rfl⟩, .inl rfl⟩, .inr rfl⟩
  | n + 4 =>
    have hall : (finalizeArchive move eventIds).take (n + 4) = finalizeArchive move eventIds :=
      take_of_length_le (Nat.le_add_left 4 n)
    rw [hall]
    exact ⟨_, rfl, ⟨.inr (.inr rfl), .inr ⟨rfl, rfl⟩, .inl rfl⟩, .inl rfl⟩

end

/-- What the copy and the files have of a segment whose hot file holds `held`. -/
structure Gathered (owner : String → SegmentPath) (state : ArchiveState) (segment : Nat)
    (copy : Bytes) (held events : List EventRecord) : Prop where
  archive : ((state.cold.stage segment copy).renameStagingToCold segment).archives.get segment =
    some (recordLines events)
  nonempty : events ≠ []
  nodup : (idsOf events).Nodup
  unbroken : Unbroken events
  kept : held.Sublist events
  owned : ∀ record ∈ events, owner record.eventId.val = .hot segment
  moved : ∀ record ∈ events, record ∉ held → state.cold.archives.contains segment = true ∧
    state.cold.index.get record.eventId.val = some segment ∧ ∀ indexed,
      state.index.eventIds = some (eventIdLines indexed) → record.eventId.val ∉ idsOf indexed

section

variable {owner : String → SegmentPath} {state torn : ArchiveState} {segment : Nat}
  {content copy : Bytes} {events held : List EventRecord}

theorem ArchiveState.Sound.gathered (h : state.Sound owner)
    (hread : state.disk.read (.hot segment) = some content)
    (hunbroken : Unbroken (segmentRecords content)) (hnonempty : segmentRecords content ≠ [])
    (hcopy : prepareArchiveToCold content = some copy) :
    Gathered owner state segment copy (segmentRecords content) (segmentEvents state segment) := by
  have hget := ColdStore.get_archives_renameStagingToCold_stage h.unstaged segment copy segment
  rw [if_pos rfl] at hget
  have hhot : hotRecords state segment = segmentRecords content := by
    rw [hotRecords, hread, getD_some]
  unfold segmentEvents
  by_cases hcontains : state.cold.archives.contains segment = true
  · rw [if_pos hcontains]
    obtain ⟨hin, -, hheld, howned, hmoved⟩ := h.inArchive hcontains hread
    rw [hhot] at hheld hmoved
    obtain ⟨old, hold⟩ := isSome_iff_exists.mp hcontains
    obtain ⟨records, hshelved⟩ := h.archives segment old hold
    have hrecords : archivedRecords state segment = records := by
      rw [archivedRecords, hold, bind_some, hshelved.readable content hread, getD_some]
    rw [hrecords] at hin hheld howned hmoved ⊢
    refine ⟨?_, hin.nonempty, hin.nodup, hin.unbroken, hheld, howned,
      fun record hrecord hout => ⟨hcontains, hmoved record hrecord hout⟩⟩
    have hcopied := hshelved.copied
    rw [prepareArchiveToCold_unbroken hin.unbroken] at hcopied
    rw [hget, hold, getD_some, some.inj hcopied]
  · rw [if_neg hcontains, hhot]
    have howned := h.owned _ content hread
    have hnone : state.cold.archives.get segment = none := by
      simpa [Dict.contains] using hcontains
    refine ⟨?_, hnonempty, howned.nodup, hunbroken, List.Sublist.refl _, howned.owned,
      fun record hrecord hout => absurd hrecord hout⟩
    rw [h.whole _ content hread, prepareArchiveToCold_unbroken hunbroken] at hcopy
    rw [hget, hnone, getD_none, ← some.inj hcopy]

theorem getEvent_eq (hnodup : (idsOf events).Nodup) (hunbroken : Unbroken events)
    (hcovers : Covers warm state segment events) (hrecord : record ∈ events)
    (hplaced : record ∈ hotRecords state segment ∨ state.cold.index.get record.eventId.val =
      some segment ∧ state.cold.archives.get segment = some (recordLines events)) :
    getEvent warm state.cold record.eventId.val = some (some record) := by
  unfold getEvent
  cases hlast : (warm.filter fun other => other.eventId.val = record.eventId.val).getLast? with
  | some found =>
    obtain ⟨hmem, hid⟩ := List.mem_filter.mp (mem_of_getLast? hlast)
    have heq := of_decide_eq_true hid
    have hown := hcovers.own found hmem (heq ▸ mem_idsOf hrecord)
    rw [eq_of_eventId hnodup hown hrecord heq]
  | none =>
    have hout : record ∉ warm := by
      intro hmem
      have hnil := filter_eq_nil_iff.mp (List.getLast?_eq_none_iff.mp hlast) record hmem
      exact hnil (decide_eq_true rfl)
    obtain ⟨hroute, harchive⟩ := hplaced.resolve_left fun hhot => hout (hcovers.hot hhot)
    have hfind : events.find? (fun other => other.eventId.val = record.eventId.val) =
        some record := by
      have hsome : (events.find? fun other => other.eventId.val = record.eventId.val).isSome :=
        List.find?_isSome.mpr ⟨record, hrecord, decide_eq_true rfl⟩
      obtain ⟨found, hfound⟩ := isSome_iff_exists.mp hsome
      have hid : found.eventId.val = record.eventId.val := by simpa using List.find?_some hfound
      rw [hfound, eq_of_eventId hnodup (mem_of_find?_eq_some hfound) hrecord hid]
    exact (coldLookup_recordLines hunbroken hroute harchive).trans (congrArg some hfind)

theorem Gathered.placed (h : Gathered owner state segment copy held events)
    (hstaging : state.cold.staging = []) (hhot : hotRecords state segment = held)
    {routed : List String} {pruned : IndexDir}
    (htorn : Torn state segment copy routed left pruned torn)
    (hleft : ∀ record ∈ held, record ∉ segmentRecords ((left.read (.hot segment)).getD []) →
      record.eventId.val ∈ routed)
    (hrecord : record ∈ events) : record ∈ hotRecords torn segment ∨
      torn.cold.index.get record.eventId.val = some segment ∧
        torn.cold.archives.get segment = some (recordLines events) := by
  have harchive := h.archive
  have hindex := ColdStore.index_renameStagingToCold (state.cold.stage segment copy) segment
  by_cases hheld : record ∈ held
  · rcases htorn.disk with hdisk | ⟨hdisk, hcold⟩
    · left
      rw [hotRecords, hdisk]
      rw [hotRecords] at hhot
      rw [hhot]
      exact hheld
    · by_cases hstays : record ∈ segmentRecords ((left.read (.hot segment)).getD [])
      · left
        rw [hotRecords, hdisk]
        exact hstays
      · right
        rw [hcold, ColdStore.get_updateIndex, if_pos (hleft record hheld hstays)]
        exact ⟨rfl, harchive⟩
  · obtain ⟨hcontains, hroute, -⟩ := h.moved record hrecord hheld
    right
    rcases htorn.cold with hcold | hcold | hcold
    · have hget := ColdStore.get_archives_renameStagingToCold_stage hstaging segment copy segment
      obtain ⟨old, hold⟩ := isSome_iff_exists.mp hcontains
      rw [if_pos rfl, hold, harchive] at hget
      rw [hcold]
      exact ⟨hroute, hold.trans hget.symm⟩
    · rw [hcold, hindex]
      exact ⟨hroute, harchive⟩
    · rw [hcold, ColdStore.get_updateIndex, hindex]
      split
      · exact ⟨rfl, harchive⟩
      · exact ⟨hroute, harchive⟩

theorem ArchiveState.Stored.covers (h : state.Stored owner)
    (hlisted : (SegmentPath.hot segment).listed = true)
    (hsub : hotRecords state segment ⊆ events)
    (howned : ∀ record ∈ events, owner record.eventId.val = .hot segment) :
    ∃ scanned, iterCommittedRecords state.disk = .ok scanned ∧
      Covers scanned state segment events := by
  obtain ⟨scanned, hscan, hmem⟩ := h.scan
  have hhot : state.disk.recordsAt (.hot segment) = hotRecords state segment := if_pos hlisted
  refine ⟨scanned, hscan, fun record hrecord => ?_, fun record hrecord hid => ?_⟩
  · exact (hmem record).mpr (Disk.mem_physicalRecords.mpr ⟨_, hhot ▸ hrecord⟩)
  · obtain ⟨path, content, hread, hin, howner, -⟩ := h.mem_hot ((hmem record).mp hrecord)
    obtain ⟨other, hother, heq⟩ := List.mem_map.mp hid
    have hpath : path = .hot segment := by
      rw [← howner, ← howned other hother]
      exact congrArg owner heq.symm
    subst hpath
    apply hsub
    rw [hotRecords, hread]
    exact hin

end

theorem foldlM_concat {α β : Type} {f : β → α → Option β} {xs : List α} {x : α} {first next last : β}
    (h : xs.foldlM f first = some next) (hlast : f next x = some last) :
    (xs ++ [x]).foldlM f first = some last := by
  rw [foldlM_append, h]
  exact (congrArg (Option.bind · some) hlast).trans rfl

/-- What recovery finds besides the accepted move: completed moves, retained on other segments, and
on its own segment only compactions that pinned no less. -/
structure Interrupted (archive : Archive) (earlier : List ArchiveMove) (move : ArchiveMove) :
    Prop where
  found : earlier ⊆ archive.accepted
  unfinalized : move.key ∉ archive.finalizeLog
  others : ∀ other ∈ earlier, ∀ pinnedIds, other.pinnedIds = some pinnedIds →
    other.segment ≠ move.segment → Retained archive earlier other pinnedIds
  same : ∀ other ∈ earlier, ∀ pinnedIds, other.pinnedIds = some pinnedIds →
    other.segment = move.segment → ∃ kept, move.pinnedIds = some kept ∧ kept ⊆ pinnedIds

structure StoppedCompaction (sha256 : Bytes → String) (owner : String → SegmentPath)
    (archive : Archive) (segment : Nat) (copy : Bytes) (held events pinned movable : List EventRecord)
    (pruned : IndexDir) (torn : ArchiveState) : Prop where
  sound : archive.Sound owner
  gathered : Gathered owner archive.toArchiveState segment copy held events
  hot : archive.disk.read (.hot segment) = some (recordLines held)
  pins : pinned.Sublist held
  moves : ∀ record, record ∈ movable ↔ record ∈ held ∧ record ∉ pinned
  prunes : ∃ count, pruneEventIds sha256 archive.index (idsOf movable) = some (pruned, count)
  stopped : Torn archive.toArchiveState segment copy (idsOf movable)
    (archive.disk.write (.hot segment) (recordLines pinned)) pruned torn
  unfinalized : torn.finalizeLog = archive.finalizeLog

namespace StoppedCompaction

variable {sha256 : Bytes → String} {owner : String → SegmentPath} {archive : Archive}
  {segment : Nat} {copy : Bytes} {held events pinned movable : List EventRecord}
  {pruned : IndexDir} {torn : ArchiveState}

section

variable (h : StoppedCompaction sha256 owner archive segment copy held events pinned movable pruned
  torn)

include h

theorem mem_open : eventId ∈ idsOf (movableOf events (idsOf pinned)) ↔
    ∃ record ∈ events, record ∉ pinned ∧ record.eventId.val = eventId := by
  constructor
  · intro hid
    obtain ⟨record, hrecord, rfl⟩ := List.mem_map.mp hid
    obtain ⟨hmem, hout⟩ := List.mem_filter.mp hrecord
    exact ⟨record, hmem, fun hpinned => of_decide_eq_true hout (mem_idsOf hpinned), rfl⟩
  · rintro ⟨record, hmem, hout, rfl⟩
    refine mem_idsOf (List.mem_filter.mpr ⟨hmem, decide_eq_true fun hid => ?_⟩)
    obtain ⟨other, hother, heq⟩ := List.mem_map.mp hid
    have hsub := h.pins.trans h.gathered.kept
    rw [eq_of_eventId h.gathered.nodup (hsub.subset hother) hmem heq] at hother
    exact hout hother

theorem movable_open : idsOf movable ⊆ idsOf (movableOf events (idsOf pinned)) := by
  intro eventId hid
  obtain ⟨record, hrecord, rfl⟩ := List.mem_map.mp hid
  obtain ⟨hheld, hout⟩ := (h.moves record).mp hrecord
  exact h.mem_open.mpr ⟨record, h.gathered.kept.subset hheld, hout, rfl⟩

theorem get_index (eventId : String) :
    torn.cold.index.get eventId = archive.cold.index.get eventId ∨
      eventId ∈ idsOf movable ∧ torn.cold.index.get eventId = some segment := by
  have hindex := ColdStore.index_renameStagingToCold (archive.cold.stage segment copy) segment
  rcases h.stopped.cold with hcold | hcold | hcold
  · exact .inl (by rw [hcold]; rfl)
  · left
    rw [hcold, hindex]
    rfl
  · rw [hcold, ColdStore.get_updateIndex, hindex]
    split
    next hmem =>
      exact .inr ⟨hmem, rfl⟩
    · exact .inl rfl

theorem get_archives (hother : other ≠ segment) :
    torn.cold.archives.get other = archive.cold.archives.get other := by
  have hget := ColdStore.get_archives_renameStagingToCold_stage h.sound.files.unstaged segment copy
    other
  rw [if_neg hother] at hget
  rcases h.stopped.cold with hcold | hcold | hcold
  · rw [hcold]
    rfl
  · rw [hcold, hget]
  · rw [hcold]
    exact hget

theorem archive_self (hcontains : archive.cold.archives.contains segment = true) :
    torn.cold.archives.get segment = some (recordLines events) := by
  have hget := ColdStore.get_archives_renameStagingToCold_stage h.sound.files.unstaged segment copy
    segment
  obtain ⟨old, hold⟩ := isSome_iff_exists.mp hcontains
  have harchive := h.gathered.archive
  rw [if_pos rfl, hold, harchive] at hget
  rcases h.stopped.cold with hcold | hcold | hcold
  · rw [hcold]
    exact hold.trans hget.symm
  · rw [hcold, harchive]
  · rw [hcold]
    exact harchive

theorem readable : Readable archive.index := by
  obtain ⟨count, hprune⟩ := h.prunes
  exact readable_of_prune h.sound.persisted hprune

theorem index_cases : torn.index = archive.index ∨ torn.index = pruned :=
  h.stopped.index.imp id And.left

theorem persisted_torn : Persisted torn.index := by
  obtain ⟨count, hprune⟩ := h.prunes
  rcases h.index_cases with heq | heq
  · rw [heq]
    exact h.sound.persisted
  · rw [heq]
    exact h.sound.persisted.prune hprune

theorem readable_torn : Readable torn.index := by
  obtain ⟨count, hprune⟩ := h.prunes
  rcases h.index_cases with heq | heq
  · rw [heq]
    exact h.readable
  · rw [heq]
    exact h.readable.prune h.sound.persisted hprune

theorem indexed_torn (hindexed : torn.index.eventIds = some (eventIdLines indexed)) :
    ∃ records, archive.index.eventIds = some (eventIdLines records) ∧ indexed ⊆ records := by
  obtain ⟨count, hprune⟩ := h.prunes
  rcases h.index_cases with heq | heq
  · rw [heq] at hindexed
    exact ⟨indexed, hindexed, fun _ => id⟩
  · rw [heq] at hindexed
    rcases h.sound.persisted with hnone | ⟨records, hdir⟩
    · rw [pruneEventIds, hnone] at hprune
      rw [← (Prod.mk.inj (some.inj hprune)).1, hnone] at hindexed
      contradiction
    · refine ⟨records, hdir, ?_⟩
      rw [pruneEventIds_eq hdir hprune] at hindexed
      rw [← eventIdLines_injective (some.inj hindexed)]
      exact fun _ hr => mem_of_mem_filter hr

theorem read_other (hpath : path ≠ .hot segment) :
    torn.disk.read path = archive.disk.read path := by
  rcases h.stopped.disk with hdisk | ⟨hdisk, -⟩
  · rw [hdisk]
  · rw [hdisk, read_write_of_ne _ _ hpath]

theorem read_self : torn.disk.read (.hot segment) =
      some (recordLines (hotRecords torn segment)) ∧ (hotRecords torn segment).Sublist events := by
  have hself := read_write_self archive.disk (.hot segment) (recordLines pinned)
  have hcases : ∃ records, torn.disk.read (.hot segment) = some (recordLines records) ∧
      records.Sublist held := by
    rcases h.stopped.disk with hdisk | ⟨hdisk, -⟩
    · exact ⟨held, by rw [hdisk, h.hot], List.Sublist.refl _⟩
    · exact ⟨pinned, by rw [hdisk, hself], h.pins⟩
  obtain ⟨records, hread, hsub⟩ := hcases
  have hhot : hotRecords torn segment = records := by
    rw [hotRecords, hread, getD_some, segmentRecords_recordLines]
  rw [hhot]
  exact ⟨hread, hsub.trans h.gathered.kept⟩

theorem revisited_other (hretained : Retained archive earlier other pinnedIds)
    (hmove : other ∈ archive.accepted) (hother : other.segment ≠ segment) :
    Revisited torn (some segment)
      (idsOf (movableOf events (idsOf pinned))) other pinnedIds ∧
      hotRecords torn other.segment = hotRecords archive.toArchiveState other.segment := by
  obtain ⟨hrev, -⟩ := hretained.revisited h.sound hmove
  have hshut : (none : Option Nat) ≠ some other.segment := by simp
  have hread : torn.disk.read (.hot other.segment) = archive.disk.read (.hot other.segment) :=
    h.read_other fun heq => hother (SegmentPath.hot.inj heq)
  have hhot : hotRecords torn other.segment =
      hotRecords archive.toArchiveState other.segment := by
    rw [hotRecords, hread]
    rfl
  have harchived : archivedRecords torn other.segment =
      archivedRecords archive.toArchiveState other.segment := by
    rw [archivedRecords, h.get_archives hother]
    rfl
  have hapart : ∀ record ∈ archivedRecords archive.toArchiveState other.segment,
      record.eventId.val ∉ idsOf (movableOf events (idsOf pinned)) := by
    intro record hrecord hid
    obtain ⟨own, hown, -, heq⟩ := h.mem_open.mp hid
    obtain ⟨copied, hcopied, -⟩ := hrev.archived.archive
    obtain ⟨-, -, -, howned, -⟩ := h.sound.files.inArchive (isSome_of_eq_some hcopied) hrev.hot
    have howner := howned record hrecord
    rw [← heq, h.gathered.owned own hown] at howner
    exact hother (SegmentPath.hot.inj howner).symm
  obtain ⟨copied, hcopied, hrecords⟩ := hrev.archived.archive
  refine ⟨⟨?_, ⟨⟨copied, ?_, ?_⟩, ?_, ?_, ?_⟩, ?_, ?_, ?_, ?_, ?_, ?_, ?_⟩, hhot⟩
  · rw [h.unfinalized]
    exact hrev.finalized
  · rw [h.get_archives hother, hcopied]
  · rw [harchived, hrecords]
  · rw [harchived]
    exact hrev.archived.nonempty
  · rw [harchived]
    exact hrev.archived.nodup
  · rw [harchived]
    exact hrev.archived.unbroken
  · rw [hread, hhot, hrev.hot]
  · rw [hhot, harchived]
    exact hrev.held
  · exact fun heq => absurd (some.inj heq).symm hother
  · rw [hhot]
    exact fun _ => hrev.retained hshut
  · rw [hhot]
    exact fun _ => (hrev.ready hshut).imp id fun _ => h.readable_torn
  · rw [hhot, harchived]
    intro _ record hrecord hout
    obtain ⟨hroute, habsent⟩ := hrev.settled hshut record hrecord hout
    constructor
    · rcases h.get_index record.eventId.val with heq | ⟨hmem, -⟩
      · rw [heq, hroute]
      · exact absurd (h.movable_open hmem) (hapart record hrecord)
    · intro indexed hindexed hmem
      obtain ⟨records, hdir, hsub⟩ := h.indexed_torn hindexed
      exact habsent records hdir (map_subset _ hsub hmem)
  · rw [harchived]
    exact fun _ => hapart

theorem revisited_self (hmove : other ∈ archive.accepted) (hsegment : other.segment = segment)
    (hsub : idsOf pinned ⊆ pinnedIds) : Revisited torn (some segment)
      (idsOf (movableOf events (idsOf pinned))) other pinnedIds := by
  subst hsegment
  have harchive := h.archive_self (h.sound.archived other hmove)
  have hrecords := archiveRecords_recordLines h.gathered.unbroken
  have harchived : archivedRecords torn other.segment = events := by
    rw [archivedRecords, harchive, bind_some, hrecords, getD_some]
  obtain ⟨hread, hheld⟩ := h.read_self
  have hshut : ∀ {p : Prop}, some other.segment ≠ some other.segment → p := fun hne =>
    absurd rfl hne
  rw [← harchived] at hheld
  refine ⟨?_, ⟨⟨_, harchive, by rw [harchived, hrecords]⟩, ?_, ?_, ?_⟩, hread, hheld,
    fun _ => ⟨?_, h.readable_torn⟩, hshut, hshut, hshut, hshut⟩
  · rw [h.unfinalized]
    exact h.sound.finalized other hmove
  · rw [harchived]
    exact h.gathered.nonempty
  · rw [harchived]
    exact h.gathered.nodup
  · rw [harchived]
    exact h.gathered.unbroken
  · rw [harchived]
    intro eventId hid
    obtain ⟨record, hrecord, rfl⟩ := List.mem_map.mp hid
    obtain ⟨hmem, hout⟩ := List.mem_filter.mp hrecord
    exact h.mem_open.mpr ⟨record, hmem, fun hpinned =>
      of_decide_eq_true hout (hsub (mem_idsOf hpinned)), rfl⟩

theorem redone {move : ArchiveMove} (hsegment : move.segment = segment)
    (hpinned : move.pinnedIds = some (idsOf pinned)) (hview : Interrupted archive earlier move) :
    ∃ next, earlier.foldlM (recoverCompaction sha256) torn = some next ∧
      Redone sha256 torn (some segment) (idsOf (movableOf events (idsOf pinned))) [] next := by
  have hrevisited : ∀ other ∈ earlier, ∀ ids, other.pinnedIds = some ids →
      Revisited torn (some segment) (idsOf (movableOf events (idsOf pinned))) other ids := by
    intro other hmem ids hids
    by_cases hother : other.segment = segment
    · obtain ⟨kept, hkept, hsub⟩ := hview.same other hmem ids hids (hother.trans hsegment.symm)
      rw [some.inj (hkept.symm.trans hpinned)] at hsub
      exact h.revisited_self (hview.found hmem) hother hsub
    · have hretained := hview.others other hmem ids hids fun heq => hother (heq.trans hsegment)
      exact (h.revisited_other hretained (hview.found hmem) hother).1
  have hstart : Redone sha256 torn (some segment) (idsOf (movableOf events (idsOf pinned))) earlier
      torn := by
    refine ⟨rfl, rfl, rfl, fun _ _ => rfl, fun _ => rfl, .inl rfl, fun _ _ _ => rfl, ?_⟩
    intro other hmem hsome
    obtain ⟨ids, hids⟩ := isSome_iff_exists.mp hsome
    have hrev := hrevisited other hmem ids hids
    exact ⟨_, hrev.hot, hrev.held, .inl rfl⟩
  refine hstart.loop h.persisted_torn hrevisited ?_
  intro front other back ids hsplit hids hshut hlater
  have hmem : other ∈ earlier := by
    rw [hsplit]
    simp
  have hother : other.segment ≠ segment := fun heq => hshut (by rw [heq])
  have hretained := hview.others other hmem ids hids fun heq => hother (heq.trans hsegment)
  obtain ⟨-, hlast⟩ := hretained.revisited h.sound (hview.found hmem)
  rw [(h.revisited_other hretained (hview.found hmem) hother).2]
  rw [lastPinned_of_split hsplit hids hlater] at hlast
  rw [some.inj hlast]
  exact fun _ => id

theorem archives_renamed {next : ArchiveState}
    (hdone : Redone sha256 torn (some segment) opened [] next) :
    (renameIfMissing next segment).cold.archives =
      ((archive.cold.stage segment copy).renameStagingToCold segment).archives := by
  have hstage := ColdStore.renameStagingToCold_stage h.sound.files.unstaged segment copy
  have hsome : ∀ store : ColdStore,
      store.archives = ((archive.cold.stage segment copy).renameStagingToCold segment).archives →
        store.archives.contains segment = true := by
    intro store heq
    unfold Dict.contains
    rw [heq, h.gathered.archive]
    rfl
  unfold renameIfMissing
  rcases h.stopped.cold with hcold | hcold | hcold
  · have harchives : next.cold.archives = archive.cold.archives := by
      rw [hdone.archives, hcold]
      rfl
    split
    next hcontains =>
      rw [harchives] at hcontains
      rw [hstage, if_pos hcontains, harchives]
    · apply ColdStore.archives_renameStagingToCold_congr
      · rw [harchives]
        rfl
      · rw [hdone.staging, hcold]
  · have harchives : next.cold.archives =
        ((archive.cold.stage segment copy).renameStagingToCold segment).archives := by
      rw [hdone.archives, hcold]
    rw [if_pos (hsome _ harchives), harchives]
  · have harchives : next.cold.archives =
        ((archive.cold.stage segment copy).renameStagingToCold segment).archives := by
      rw [hdone.archives, hcold]
      rfl
    rw [if_pos (hsome _ harchives), harchives]

theorem pruned_index {next : ArchiveState}
    (hdone : Redone sha256 torn (some segment) (idsOf (movableOf events (idsOf pinned))) [] next) :
    ∃ count, pruneEventIds sha256 next.index (idsOf (movableOf events (idsOf pinned))) =
      some (pruned, count) := by
  obtain ⟨count, hprune⟩ := h.prunes
  obtain ⟨removed, n, hremoved, hnext⟩ : ∃ removed n,
      removed ⊆ idsOf (movableOf events (idsOf pinned)) ∧
        (next.index = archive.index ∨
          pruneEventIds sha256 archive.index removed = some (next.index, n)) := by
    rcases h.index_cases with hindex | hindex
    · rcases hdone.index with heq | ⟨removed, n, hsub, -, hpruned⟩
      · exact ⟨[], 0, nil_subset _, .inl (heq.trans hindex)⟩
      · rw [hindex] at hpruned
        exact ⟨removed, n, hsub, .inr hpruned⟩
    · rcases hdone.index with heq | ⟨removed, n, hsub, -, hpruned⟩
      · rw [hindex] at heq
        exact ⟨_, count, h.movable_open, .inr (by rw [heq]; exact hprune)⟩
      · rw [hindex] at hpruned
        obtain ⟨total, htotal⟩ := prune_append h.sound.persisted hprune hpruned
        exact ⟨_, total, append_subset.mpr ⟨h.movable_open, hsub⟩, .inr htotal⟩
  have hreadable : Readable next.index := by
    rcases hnext with heq | hpruned
    · rw [heq]
      exact h.readable
    · exact h.readable.prune h.sound.persisted hpruned
  obtain ⟨⟨left, m⟩, hleft⟩ :=
    hreadable.prune_total sha256 (idsOf (movableOf events (idsOf pinned)))
  -- Both prunes take the same records: an open id that is not moved now left the index before.
  have hsame : ∀ all : List String, idsOf (movableOf events (idsOf pinned)) ⊆ all →
      all ⊆ idsOf (movableOf events (idsOf pinned)) → ∀ k,
        pruneEventIds sha256 archive.index all = some (left, k) → left = pruned := by
    intro all hopen hall k hk
    have hcongr : pruneEventIds sha256 archive.index (idsOf movable) = some (left, k) := by
      refine prune_congr h.sound.persisted (fun records hdir record hrecord =>
        ⟨fun hid => ?_, fun hid => hopen (h.movable_open hid)⟩) hk
      obtain ⟨own, hown, hout, heq⟩ := h.mem_open.mp (hall hid)
      by_cases hheld : own ∈ held
      · rw [← heq]
        exact mem_idsOf ((h.moves own).mpr ⟨hheld, hout⟩)
      · obtain ⟨-, -, habsent⟩ := h.gathered.moved own hown hheld
        have hno := habsent records hdir
        rw [heq] at hno
        exact absurd (mem_idsOf hrecord) hno
    exact (Prod.mk.inj (some.inj (hcongr.symm.trans hprune))).1
  rcases hnext with heq | hpruned
  · rw [heq] at hleft
    have hleftPruned := hsame _ (fun _ => id) (fun _ => id) m hleft
    exact ⟨m, by rw [heq, hleft, hleftPruned]⟩
  · obtain ⟨total, htotal⟩ := prune_append h.sound.persisted hpruned hleft
    have hleftPruned := hsame _ (subset_append_right _ _)
      (append_subset.mpr ⟨hremoved, fun _ => id⟩) total htotal
    exact ⟨m, by rw [hleft, hleftPruned]⟩

theorem recovered {earlier : List ArchiveMove} {move : ArchiveMove}
    (hsegment : move.segment = segment) (hpinned : move.pinnedIds = some (idsOf pinned))
    (hview : Interrupted archive earlier move) :
    ∃ recovered, recoverCompactionAfterCrash sha256 torn (earlier ++ [move]) = some recovered ∧
      recovered.Agrees
        { disk := archive.disk.write (.hot segment) (recordLines pinned)
          cold := ((archive.cold.stage segment copy).renameStagingToCold segment).updateIndex
            (idsOf movable) segment
          index := pruned
          finalizeLog := recordFinalizeCompleted archive.finalizeLog move.key } := by
  obtain ⟨next, hnext, hdone⟩ := h.redone hsegment hpinned hview
  subst hsegment
  obtain ⟨count, hprune⟩ := h.pruned_index hdone
  have harchives := h.archives_renamed hdone
  have hlog : next.finalizeLog = archive.finalizeLog := hdone.finalizeLog.trans h.unfinalized
  have hcompacted : isCompacted next move (idsOf pinned) = some false := by
    unfold isCompacted ArchiveState.isFinalizeCompleted
    rw [hlog, if_neg (by simpa using hview.unfinalized)]
  have hin : InArchive (renameIfMissing next move.segment) move.segment events := by
    refine ⟨⟨_, ?_, archiveRecords_recordLines h.gathered.unbroken⟩, h.gathered.nonempty,
      h.gathered.nodup, h.gathered.unbroken⟩
    rw [harchives, h.gathered.archive]
  have hredo := hin.redo hpinned hcompacted hprune
  refine ⟨_, foldlM_concat hnext hredo, ?_, ?_, fun eventId => ?_, rfl, ?_⟩
  · have hthin : pinnedOf events (idsOf pinned) = pinned :=
      filter_mem_idsOf h.gathered.nodup (h.pins.trans h.gathered.kept)
    refine ext_of_read fun path => ?_
    dsimp only
    rw [hthin]
    by_cases hpath : path = .hot move.segment
    · rw [hpath, read_write_self, read_write_self]
    · rw [read_write_of_ne _ _ hpath, read_write_of_ne _ _ hpath, ← h.read_other hpath]
      exact hdone.files path (by simp) fun segment heq => some.inj heq ▸ hpath
  · exact harchives
  · have hindex : (renameIfMissing next move.segment).cold.index = next.cold.index := by
      unfold renameIfMissing
      split
      · rfl
      · exact ColdStore.index_renameStagingToCold _ _
    dsimp only
    rw [ColdStore.get_updateIndex, ColdStore.get_updateIndex, hindex,
      ColdStore.index_renameStagingToCold]
    by_cases hopen : eventId ∈ idsOf (movableOf events (idsOf pinned))
    · rw [if_pos hopen]
      split
      · rfl
      next hout =>
        obtain ⟨record, hrecord, hunpinned, rfl⟩ := h.mem_open.mp hopen
        have hheld : record ∉ held := fun hheld =>
          hout (mem_idsOf ((h.moves record).mpr ⟨hheld, hunpinned⟩))
        exact (h.gathered.moved record hrecord hheld).2.1.symm
    · have hout : eventId ∉ idsOf movable := fun hmem => hopen (h.movable_open hmem)
      rw [if_neg hopen, if_neg hout, hdone.routes eventId hopen]
      exact (h.get_index eventId).resolve_right fun hmem => hout hmem.1
  · dsimp only
    rw [hlog]

end

end StoppedCompaction

section

variable {sha256 : Bytes → String} {owner : String → SegmentPath} {archive : Archive}
  {segment : Nat} {copy : Bytes} {held events : List EventRecord} {torn : ArchiveState}

theorem eventIdsInJsonlText_recordLines (h : Unbroken records) :
    (decodeText (recordLines records)).map eventIdsInJsonlText = some (idsOf records) := by
  rw [decodeText_recordLines, map_some, eventIdsInJsonlText, nonEmptyLines_dump,
    flatMap_recordPieces h]
  congr 1
  clear h
  induction records with
  | nil => rfl
  | cons record records ih =>
    have hid : (record.toJson.get "event_id").bind Json.text? = some record.eventId.val := rfl
    rw [map_cons, filterMap_cons, EventRecord.parse_dumpJson, bind_some, hid, ih]
    rfl

theorem recoverMove_stopped (hsound : archive.Sound owner)
    (hgathered : Gathered owner archive.toArchiveState segment copy held events)
    (hhot : archive.disk.read (.hot segment) = some (recordLines held)) {move : ArchiveMove}
    (hsegment : move.segment = segment) (hpinned : move.pinnedIds = none)
    (hnew : move.key ∉ archive.finalizeLog)
    (htorn : Torn archive.toArchiveState segment copy (idsOf held) (archive.disk.remove segment)
      archive.index torn) (hlog : torn.finalizeLog = archive.finalizeLog) :
    recoverMove sha256 torn move = some
      { disk := archive.disk.remove segment
        cold := ((archive.cold.stage segment copy).renameStagingToCold segment).updateIndex
          (idsOf held) segment
        index := archive.index
        finalizeLog := recordFinalizeCompleted archive.finalizeLog move.key } := by
  subst hsegment
  have hstaging := ColdStore.staging_renameStagingToCold_stage hsound.files.unstaged move.segment copy
  have hrenamed : ∀ store : ColdStore, store.staging = [] →
      store.renameStagingToCold move.segment = store := by
    intro store hnil
    unfold ColdStore.renameStagingToCold
    rw [hnil]
    rfl
  have hpresent : (torn.cold.staging.contains move.segment ||
      torn.cold.archives.contains move.segment) = true := by
    have harchive : ((archive.cold.stage move.segment copy).renameStagingToCold
        move.segment).archives.contains move.segment = true := isSome_of_eq_some hgathered.archive
    rcases htorn.cold with hcold | hcold | hcold
    · have hcopy : (Dict.set archive.cold.staging move.segment copy).contains move.segment = true :=
        isSome_of_eq_some (Dict.get_set_self _ _ _)
      rw [hcold]
      exact Bool.or_eq_true_iff.mpr (.inl hcopy)
    · rw [hcold, harchive, Bool.or_true]
    · rw [hcold]
      exact Bool.or_eq_true_iff.mpr (.inr harchive)
  have hindex : torn.index = archive.index := htorn.index.elim id And.left
  obtain ⟨eventIds, heventIds, hcold⟩ : ∃ eventIds,
      archivedEventIds torn move.segment = some eventIds ∧
        (torn.cold.renameStagingToCold move.segment).updateIndex eventIds move.segment =
          ((archive.cold.stage move.segment copy).renameStagingToCold move.segment).updateIndex
            (idsOf held) move.segment := by
    have hheld := hgathered.unbroken.sublist hgathered.kept
    have hrouted : (torn.cold = ((archive.cold.stage move.segment copy).renameStagingToCold
        move.segment).updateIndex (idsOf held) move.segment) → ∀ ids,
          (∀ eventId ∈ ids, torn.cold.index.get eventId = some move.segment) →
            (torn.cold.renameStagingToCold move.segment).updateIndex ids move.segment =
              ((archive.cold.stage move.segment copy).renameStagingToCold move.segment).updateIndex
                (idsOf held) move.segment := by
      intro hcold ids hids
      have hnil : torn.cold.staging = [] := by
        rw [hcold]
        exact hstaging
      rw [hrenamed _ hnil, ColdStore.updateIndex_of_routed hids, hcold]
    rcases htorn.disk with hdisk | ⟨hdisk, hcold⟩
    · refine ⟨idsOf held, ?_, ?_⟩
      · unfold archivedEventIds
        rw [hdisk, hhot]
        exact eventIdsInJsonlText_recordLines hheld
      · rcases htorn.cold with hcold | hcold | hcold
        · rw [hcold]
        · rw [hcold, hrenamed _ hstaging]
        · refine hrouted hcold _ fun eventId hid => ?_
          rw [hcold, ColdStore.get_updateIndex, if_pos hid]
    · refine ⟨idsOf events, ?_, hrouted hcold _ fun eventId hid => ?_⟩
      · unfold archivedEventIds
        rw [hdisk, read_remove_self, hcold]
        have harchive := hgathered.archive
        have hget : (((archive.cold.stage move.segment copy).renameStagingToCold
            move.segment).updateIndex (idsOf held) move.segment).archives.get move.segment =
              some (recordLines events) := harchive
        simp only [hget]
        exact eventIdsInJsonlText_recordLines hgathered.unbroken
      · rw [hcold, ColdStore.get_updateIndex, ColdStore.index_renameStagingToCold]
        split
        · rfl
        next hout =>
          obtain ⟨record, hrecord, rfl⟩ := List.mem_map.mp hid
          exact (hgathered.moved record hrecord fun hmem => hout (mem_idsOf hmem)).2.1
  have hdisk : torn.disk.remove move.segment = archive.disk.remove move.segment := by
    rcases htorn.disk with hdisk | ⟨hdisk, -⟩
    · rw [hdisk]
    · refine ext_of_read fun path => ?_
      rw [hdisk]
      by_cases hpath : path = .hot move.segment
      · rw [hpath, read_remove_self, read_remove_self]
      · rw [read_remove_of_ne _ hpath]
  unfold recoverMove
  rw [if_neg, if_pos hpresent, heventIds, bind_some, runSteps_finalizeArchive, hdisk, hcold,
    hindex, hlog]
  unfold ArchiveState.isFinalizeCompleted
  rw [hpinned, hlog]
  simpa using hnew

end

end Flowness.Snapshot
