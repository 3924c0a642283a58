import Flowness.Ledger.IndexStore
import Flowness.Snapshot.ColdStorage

/-!
What archiving keeps of a segment. Record lines end at newlines only; `str.splitlines` also breaks
at characters that the JSON of a record may hold as they are.
-/

namespace Flowness.Snapshot

open Option Library Schemas Ledger EventRecord

/-- `original_event_count` of a prepared archive. -/
def originalEventCount (content : Bytes) : Option Nat :=
  (decodeText content).map fun text => (nonEmptyLines text).length

/-- The records that `prune_event_ids` reads in `event_id.idx`; it fails on a line that is none. -/
def indexedRecords (content : Bytes) : Option (List EventRecord) :=
  (decodeText content).bind fun text => (nonEmptyLines text).mapM EventRecord.validateJson

/-- `prune_event_ids`: the index left behind and how many records went. -/
def pruneEventIds (sha256 : Bytes → String) (dir : IndexDir) (removed : List String) :
    Option (IndexDir × Nat) :=
  match dir.eventIds with
  | none => some (dir, 0)
  | some content =>
    (indexedRecords content).map fun records =>
      let survivors := records.filter (fun record => record.eventId.val ∉ removed)
      if survivors.length = records.length then (dir, 0)
      else (persist sha256 dir survivors, records.length - survivors.length)

/-- The characters that break a record line under `str.splitlines`. -/
def isNonAsciiBreak (c : Char) : Bool :=
  c.toNat == 0x85 || c.toNat == 0x2028 || c.toNat == 0x2029

/-- Archiving keeps the lines of a segment, and every reader finds its records again. -/
structure Verbatim (records : List EventRecord) : Prop where
  archive : ∃ archive, prepareArchiveToCold (recordLines records) = some archive ∧
    splitNewlines archive = splitNewlines (recordLines records)
  count : originalEventCount (recordLines records) = some records.length
  segment : ∀ warm store,
    (∀ record ∈ records, getEvent warm store record.eventId.val = some (some record)) →
      segmentRecordsBy warm store (recordLines records) = some records
  pruned : ∀ sha256 dir removed, dir.eventIds = some (eventIdLines records) →
    ∃ left count, pruneEventIds sha256 dir removed = some (left, count) ∧ left.eventIds =
      some (eventIdLines (records.filter fun record => record.eventId.val ∉ removed))

theorem isTextBreak_dumpJson {record : EventRecord} (hc : c ∈ record.dumpJson) :
    isTextBreak c = isNonAsciiBreak c := by
  have hprintable : 32 ≤ c.toNat := printable_dumpJson record c hc
  have hne : ∀ d : Char, d.toNat < 32 → (c == d) = false := by
    intro d hd
    rw [beq_eq_false_iff_ne]
    rintro rfl
    omega
  have hcode : ∀ n : Nat, n < 32 → (c.toNat == n) = false := by
    intro n hn
    rw [beq_eq_false_iff_ne]
    omega
  unfold isTextBreak
  rw [hne _ (by decide), hne _ (by decide), hcode _ (by decide), hcode _ (by decide),
    hcode _ (by decide), hcode _ (by decide), hcode _ (by decide)]
  rfl

private theorem nonEmptyLines_append_newline (left right : Text) :
    nonEmptyLines (left ++ '\n' :: right) = nonEmptyLines left ++ nonEmptyLines right := by
  unfold nonEmptyLines
  rw [List.splitOnP_append_cons _ _ (by decide), List.filter_append]

private theorem nonEmptyLines_joined (records : List EventRecord) :
    nonEmptyLines (['\n'].intercalate (records.map EventRecord.dumpJson)) =
      records.flatMap recordPieces := by
  induction records with
  | nil => rfl
  | cons record records ih =>
    cases records with
    | nil =>
      rw [List.map_singleton, List.intercalate_singleton, List.flatMap_singleton]
      rfl
    | cons next rest =>
      rw [List.map_cons, List.intercalate_cons_of_ne_nil (by simp), List.append_assoc,
        List.singleton_append, nonEmptyLines_append_newline, ih, List.flatMap_cons]
      rfl

theorem indexedRecords_eventIdLines {records : List EventRecord} (h : Unbroken records) :
    indexedRecords (eventIdLines records) = some records := by
  rw [indexedRecords, eventIdLines, decodeText_encodeText, bind_some, nonEmptyLines_joined,
    flatMap_recordPieces h, mapM_validateJson_dumpJson]

section

variable {records out : List EventRecord} (h : indexedRecords (eventIdLines records) = some out)
include h

theorem indexedRecords_eq_unbroken : out = records ∧ Unbroken records := by
  rw [indexedRecords, eventIdLines, decodeText_encodeText, bind_some,
    nonEmptyLines_joined] at h
  induction records generalizing out with
  | nil => exact ⟨(some.inj h).symm, by simp [Unbroken]⟩
  | cons record records ih =>
    obtain ⟨front, back, hfront, hback, rfl⟩ := mapM_append_some h
    obtain ⟨rfl, hunbroken⟩ := ih hback
    by_cases hbroken : ∀ c ∈ record.dumpJson, isTextBreak c = false
    · rw [recordPieces_unbroken hbroken, List.mapM_cons, validateJson_dumpJson] at hfront
      rw [← some.inj hfront]
      exact ⟨rfl, List.forall_mem_cons.mpr ⟨hbroken, hunbroken⟩⟩
    · obtain ⟨line, rest, hpieces, -, -, hnone⟩ := recordPieces_broken hbroken
      rw [hpieces, List.mapM_cons, hnone] at hfront
      contradiction

theorem indexedRecords_eq : out = records :=
  (indexedRecords_eq_unbroken h).1

end

section

variable {records : List EventRecord}

theorem pruneEventIds_eq (hdir : dir.eventIds = some (eventIdLines records))
    (h : pruneEventIds sha256 dir removed = some (left, count)) : left.eventIds =
      some (eventIdLines (records.filter fun record => record.eventId.val ∉ removed)) := by
  simp only [pruneEventIds, hdir] at h
  obtain ⟨out, hout, hpruned⟩ := map_eq_some_iff.mp h
  rw [indexedRecords_eq hout] at hpruned
  split at hpruned
  next hsame =>
    have hkeep := List.filter_eq_self.mpr (List.length_filter_eq_length_iff.mp hsame)
    obtain ⟨rfl, -⟩ := Prod.mk.inj hpruned
    rw [hdir, hkeep]
  · obtain ⟨rfl, -⟩ := Prod.mk.inj hpruned
    rfl

theorem pruneEventIds_eventIdLines (h : Unbroken records) (sha256 : Bytes → String)
    (removed : List String) (hdir : dir.eventIds = some (eventIdLines records)) :
    ∃ left count, pruneEventIds sha256 dir removed = some (left, count) ∧ left.eventIds =
      some (eventIdLines (records.filter fun record => record.eventId.val ∉ removed)) := by
  simp only [pruneEventIds, hdir, indexedRecords_eventIdLines h, map_some]
  split
  next hsame =>
    have hkeep := List.filter_eq_self.mpr (List.length_filter_eq_length_iff.mp hsame)
    exact ⟨dir, 0, rfl, by rw [hdir, hkeep]⟩
  · exact ⟨_, _, rfl, rfl⟩

theorem Verbatim.of_unbroken (h : Unbroken records) : Verbatim records where
  archive := by
    refine ⟨recordLines records, ?_, rfl⟩
    rw [prepareArchiveToCold_recordLines, flatMap_recordPieces h]
    rfl
  count := by
    rw [originalEventCount, decodeText_recordLines, map_some, nonEmptyLines_dump,
      flatMap_recordPieces h, List.length_map]
  segment := by
    intro warm store hget
    rw [segmentRecordsBy, segmentEventIds_recordLines h, bind_some]
    have hmap : (records.map fun record => record.eventId.val).mapM (getEvent warm store) =
        some (records.map some) := by
      clear h
      induction records with
      | nil => rfl
      | cons record records ih =>
        rw [List.map_cons, List.mapM_cons, hget record List.mem_cons_self,
          ih (fun r hr => hget r (List.mem_cons_of_mem _ hr))]
        rfl
    have hreduce : ∀ found : List (Option EventRecord), found.reduceOption = found.filterMap id :=
      fun _ => rfl
    rw [hmap, map_some, hreduce, List.filterMap_map]
    exact congrArg some List.filterMap_some
  pruned := fun sha256 _ removed hdir => pruneEventIds_eventIdLines h sha256 removed hdir

theorem Verbatim.unbroken (h : Verbatim records) : Unbroken records := by
  obtain ⟨archive, harchive, hlines⟩ := h.archive
  rw [prepareArchiveToCold_recordLines] at harchive
  have hclean : ∀ line ∈ records.map EventRecord.dumpJson, '\n' ∉ line := by
    intro line hline hmem
    obtain ⟨record, -, rfl⟩ := List.mem_map.mp hline
    exact absurd ((tidy_dumpJson record).unbroken _ hmem) (by decide)
  have hsame : records.flatMap recordPieces = records.map EventRecord.dumpJson := by
    rw [← some.inj harchive, recordLines, splitNewlines_frameLines newline_not_mem_recordPieces,
      splitNewlines_frameLines hclean, List.append_left_inj] at hlines
    exact List.map_injective_iff.mpr (fun _ _ => encodeText_injective) hlines
  intro record hrecord
  have hmem : record.dumpJson ∈ records.flatMap recordPieces := by
    rw [hsame]
    exact List.mem_map_of_mem hrecord
  obtain ⟨broken, -, hpiece⟩ := List.mem_flatMap.mp hmem
  exact pieces_unbroken isTextBreak _ _ (List.mem_of_mem_filter hpiece)

end

/-- Archiving is verbatim exactly if no record holds one of the three characters. -/
theorem verbatim_iff (records : List EventRecord) :
    Verbatim records ↔
      ∀ record ∈ records, ∀ c ∈ record.dumpJson, isNonAsciiBreak c = false := by
  have hunbroken : Unbroken records ↔
      ∀ record ∈ records, ∀ c ∈ record.dumpJson, isNonAsciiBreak c = false := by
    refine forall₂_congr fun record _ => forall₂_congr fun c hc => ?_
    rw [isTextBreak_dumpJson hc]
  rw [← hunbroken]
  exact ⟨Verbatim.unbroken, Verbatim.of_unbroken⟩

def separatorIntent : EventIntent :=
  { sampleIntent with payload := ⟨[("target_entity_type", .str "concept"),
      ("target_entity_id", .str "a\u2028b"), ("touch_type", .str "read")], by decide⟩ }

def separatorRecord : EventRecord := stamp sampleEnv separatorIntent sampleId sampleTime 0 none

/-- The separator cuts its record in two. -/
theorem separator_splits_record : ¬Verbatim [separatorRecord] := by
  intro h
  have hbreak : separatorRecord.dumpJson.any isTextBreak = true := by decide +kernel
  obtain ⟨c, hc, htext⟩ := List.any_eq_true.mp hbreak
  have hwhole := h.unbroken separatorRecord (List.mem_singleton_self _) c hc
  exact Bool.false_ne_true (hwhole.symm.trans htext)

end Flowness.Snapshot
