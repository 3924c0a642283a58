import Flowness.Library.Ascending
import Flowness.Snapshot.ColdVerbatim
import Flowness.Snapshot.Collection

/-!
One log with its hot segments and its cold storage, at the level of records: writes, cold moves and
compactions in any order. A run decides by the records that were hot when it began.
-/

namespace Flowness.Snapshot

open List Library Schemas Ledger Dict Option
open Ledger.EventIndex (idsOf)

inductive SegmentArchivePath where
  | pureDiscard | conservativeCold | empty
deriving DecidableEq, Repr

/-- `align_segment_archive`, over all records between two numbers. -/
def alignSegmentArchive (records : List EventRecord) (startSeq endSeq : Nat) : SegmentArchivePath :=
  match records.filter fun r => startSeq ≤ r.sequenceNumber ∧ r.sequenceNumber ≤ endSeq with
  | [] => .empty
  | events =>
    if events.all (·.baseClassification = .discardableNoise) then .pureDiscard else .conservativeCold

def archivePath (hot found : List EventRecord) : SegmentArchivePath :=
  alignSegmentArchive hot ((found.map (·.sequenceNumber)).min?.getD 0)
    ((found.map (·.sequenceNumber)).max?.getD 0)

/-- The line of the record is still one line under `str.splitlines`. -/
def legible (record : EventRecord) : Bool := record.dumpJson.all fun c => !isTextBreak c

variable {records : List EventRecord}

/-- The committed records by file. `routes` is the cold routing index and `written` all that was
ever committed. -/
structure GcStore where
  base : List EventRecord := []
  hot : Dict Nat (List EventRecord) := []
  archives : Dict Nat (List EventRecord) := []
  routes : Dict String Nat := []
  run : Option GcState := none
  written : List EventRecord := []

namespace GcStore

inductive Action where
  | write (rotates : Bool) (records : List EventRecord)
  | begin (state : GcState)
  | moveSegment (segment : Nat)
  | compactSegment (segment : Nat)
  | finish

variable (store : GcStore)

/-- `all_records()`. -/
def hotRecords : List EventRecord := store.base ++ store.hot.flatMap Prod.snd

/-- `next_segment_path`. -/
def nextSegment : Nat :=
  match store.hot.getLast? with
  | some entry => entry.1 + 1
  | none => 1

/-- The segment a write goes to; `none` is the base. -/
def target (rotates : Bool) : Option Nat :=
  if rotates then some store.nextSegment else store.hot.getLast?.map Prod.fst

def append (rotates : Bool) (records : List EventRecord) : GcStore :=
  match store.target rotates with
  | none =>
    { store with base := store.base ++ records, written := store.written ++ records }
  | some number =>
    { store with
      hot := Dict.set store.hot number ((Dict.get store.hot number).getD [] ++ records)
      written := store.written ++ records }

def archive (segment : Nat) (records : List EventRecord) : GcStore :=
  if Dict.contains store.archives segment then store
  else { store with archives := Dict.set store.archives segment (records.filter legible) }

/-- `update_cold_index`. -/
def route (segment : Nat) (eventIds : List String) : GcStore :=
  { store with
    routes := eventIds.foldl (fun routes eventId => Dict.set routes eventId segment) store.routes }

def unlink (segment : Nat) : GcStore := { store with hot := Dict.erase store.hot segment }

/-- `_write_thin_segment`. -/
def rewrite (segment : Nat) (pinned : List EventRecord) : GcStore :=
  { store with hot := Dict.set store.hot segment pinned }

/-- What `run_gc_cold_move` does with a segment that holds `records`. -/
def moved (segment : Nat) (records : List EventRecord) : GcStore :=
  if archivePath store.hotRecords (records.filter legible) = .pureDiscard then store.unlink segment
  else ((store.archive segment records).route segment (idsOf (records.filter legible))).unlink segment

/-- What `run_segment_compaction` does with it. -/
def compacted (segment : Nat) (records : List EventRecord) (reachable : List String) : GcStore :=
  let (pinned, movable) := splitPinnedMovable (records.filter legible) reachable
  ((store.archive segment records).route segment (idsOf movable)).rewrite segment pinned

def visit (segment : Nat) : Option (GcState × List EventRecord) :=
  match store.run, Dict.get store.hot.dropLast segment with
  | some state, some records => if 0 < state.moveBound.bound then some (state, records) else none
  | _, _ => none

/-- Event ids are drawn new. A run takes one segment in one step: nobody else writes a sealed
segment, and a commit of the gate is a write of its own. -/
def step : Action → Option GcStore
  | .write rotates records =>
    if (idsOf (store.written ++ records)).Nodup then some (store.append rotates records) else none
  | .begin state =>
    if store.run.isNone ∧ state.log.allRecords = store.hotRecords then
      some { store with run := some state }
    else none
  | .moveSegment segment =>
    match store.visit segment with
    | none => none
    | some (state, records) =>
      if admitsMove (records.filter legible) state.moveBound.bound state.reachable then
        some (store.moved segment records)
      else none
  | .compactSegment segment =>
    match store.visit segment with
    | none => none
    | some (state, records) =>
      if admitsCompaction (records.filter legible) state.moveBound.bound state.reachable then
        some (store.compacted segment records state.reachable)
      else none
  | .finish => some { store with run := none }

/-- `get_event`: what the hot index has, or else what cold storage has. -/
def getEvent (eventId : String) : Option EventRecord :=
  match (store.hotRecords.filter (·.eventId.val = eventId)).getLast? with
  | some record => some record
  | none => ((Dict.get store.routes eventId).bind (Dict.get store.archives)).bind fun records =>
      records.find? (·.eventId.val = eventId)

section

variable {store : GcStore}

variable {hot : Dict Nat (List EventRecord)} {number segment : Nat}

theorem nodup_of_ascending (h : Ascending Prod.fst hot) : (Dict.keys hot).Nodup :=
  h.imp fun hlt => Nat.ne_of_lt hlt

theorem mem_hotRecords (h : Ascending Prod.fst store.hot) :
    record ∈ store.hotRecords ↔ record ∈ store.base ∨ ∃ segment records,
      Dict.get store.hot segment = some records ∧ record ∈ records := by
  unfold hotRecords
  rw [mem_append, mem_flatMap]
  constructor
  · rintro (hbase | ⟨⟨segment, records⟩, hentry, hrecord⟩)
    · exact .inl hbase
    · exact .inr ⟨segment, records, (mem_iff_get (nodup_of_ascending h)).mp hentry, hrecord⟩
  · rintro (hbase | ⟨segment, records, hget, hrecord⟩)
    · exact .inl hbase
    · exact .inr ⟨(segment, records), (mem_iff_get (nodup_of_ascending h)).mpr hget, hrecord⟩

section

variable (rotates : Bool) (records : List EventRecord)

theorem written_append : (store.append rotates records).written = store.written ++ records := by
  unfold append
  split <;> rfl

theorem archives_append : (store.append rotates records).archives = store.archives := by
  unfold append
  split <;> rfl

theorem routes_append : (store.append rotates records).routes = store.routes := by
  unfold append
  split <;> rfl

end

theorem le_target (h : Ascending Prod.fst store.hot) {rotates : Bool}
    (htarget : store.target rotates = some number) :
    ∀ other ∈ Dict.keys store.hot, other ≤ number := by
  intro other hother
  obtain ⟨entry, hentry, rfl⟩ := mem_map.mp hother
  cases hlast : store.hot.getLast? with
  | none =>
    rw [List.getLast?_eq_none_iff.mp hlast] at hentry
    contradiction
  | some last =>
    have hle : entry.1 ≤ last.1 := h.key_le_getLast hlast hentry
    unfold target nextSegment at htarget
    rw [hlast] at htarget
    split at htarget
    · cases htarget
      exact Nat.le_succ_of_le hle
    · cases htarget
      exact hle

theorem keys_set_ascending (h : Ascending Prod.fst hot)
    (hnumber : number ∈ Dict.keys hot ∨ ∀ other ∈ Dict.keys hot, other ≤ number) :
    Ascending Prod.fst (Dict.set hot number records) := by
  change (Dict.keys (Dict.set hot number records)).Pairwise (· < ·)
  by_cases hmem : number ∈ Dict.keys hot
  · rw [keys_set_of_mem hmem]
    exact h
  · rw [keys_set_of_not_mem hmem]
    refine pairwise_append.mpr ⟨h, pairwise_singleton _ _, ?_⟩
    intro other hother last hlast
    have hle := (hnumber.resolve_left hmem) other hother
    have hne : other ≠ number := fun heq => hmem (heq ▸ hother)
    rw [mem_singleton.mp hlast]
    omega

theorem mem_keys_set (h : other ∈ Dict.keys hot) :
    other ∈ Dict.keys (Dict.set hot number records) := by
  by_cases hmem : number ∈ Dict.keys hot
  · rwa [keys_set_of_mem hmem]
  · rw [keys_set_of_not_mem hmem]
    exact mem_append_left _ h

section

variable (h : Ascending Prod.fst store.hot)
include h

theorem mem_hotRecords_append {rotates : Bool} :
    record ∈ (store.append rotates records).hotRecords ↔
      record ∈ store.hotRecords ∨ record ∈ records := by
  unfold append
  cases htarget : store.target rotates with
  | none =>
    unfold hotRecords
    simp only [mem_append]
    tauto
  | some number =>
    have hascending : Ascending Prod.fst
        (Dict.set store.hot number ((Dict.get store.hot number).getD [] ++ records)) :=
      keys_set_ascending h (.inr (le_target h htarget))
    rw [mem_hotRecords hascending, mem_hotRecords h]
    constructor
    · rintro (hbase | ⟨segment, held, hget, hrecord⟩)
      · exact .inl (.inl hbase)
      · by_cases hsegment : segment = number
        · subst hsegment
          rw [get_set_self] at hget
          rw [← some.inj hget] at hrecord
          rcases mem_append.mp hrecord with hold | hnew
          · cases hheld : Dict.get store.hot segment with
            | none => simp [hheld] at hold
            | some old =>
              rw [hheld] at hold
              exact .inl (.inr ⟨segment, old, hheld, hold⟩)
          · exact .inr hnew
        · rw [get_set_of_ne _ _ hsegment] at hget
          exact .inl (.inr ⟨segment, held, hget, hrecord⟩)
    · rintro ((hbase | ⟨segment, held, hget, hrecord⟩) | hnew)
      · exact .inl hbase
      · by_cases hsegment : segment = number
        · subst hsegment
          refine .inr ⟨segment, _, get_set_self _ _ _, ?_⟩
          rw [hget]
          exact mem_append_left _ hrecord
        · refine .inr ⟨segment, held, ?_, hrecord⟩
          rw [get_set_of_ne _ _ hsegment]
          exact hget
      · exact .inr ⟨number, _, get_set_self _ _ _, mem_append_right _ hnew⟩

theorem keys_append (rotates : Bool) (records : List EventRecord) :
    Ascending Prod.fst (store.append rotates records).hot ∧
      ∀ number ∈ Dict.keys store.hot, number ∈ Dict.keys (store.append rotates records).hot := by
  unfold append
  cases htarget : store.target rotates with
  | none => exact ⟨h, fun _ hnumber => hnumber⟩
  | some number =>
    exact ⟨keys_set_ascending h (.inr (le_target h htarget)), fun _ hnumber => mem_keys_set hnumber⟩

theorem get_hot_append (hnumber : number ∈ Dict.keys store.hot) (hlt : segment < number)
    (rotates : Bool) (records : List EventRecord) :
    Dict.get (store.append rotates records).hot segment = Dict.get store.hot segment := by
  unfold append
  cases htarget : store.target rotates with
  | none => rfl
  | some last =>
    have hle := le_target h htarget number hnumber
    exact get_set_of_ne _ _ (by omega)

end

theorem get_archives_archive (h : Dict.get store.archives other = some archived) :
    Dict.get (store.archive segment records).archives other = some archived := by
  unfold archive
  split
  · exact h
  next habsent =>
    by_cases heq : other = segment
    · subst heq
      exact absurd (by rw [Dict.contains, h]; rfl) habsent
    · exact (get_set_of_ne _ _ heq).trans h

section

variable (segment : Nat) (records : List EventRecord)

theorem written_archive : (store.archive segment records).written = store.written := by
  unfold archive
  split <;> rfl

theorem hot_archive : (store.archive segment records).hot = store.hot := by
  unfold archive
  split <;> rfl

theorem hotRecords_archive : (store.archive segment records).hotRecords = store.hotRecords := by
  unfold archive
  split <;> rfl

theorem routes_archive : (store.archive segment records).routes = store.routes := by
  unfold archive
  split <;> rfl

end

theorem lt_of_mem_dropLast (h : Ascending Prod.fst store.hot) (hentry :
  entry ∈ store.hot.dropLast) : ∃ number ∈ Dict.keys store.hot, entry.1 < number := by
  cases hlast : store.hot.getLast? with
  | none =>
    rw [List.getLast?_eq_none_iff.mp hlast] at hentry
    contradiction
  | some last =>
    refine ⟨last.1, mem_map_of_mem (mem_of_getLast? hlast), ?_⟩
    have hsplit := dropLast_append_getLast? last hlast
    unfold Ascending at h
    rw [← hsplit, map_append] at h
    exact (pairwise_append.mp h).2.2 entry.1 (mem_map_of_mem hentry) last.1 (by simp)

theorem visit_some (h : Ascending Prod.fst store.hot)
    (hvisit : store.visit segment = some (state, records)) :
    Dict.get store.hot segment = some records ∧ ∃ number ∈ Dict.keys store.hot, segment < number := by
  unfold visit at hvisit
  split at hvisit
  next found held _ hheld =>
    split at hvisit
    · cases hvisit
      have hdrop : Ascending Prod.fst store.hot.dropLast :=
        h.sublist ((dropLast_sublist _).map Prod.fst)
      have hentry := (mem_iff_get (nodup_of_ascending hdrop)).mpr hheld
      have hmem := (dropLast_sublist _).subset hentry
      exact ⟨(mem_iff_get (nodup_of_ascending h)).mp hmem, lt_of_mem_dropLast h hentry⟩
    · contradiction
  · contradiction

end

end GcStore

end Flowness.Snapshot
