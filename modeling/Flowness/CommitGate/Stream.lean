import Flowness.Ledger.Prepared

/-!
The committed stream as the gate and the projections read it: records in sequence order with
distinct identifiers, appended to by the two write paths. The cached index of an open `EventLog`
follows it.
-/

namespace Flowness.CommitGate

open List Library Schemas Ledger

structure CommittedLog where
  records : List EventRecord
  increasing : (records.map EventRecord.sequenceNumber).Pairwise (· < ·)
  distinct : (records.map (·.eventId.val)).Nodup

namespace CommittedLog

def empty : CommittedLog := ⟨[], ascending_nil, List.nodup_nil⟩

def ids (log : CommittedLog) : List String := log.records.map (·.eventId.val)

def nextSequence (log : CommittedLog) : Nat :=
  (log.records.getLast?.map (·.sequenceNumber + 1)).getD 0

def getEvent (log : CommittedLog) (eventId : String) : Option EventRecord :=
  log.records.find? (·.eventId.val == eventId)

def getEventsByType (log : CommittedLog) (eventType : EventType) : List EventRecord :=
  log.records.filter (·.eventType == eventType)

theorem getEvent_some {log : CommittedLog} (h : log.getEvent eventId = some record) :
    record ∈ log.records ∧ record.eventId.val = eventId :=
  ⟨mem_of_find?_eq_some h, by simpa using List.find?_some h⟩

theorem getEvent_of_mem {log : CommittedLog} (h : record ∈ log.records) :
    log.getEvent record.eventId.val = some record := by
  cases hfind : log.getEvent record.eventId.val with
  | none =>
    have habsent := List.find?_eq_none.mp hfind record h
    simp at habsent
  | some found =>
    obtain ⟨hmem, hid⟩ := getEvent_some hfind
    rw [inj_on_of_nodup_map log.distinct hmem h hid]

theorem getEvent_of_records_append {log next : CommittedLog}
    (h : next.records = log.records ++ added) (hget : log.getEvent eventId = some record) :
    next.getEvent eventId = some record := by
  rw [getEvent, h, List.find?_append]
  exact Option.or_eq_some_iff.mpr (Or.inl hget)

theorem sequenceNumber_lt_next {log : CommittedLog} (h : record ∈ log.records) :
    record.sequenceNumber < log.nextSequence := by
  obtain ⟨first, last, hsplit⟩ : ∃ first last, log.records = first ++ [last] := by
    cases hrev : log.records.reverse with
    | nil => simp_all
    | cons last rest => exact ⟨rest.reverse, last, by simpa using congrArg List.reverse hrev⟩
  have hnext : log.nextSequence = last.sequenceNumber + 1 := by simp [nextSequence, hsplit]
  have hincreasing := log.increasing
  rw [hsplit, map_append, pairwise_append] at hincreasing
  rw [hsplit, mem_append, mem_singleton] at h
  rcases h with hfirst | rfl
  · have := hincreasing.2.2 _ (mem_map_of_mem hfirst) last.sequenceNumber (by simp)
    omega
  · omega

end CommittedLog

section Writers

variable (env : WriterEnv)

def payloadAccepted (record : EventRecord) : Bool :=
  match validatePayloadTyped env record.eventType record.payload with
  | .ok _ => true
  | .error _ => false

/-- The checks of a write on the records it is about to append. -/
structure Admissible (log : CommittedLog) (records : List EventRecord) : Prop where
  payloads : ∀ record ∈ records, payloadAccepted env record = true
  distinct : (records.map (·.eventId.val)).Nodup
  unused : ∀ record ∈ records, record.eventId.val ∉ log.ids

instance (log : CommittedLog) (records : List EventRecord) :
    Decidable (Admissible env log records) :=
  decidable_of_iff ((∀ record ∈ records, payloadAccepted env record = true) ∧
    (records.map (·.eventId.val)).Nodup ∧ ∀ record ∈ records, record.eventId.val ∉ log.ids)
    ⟨fun h => ⟨h.1, h.2.1, h.2.2⟩, fun h => ⟨h.payloads, h.distinct, h.unused⟩⟩

theorem eventIds_reseqFrom (base : Nat) (records : List EventRecord) :
    (reseqFrom env base records).map (·.eventId.val) = records.map (·.eventId.val) := by
  refine map_reseqFrom env _ (fun record newSeq => ?_) base records
  obtain ⟨recordHash, heq⟩ := reseq_eq env record newSeq
  rw [heq]

theorem increasing_append (log : CommittedLog) {records : List EventRecord} {count : Nat}
    (hnumbers : records.map EventRecord.sequenceNumber = List.range' log.nextSequence count) :
    ((log.records ++ records).map EventRecord.sequenceNumber).Pairwise (· < ·) := by
  rw [map_append, hnumbers, pairwise_append]
  refine ⟨log.increasing, pairwise_lt_range', fun earlier hearlier later hlater => ?_⟩
  obtain ⟨record, hrecord, rfl⟩ := mem_map.mp hearlier
  have hbelow := CommittedLog.sequenceNumber_lt_next hrecord
  have := (mem_range'_1.mp hlater).1
  omega

private theorem distinct_append {log : CommittedLog} {records : List EventRecord}
    (h : Admissible env log records) :
    ((log.records ++ reseqFrom env log.nextSequence records).map (·.eventId.val)).Nodup := by
  rw [map_append, eventIds_reseqFrom, nodup_append]
  refine ⟨log.distinct, h.distinct, fun old hold new hnew => ?_⟩
  obtain ⟨record, hrecord, rfl⟩ := mem_map.mp hnew
  rintro rfl
  exact h.unused record hrecord hold

/-- The records of one write behind the stream, renumbered from its tail on; `none` when a check
raises. -/
def CommittedLog.append (log : CommittedLog) (records : List EventRecord) :
    Option CommittedLog :=
  if h : Admissible env log records then
    some
      { records := log.records ++ reseqFrom env log.nextSequence records
        increasing := increasing_append log (reseqFrom_numbered env _ records)
        distinct := distinct_append env h }
  else none

variable {env} {log next : CommittedLog} {records : List EventRecord}

theorem CommittedLog.append_records (h : log.append env records = some next) :
    next.records = log.records ++ reseqFrom env log.nextSequence records := by
  unfold CommittedLog.append at h
  split at h
  · cases h
    rfl
  · cases h

/-- A record stamped with the next number keeps it. -/
theorem CommittedLog.append_stamped {record : EventRecord}
    (hstamped : record.sequenceNumber = log.nextSequence)
    (h : log.append env [record] = some next) :
    next.records = log.records ++ [record] := by
  rw [CommittedLog.append_records h, reseqFrom, reseqFrom]
  exact congrArg (fun kept => log.records ++ [kept]) (if_pos hstamped)

theorem CommittedLog.append_admissible (h : log.append env records = some next) :
    Admissible env log records := by
  unfold CommittedLog.append at h
  split at h
  · assumption
  · cases h

end Writers

/-- The cached index of one `EventLog`: what it holds, and how much of the log its size baseline
covers. A rebuild has no baseline before it takes the size. -/
structure IndexCache where
  seen : CommittedLog
  covered : Option Nat

def IndexCache.current (index : IndexCache) (log : CommittedLog) : Prop :=
  index.covered = some log.records.length

instance (index : IndexCache) (log : CommittedLog) : Decidable (index.current log) :=
  inferInstanceAs (Decidable (index.covered = some log.records.length))

/-- `_committed_index`: the delta is folded in, or after a gap a new index is built. -/
def IndexCache.catchUp (index : IndexCache) (log : CommittedLog) (rebuilt : Bool) : IndexCache :=
  if index.current log then index
  else { seen := log, covered := if rebuilt then none else some log.records.length }

theorem IndexCache.catchUp_seen (index : IndexCache) (log : CommittedLog) (rebuilt : Bool) :
    (index.catchUp log rebuilt).seen = if index.current log then index.seen else log := by
  unfold IndexCache.catchUp
  split <;> rfl

namespace CommittedLog

section

variable {log written : CommittedLog} {added : List EventRecord}
    (h : written.records = log.records ++ added)
include h

theorem nextSequence_le_of_added {record : EventRecord} (hrecord : record ∈ added) :
    log.nextSequence ≤ record.sequenceNumber := by
  unfold CommittedLog.nextSequence
  cases hlast : log.records.getLast? with
  | none => exact Nat.zero_le _
  | some last =>
    have hincreasing := written.increasing
    rw [h, map_append, pairwise_append] at hincreasing
    have hbelow := hincreasing.2.2 last.sequenceNumber
      (mem_map_of_mem (mem_of_getLast? hlast)) record.sequenceNumber
      (mem_map_of_mem hrecord)
    exact hbelow

theorem nextSequence_mono : log.nextSequence ≤ written.nextSequence := by
  cases hlast : added.getLast? with
  | none =>
    rw [List.getLast?_eq_none_iff.mp hlast, append_nil] at h
    unfold nextSequence
    rw [h]
  | some last =>
    have hnew := mem_of_getLast? hlast
    have hbelow := nextSequence_le_of_added h hnew
    have hmem : last ∈ written.records := h ▸ mem_append_right _ hnew
    have := sequenceNumber_lt_next hmem
    omega

end

end CommittedLog

end Flowness.CommitGate
