import Flowness.CommitGate.Stream
import Flowness.Library.Ascending
import Flowness.Library.Transition

/-!
`ProjectionStore.catchup` and `read_consistent` of one process, over a log that any process appends
to. The process reads up to the sequence counter of its own `EventLog`, which only its own writes
move.
-/

namespace Flowness.Projection

open Option List Library Schemas Ledger CommitGate CommittedLog

inductive ConsistencyMode where
  | freshRequired | allowStale | watermarkAtLeast
deriving DecidableEq, Repr

/-- Where a `read_consistent` stands; `begun` is the log it was called over. -/
inductive CallStage where
  | idle
  | polling (mode : ConsistencyMode) (minWatermark : Option Int) (begun : CommittedLog)
  | returned (watermark : Nat)
  | raised

/-- The open `EventLog` and the `ProjectionStore` of one process; `applied` is what the reducers were
given, in their order. -/
structure Reader where
  log : CommittedLog
  nextSequence : Nat
  index : IndexCache
  cursor : Nat
  applied : List EventRecord
  call : CallStage

def Reader.watermark (reader : Reader) : Nat := reader.cursor - 1

/-- `get_events_in_range` up to the counter. -/
def Reader.pendingEvents (reader : Reader) : List EventRecord :=
  reader.index.seen.records.filter fun record =>
    reader.cursor ≤ record.sequenceNumber ∧ record.sequenceNumber < reader.nextSequence

def Reader.caughtUpIndex (reader : Reader) (rebuilt : Bool) : Reader :=
  { reader with index := reader.index.catchUp reader.log rebuilt }

def Reader.catchup (reader : Reader) (rebuilt : Bool) : Reader :=
  let reader := reader.caughtUpIndex rebuilt
  match reader.pendingEvents.getLast? with
  | none => reader
  | some last =>
    { reader with
      applied := reader.applied ++ reader.pendingEvents, cursor := last.sequenceNumber + 1 }

inductive ReaderAction where
  /-- Any write of another process. -/
  | foreign (records : List EventRecord)
  | write (records : List EventRecord)
  /-- `stamp_for_batch` and `normalize_batch_seqs`: the counter moves, the log does not. -/
  | stamp (count : Nat)
  /-- The counter and the index are derived from the disk anew. -/
  | recover
  /-- Any other read of the `EventLog`. -/
  | touch (rebuilt : Bool)
  /-- The end of a rebuild of the index. -/
  | takeSize
  | catchup (rebuilt : Bool)
  | readConsistent (mode : ConsistencyMode) (minWatermark : Option Int)
  /-- One iteration of the loop; `expired` is the deadline. -/
  | poll (rebuilt expired : Bool)

def decideCall (mode : ConsistencyMode) (minWatermark : Option Int) (begun : CommittedLog)
    (watermark : Nat) (expired : Bool) : CallStage :=
  if mode = .freshRequired then .returned watermark
  else
    match minWatermark with
    | some minimum =>
      if minimum ≤ watermark then .returned watermark
      else if expired then .raised
      else .polling mode (some minimum) begun
    | none => if expired then .raised else .polling mode none begun

section

variable (env : WriterEnv)

def ownStep (reader : Reader) : ReaderAction → Option Reader
  | .write records => do
    let log ← reader.log.append env records
    return { reader with log, nextSequence := log.nextSequence }
  | .stamp count => some { reader with nextSequence := reader.nextSequence + count }
  | .recover =>
    some { reader with
      nextSequence := reader.log.nextSequence, index := { seen := .empty, covered := some 0 } }
  | .touch rebuilt => some (reader.caughtUpIndex rebuilt)
  | .catchup rebuilt => some (reader.catchup rebuilt)
  | .readConsistent mode minWatermark =>
    some { reader with
      call := if mode = .allowStale then .returned reader.watermark
        else if mode = .watermarkAtLeast ∧ minWatermark = none then .raised
        else .polling mode minWatermark reader.log }
  | .poll rebuilt expired =>
    match reader.call with
    | .polling mode minWatermark begun =>
      let reader := reader.catchup rebuilt
      some { reader with
        call := decideCall mode minWatermark begun reader.watermark expired }
    | _ => none
  | _ => none

def readerStep (reader : Reader) : ReaderAction → Option Reader
  | .foreign records => do
    let log ← reader.log.append env records
    return { reader with log }
  | .takeSize =>
    if reader.index.covered = none then
      some { reader with index :=
        { reader.index with covered := some reader.log.records.length } }
    else none
  | action => if reader.index.covered = none then none else ownStep env reader action

end

structure Reader.Sound (reader : Reader) : Prop where
  behind : reader.index.seen.records <+: reader.log.records
  cursor_le : reader.cursor ≤ reader.log.nextSequence
  /-- Every committed event below the cursor was applied once, in order, and no other. -/
  applied : reader.applied = reader.log.records.filter (·.sequenceNumber < reader.cursor)
  begun : ∀ mode minWatermark begun, reader.call = .polling mode minWatermark begun →
    begun.records <+: reader.log.records

structure Reader.Opened (reader : Reader) : Prop where
  index : reader.index.seen.records <+: reader.log.records
  covered : ∃ size, reader.index.covered = some size ∧ size ≤ reader.index.seen.records.length
  nextSequence : reader.nextSequence = reader.log.nextSequence
  cursor : reader.cursor = 0
  applied : reader.applied = []
  call : reader.call = .idle

variable {expired rebuilt : Bool} {begun : CommittedLog} {mode : ConsistencyMode}
  {record : EventRecord} {minWatermark : Option Int} {action : ReaderAction}

section

variable {env : WriterEnv} {reader next : Reader}

theorem Reader.Opened.sound (h : reader.Opened) : reader.Sound where
  behind := h.index
  cursor_le := h.cursor ▸ Nat.zero_le _
  applied := by
    rw [h.applied, h.cursor]
    exact (filter_eq_nil_iff.mpr fun record _ hbelow => absurd hbelow (by simp)).symm
  begun := by
    intro mode minWatermark begun hcall
    rw [h.call] at hcall
    cases hcall

theorem Reader.Sound.added (h : reader.Sound) {log : CommittedLog} {added : List EventRecord}
    (hadded : log.records = reader.log.records ++ added) :
    ({ reader with log } : Reader).Sound where
  behind := by
    rw [hadded]
    exact h.behind.trans (prefix_append _ _)
  cursor_le := h.cursor_le.trans (nextSequence_mono hadded)
  applied := by
    have hnone : added.filter (·.sequenceNumber < reader.cursor) = [] := by
      refine filter_eq_nil_iff.mpr fun record hrecord hbelow => ?_
      have hafter := nextSequence_le_of_added hadded hrecord
      have hcursor := h.cursor_le
      have := of_decide_eq_true hbelow
      omega
    rw [hadded, filter_append, hnone, append_nil]
    exact h.applied
  begun := by
    intro mode minWatermark begun hcall
    rw [hadded]
    exact (h.begun mode minWatermark begun hcall).trans (prefix_append _ _)

theorem Reader.Sound.caughtUpIndex (h : reader.Sound) (rebuilt : Bool) :
    (reader.caughtUpIndex rebuilt).Sound where
  behind := by
    unfold Reader.caughtUpIndex
    rw [IndexCache.catchUp_seen]
    split
    · exact h.behind
    · exact prefix_refl _
  cursor_le := h.cursor_le
  applied := h.applied
  begun := h.begun

theorem pendingEvents_eq (h : reader.Sound) (hlast : reader.pendingEvents.getLast? = some last) :
    reader.pendingEvents = reader.log.records.filter fun record =>
      reader.cursor ≤ record.sequenceNumber ∧ record.sequenceNumber < last.sequenceNumber + 1 := by
  obtain ⟨rest, hrest⟩ := h.behind
  have hmem := mem_of_getLast? hlast
  obtain ⟨hseen, hrange⟩ := mem_filter.mp hmem
  rw [← hrest, filter_append]
  have hnone : rest.filter (fun record => reader.cursor ≤ record.sequenceNumber ∧
      record.sequenceNumber < last.sequenceNumber + 1) = [] := by
    refine filter_eq_nil_iff.mpr fun record hrecord hbetween => ?_
    have hincreasing := reader.log.increasing
    rw [← hrest, map_append, pairwise_append] at hincreasing
    have hafter := hincreasing.2.2 _ (mem_map_of_mem hseen) _ (mem_map_of_mem hrecord)
    have := (of_decide_eq_true hbetween).2
    omega
  rw [hnone, append_nil]
  refine filter_congr fun record hrecord => decide_eq_decide.mpr ?_
  have hbound := of_decide_eq_true hrange
  constructor
  · intro hpending
    have hle : record.sequenceNumber ≤ last.sequenceNumber := by
      have hascending : Ascending EventRecord.sequenceNumber reader.index.seen.records :=
        reader.index.seen.increasing
      exact (hascending.filter _).key_le_getLast hlast
        (mem_filter.mpr ⟨hrecord, decide_eq_true hpending⟩)
    exact ⟨hpending.1, by omega⟩
  · intro hbetween
    exact ⟨hbetween.1, by omega⟩

section

variable (reader : Reader) (rebuilt : Bool)

theorem log_catchup : (reader.catchup rebuilt).log = reader.log := by
  unfold Reader.catchup
  dsimp only
  split <;> rfl

theorem call_catchup : (reader.catchup rebuilt).call = reader.call := by
  unfold Reader.catchup
  dsimp only
  split <;> rfl

theorem applied_catchup : (reader.catchup rebuilt).applied =
      reader.applied ++ (reader.caughtUpIndex rebuilt).pendingEvents := by
  unfold Reader.catchup
  dsimp only
  split
  next hnone =>
    rw [List.getLast?_eq_none_iff.mp hnone, append_nil]
    rfl
  · rfl

end

theorem Reader.Sound.catchup (h : reader.Sound) (rebuilt : Bool) :
    (reader.catchup rebuilt).Sound := by
  have hcaught := h.caughtUpIndex rebuilt
  unfold Reader.catchup
  dsimp only
  split
  · exact hcaught
  next last hlast =>
    have hmem := (mem_filter.mp (mem_of_getLast? hlast))
    have hlog := hcaught.behind.subset hmem.1
    have hrange := of_decide_eq_true hmem.2
    refine ⟨hcaught.behind, ?_, ?_, hcaught.begun⟩
    · exact sequenceNumber_lt_next hlog
    · have hascending : Ascending EventRecord.sequenceNumber
          (reader.caughtUpIndex rebuilt).log.records :=
        (reader.caughtUpIndex rebuilt).log.increasing
      rw [pendingEvents_eq hcaught hlast, hcaught.applied]
      exact (hascending.filter_lt (by omega)).symm

theorem Reader.Sound.withCall (h : reader.Sound) {call : CallStage}
    (hbegun : ∀ mode minWatermark begun, call = .polling mode minWatermark begun →
      begun.records <+: reader.log.records) : ({ reader with call } : Reader).Sound :=
  ⟨h.behind, h.cursor_le, h.applied, hbegun⟩

theorem decideCall_polling
    (h : decideCall mode minWatermark begun watermark expired = .polling other least log) :
    log = begun := by
  unfold decideCall at h
  repeat' split at h
  all_goals
    cases h
    try rfl

theorem Reader.Sound.ownStep (h : reader.Sound) (hstep : ownStep env reader action = some next) :
    next.Sound := by
  unfold Projection.ownStep at hstep
  split at hstep
  · obtain ⟨log, happend, hstep⟩ := bind_eq_some_iff.mp hstep
    cases hstep
    obtain ⟨hbehind, hcursor, happlied, hbegun⟩ := h.added (append_records happend)
    exact ⟨hbehind, hcursor, happlied, hbegun⟩
  · cases hstep
    exact ⟨h.behind, h.cursor_le, h.applied, h.begun⟩
  · cases hstep
    exact ⟨List.nil_prefix, h.cursor_le, h.applied, h.begun⟩
  · cases hstep
    exact h.caughtUpIndex _
  · cases hstep
    exact h.catchup _
  · cases hstep
    refine h.withCall fun mode minWatermark begun hcall => ?_
    split at hcall
    · cases hcall
    · split at hcall
      · cases hcall
      · cases hcall
        exact prefix_refl _
  · split at hstep
    next mode minWatermark begun hpolling =>
      cases hstep
      refine (h.catchup _).withCall fun other least log hcall => ?_
      rw [decideCall_polling hcall]
      exact (h.catchup _).begun mode minWatermark begun (by rw [call_catchup, hpolling])
    · cases hstep
  · cases hstep

theorem Reader.Sound.step (h : reader.Sound) (hstep : readerStep env reader action = some next) :
    next.Sound := by
  unfold readerStep at hstep
  split at hstep
  · obtain ⟨log, happend, hstep⟩ := bind_eq_some_iff.mp hstep
    cases hstep
    exact h.added (append_records happend)
  · split at hstep
    · cases hstep
      exact ⟨h.behind, h.cursor_le, h.applied, h.begun⟩
    · cases hstep
  · split at hstep
    · cases hstep
    · exact h.ownStep hstep

/-- The cached index has the event, or sees from the size of the log that it is behind. -/
def Reader.Holds (reader : Reader) (record : EventRecord) : Prop :=
  ¬ reader.index.current reader.log ∨ record ∈ reader.index.seen.records

/-- The event was applied before, or lies below the counter and in the index. -/
def Reader.Reaches (reader : Reader) (record : EventRecord) : Prop :=
  record.sequenceNumber < reader.cursor ∨
    (record.sequenceNumber < reader.nextSequence ∧ reader.Holds record)

theorem mem_seen_caughtUpIndex (hrecord : record ∈ reader.log.records) (rebuilt : Bool) :
    record ∈ (reader.caughtUpIndex rebuilt).index.seen.records ↔ reader.Holds record := by
  unfold Reader.caughtUpIndex
  rw [IndexCache.catchUp_seen]
  split
  next hcurrent =>
    exact ⟨.inr, fun h => h.resolve_left (not_not_intro hcurrent)⟩
  next hbehind =>
    exact ⟨fun _ => .inl hbehind, fun _ => hrecord⟩

theorem mem_pendingEvents (hrecord : record ∈ reader.log.records) (rebuilt : Bool) :
    record ∈ (reader.caughtUpIndex rebuilt).pendingEvents ↔
      reader.Holds record ∧ reader.cursor ≤ record.sequenceNumber ∧
        record.sequenceNumber < reader.nextSequence := by
  unfold Reader.pendingEvents
  rw [mem_filter, mem_seen_caughtUpIndex hrecord, decide_eq_true_eq]
  rfl

theorem lt_cursor_catchup (h : reader.Sound) (hrecord : record ∈ reader.log.records)
    (rebuilt : Bool) :
    record.sequenceNumber < (reader.catchup rebuilt).cursor ↔ reader.Reaches record := by
  have hsound := h.catchup rebuilt
  have hlog : record ∈ (reader.catchup rebuilt).log.records := by rwa [log_catchup]
  have happlied : record ∈ (reader.catchup rebuilt).applied ↔
      record.sequenceNumber < (reader.catchup rebuilt).cursor := by
    rw [hsound.applied]
    simp [hlog]
  have hold : record ∈ reader.applied ↔ record.sequenceNumber < reader.cursor := by
    rw [h.applied]
    simp [hrecord]
  rw [← happlied, applied_catchup, mem_append, hold, mem_pendingEvents hrecord]
  constructor
  · rintro (hbelow | ⟨hholds, -, hnext⟩)
    · exact .inl hbelow
    · exact .inr ⟨hnext, hholds⟩
  · rintro (hbelow | ⟨hnext, hholds⟩)
    · exact .inl hbelow
    · by_cases hbelow : record.sequenceNumber < reader.cursor
      · exact .inl hbelow
      · exact .inr ⟨hholds, by omega, hnext⟩

/-- What a mode promises of an iteration that leads from `reader` to `next`. -/
def KeepsPromise (reader next : Reader) : ConsistencyMode → Option Int → CommittedLog → Prop
  | .freshRequired, _, begun =>
    ∃ watermark, next.call = .returned watermark ∧ ∀ record ∈ begun.records,
      record.sequenceNumber ≤ watermark ∧ record ∈ next.applied
  | .watermarkAtLeast, some minimum, _ =>
    ((∃ record ∈ reader.log.records, (record.sequenceNumber : Int) = minimum) →
      ∃ watermark, next.call = .returned watermark) ∧
    ∀ watermark : Nat, next.call = .returned watermark → minimum ≤ watermark
  | _, _, _ => True

def ReachesPromise (reader : Reader) : ConsistencyMode → Option Int → CommittedLog → Prop
  | .freshRequired, _, begun => ∀ record ∈ begun.records, reader.Reaches record
  | .watermarkAtLeast, some minimum, _ => ∀ record ∈ reader.log.records,
    (record.sequenceNumber : Int) = minimum → record.sequenceNumber = 0 ∨ reader.Reaches record
  | _, _, _ => True

theorem poll_eq (hcall : reader.call = .polling mode minWatermark begun)
    (hpoll : readerStep env reader (.poll rebuilt expired) = some next) :
    next = { reader.catchup rebuilt with
      call := decideCall mode minWatermark begun (reader.catchup rebuilt).watermark expired } := by
  unfold readerStep at hpoll
  dsimp only at hpoll
  split at hpoll
  · cases hpoll
  · unfold Projection.ownStep at hpoll
    rw [hcall] at hpoll
    cases hpoll
    rfl

theorem keepsPromise_fresh (h : reader.Sound)
    (hcall : reader.call = .polling .freshRequired minWatermark begun)
    (hpoll : readerStep env reader (.poll rebuilt expired) = some next) :
    KeepsPromise reader next .freshRequired minWatermark begun ↔
      ReachesPromise reader .freshRequired minWatermark begun := by
  have hbegun := h.begun _ _ _ hcall
  have hsound := h.catchup rebuilt
  have hreturned : decideCall .freshRequired minWatermark begun
      (reader.catchup rebuilt).watermark expired = .returned (reader.catchup rebuilt).watermark :=
    if_pos rfl
  rw [poll_eq hcall hpoll, hreturned]
  constructor
  · rintro ⟨watermark, -, happlied⟩ record hrecord
    have hmem := (happlied record hrecord).2
    rw [hsound.applied, mem_filter, decide_eq_true_eq] at hmem
    exact (lt_cursor_catchup h (hbegun.subset hrecord) rebuilt).mp hmem.2
  · intro hreaches
    refine ⟨_, rfl, fun record hrecord => ?_⟩
    have hlog := hbegun.subset hrecord
    have hbelow := (lt_cursor_catchup h hlog rebuilt).mpr (hreaches record hrecord)
    refine ⟨?_, ?_⟩
    · unfold Reader.watermark
      omega
    · dsimp only
      rw [hsound.applied, log_catchup]
      exact mem_filter.mpr ⟨hlog, decide_eq_true hbelow⟩

theorem keepsPromise_atLeast {minimum : Int} (h : reader.Sound)
    (hcall : reader.call = .polling .watermarkAtLeast (some minimum) begun)
    (hpoll : readerStep env reader (.poll rebuilt expired) = some next) :
    KeepsPromise reader next .watermarkAtLeast (some minimum) begun ↔
      ReachesPromise reader .watermarkAtLeast (some minimum) begun := by
  have hdecided : ∀ watermark : Nat, decideCall .watermarkAtLeast (some minimum) begun
      (reader.catchup rebuilt).watermark expired = .returned watermark →
        minimum ≤ (reader.catchup rebuilt).watermark ∧
          watermark = (reader.catchup rebuilt).watermark := by
    intro watermark hreturned
    unfold decideCall at hreturned
    rw [if_neg (by decide)] at hreturned
    dsimp only at hreturned
    split at hreturned
    next hreached =>
      cases hreturned
      exact ⟨hreached, rfl⟩
    · split at hreturned <;> cases hreturned
  rw [poll_eq hcall hpoll]
  dsimp only
  constructor
  · rintro ⟨hreturns, -⟩ record hrecord hminimum
    obtain ⟨watermark, hreturned⟩ := hreturns ⟨record, hrecord, hminimum⟩
    have hreached := (hdecided watermark hreturned).1
    by_cases hzero : record.sequenceNumber = 0
    · exact .inl hzero
    · refine .inr ((lt_cursor_catchup h hrecord rebuilt).mp ?_)
      unfold Reader.watermark at hreached
      omega
  · intro hreaches
    refine ⟨?_, fun watermark hreturned => ?_⟩
    · rintro ⟨record, hrecord, hminimum⟩
      refine ⟨(reader.catchup rebuilt).watermark, ?_⟩
      have hreached : minimum ≤ (reader.catchup rebuilt).watermark := by
        unfold Reader.watermark
        rcases hreaches record hrecord hminimum with hzero | hreached
        · omega
        · have hbelow := (lt_cursor_catchup h hrecord rebuilt).mpr hreached
          omega
      exact if_pos hreached
    · obtain ⟨hreached, rfl⟩ := hdecided watermark hreturned
      exact hreached

/-- In every run, an iteration keeps the promise of its mode if and only if the reader reaches what
is promised when the iteration starts. -/
theorem promise_kept_iff {start : Reader} (hopened : start.Opened) {actions : List ReaderAction}
    (hrun : Run (readerStep env) (fun _ _ => True) start actions reader)
    {mode : ConsistencyMode} {minWatermark : Option Int} {begun : CommittedLog}
    (hcall : reader.call = .polling mode minWatermark begun) {rebuilt expired : Bool}
    (hpoll : readerStep env reader (.poll rebuilt expired) = some next) :
    KeepsPromise reader next mode minWatermark begun ↔
      ReachesPromise reader mode minWatermark begun := by
  have hsound : reader.Sound :=
    hrun.invariant hopened.sound fun _ _ _ h _ hstep => h.step hstep
  cases mode with
  | freshRequired => exact keepsPromise_fresh hsound hcall hpoll
  | allowStale => exact Iff.rfl
  | watermarkAtLeast =>
    cases minWatermark with
    | none => exact Iff.rfl
    | some minimum => exact keepsPromise_atLeast hsound hcall hpoll

end

def readerRecord (eventId : EventId) : EventRecord :=
  stamp sampleEnv sampleIntent eventId sampleTime 0 none

def twoRecords : List EventRecord :=
  [readerRecord sampleId, readerRecord secondId]

def openedReader : Reader where
  log := .empty
  nextSequence := 0
  index := { seen := .empty, covered := some 0 }
  cursor := 0
  applied := []
  call := .idle

theorem openedReader_opened : openedReader.Opened :=
  ⟨prefix_refl _, ⟨0, rfl, le_refl 0⟩, rfl, rfl, rfl, rfl⟩

def freshCall (write : ReaderAction) : List ReaderAction :=
  [write, .readConsistent .freshRequired none]

def freshLog : CallStage → Option CommittedLog
  | .polling .freshRequired none begun => some begun
  | _ => none

theorem polling_of_freshLog (h : freshLog call = some begun) :
    call = .polling .freshRequired none begun := by
  unfold freshLog at h
  split at h
  · cases h
    rfl
  · cases h

def freshIteration (write : ReaderAction) : Option (Reader × CommittedLog × Reader) := do
  let reader ← (freshCall write).foldlM (readerStep sampleEnv) openedReader
  let begun ← freshLog reader.call
  let next ← readerStep sampleEnv reader (.poll false false)
  return (reader, begun, next)

theorem freshIteration_eq {reader next : Reader}
    (h : freshIteration write = some (reader, begun, next)) :
    Run (readerStep sampleEnv) (fun _ _ => True) openedReader (freshCall write) reader ∧
      reader.call = .polling .freshRequired none begun ∧
      readerStep sampleEnv reader (.poll false false) = some next := by
  obtain ⟨found, hfound, h⟩ := bind_eq_some_iff.mp h
  obtain ⟨log, hlog, h⟩ := bind_eq_some_iff.mp h
  obtain ⟨behind, hbehind, h⟩ := bind_eq_some_iff.mp h
  cases h
  exact ⟨Run.of_steps hfound, polling_of_freshLog hlog, hbehind⟩

theorem ownWrite_kept :
    ∃ reader begun next, freshIteration (.write twoRecords) = some (reader, begun, next) ∧
      (KeepsPromise reader next .freshRequired none begun ↔
        ReachesPromise reader .freshRequired none begun) := by
  have hsome : (freshIteration (.write twoRecords)).isSome = true := by decide +kernel
  obtain ⟨⟨reader, begun, next⟩, hiteration⟩ := Option.isSome_iff_exists.mp hsome
  obtain ⟨hrun, hcall, hpoll⟩ := freshIteration_eq hiteration
  exact ⟨reader, begun, next, hiteration,
    promise_kept_iff openedReader_opened hrun hcall hpoll⟩

/-- A fresh read does not apply what another process committed before it. -/
theorem foreignWrite_not_fresh :
    ¬ ∀ (actions : List ReaderAction) (reader next : Reader) (mode : ConsistencyMode)
      (minWatermark : Option Int) (begun : CommittedLog) (rebuilt expired : Bool),
      Run (readerStep sampleEnv) (fun _ _ => True) openedReader actions reader →
        reader.call = .polling mode minWatermark begun →
        readerStep sampleEnv reader (.poll rebuilt expired) = some next →
        KeepsPromise reader next mode minWatermark begun := by
  intro hclaim
  have hmissed : (freshIteration (.foreign twoRecords)).map (fun iteration =>
      (iteration.2.1.records.length, iteration.2.2.applied.length)) = some (2, 0) := by
    decide +kernel
  obtain ⟨⟨reader, begun, next⟩, hiteration, hlengths⟩ := Option.map_eq_some_iff.mp hmissed
  obtain ⟨hbegun, happlied⟩ := Prod.mk.inj hlengths
  obtain ⟨hrun, hcall, hpoll⟩ := freshIteration_eq hiteration
  obtain ⟨watermark, -, hkept⟩ := hclaim _ _ _ _ _ _ _ _ hrun hcall hpoll
  have hpos : 0 < begun.records.length := by
    rw [show begun.records.length = 2 from hbegun]
    decide
  obtain ⟨record, hrecord⟩ := exists_mem_of_length_pos hpos
  have hmem := (hkept record hrecord).2
  rw [length_eq_zero_iff.mp happlied] at hmem
  cases hmem

end Flowness.Projection
