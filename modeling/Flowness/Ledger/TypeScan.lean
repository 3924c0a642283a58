import Flowness.Library.Since
import Flowness.Ledger.BatchAtomicity
import Flowness.Ledger.BatchIdScan

/-!
The index-free scan for one event type: a byte-level filter keeps the lines that mention the type and
the sentinels they wait for. A name in a payload can release a batch before its sentinel.
-/

namespace Flowness.Ledger

open List Library Schemas Dict

def sentinelTypes : List EventType := [.commitAccepted, .commitRejected]

/-- `any(s in line for s in sentinel_needles)`. -/
def mentionsSentinel (line : Text) : Bool :=
  sentinelTypes.any fun eventType => mentions (StrEnum.value eventType) line

abbrev PendingLines := Dict Text (List Text)

def narrowLine (typeValue : String) (pending : PendingLines) (line : Text) :
    List Text × PendingLines :=
  let isCandidate := mentions typeValue line
  let maybeSentinel := mentionsSentinel line
  if !isCandidate && !(!pending.isEmpty && maybeSentinel) then ([], pending)
  else
    match lineBatchId line with
    | none => (if isCandidate then [line] else [], pending)
    | some batchId =>
      let pending := if isCandidate then Dict.appendAt pending batchId line else pending
      if maybeSentinel && Dict.contains pending batchId then
        (Dict.getList pending batchId ++ (if isCandidate then [] else [line]),
          Dict.erase pending batchId)
      else ([], pending)

def narrowNext (typeValue : String) (state : List Text × PendingLines) (line : Text) :
    List Text × PendingLines :=
  let (passed, pending) := narrowLine typeValue state.2 line
  (state.1 ++ passed, pending)

def linesPossiblyOfType (lines : List Text) (typeValue : String) : List Text :=
  (lines.foldl (narrowNext typeValue) ([], [])).1

/-- The scan for a type, and the full scan, as `scan_committed_records_of_type` filters them. -/
def scanOfType (records : List EventRecord) (eventType : EventType) :
    Except ScanError (List EventRecord) :=
  (iterCommittedRecordsFromLines
    (linesPossiblyOfType (records.map EventRecord.dumpJson) (StrEnum.value eventType))).map
      (·.filter (·.eventType = eventType))

def fullScanOfType (records : List EventRecord) (eventType : EventType) :
    Except ScanError (List EventRecord) :=
  (iterCommittedRecordsFromLines (records.map EventRecord.dumpJson)).map
    (·.filter (·.eventType = eventType))

/-- However far the log has grown, the scan for a type finds what a full scan finds. -/
def LosesNothing (records : List EventRecord) (eventType : EventType) : Prop :=
  ∀ front rest found, records = front ++ rest → fullScanOfType front eventType = .ok found →
    scanOfType front eventType = .ok found

/-- A record of the type that a full scan keeps back for the sentinel of its batch. -/
def Waits (records : List EventRecord) (eventType : EventType) (batchId : String) : Prop :=
  Since records
    (fun _ record => record.isKnown = true ∧ record.isSentinel = false ∧
      record.batchId = some batchId ∧ record.eventType = eventType)
    fun record => record.isKnown = true ∧ record.isSentinel = true ∧ record.batchId = some batchId

/-- A line that mentions the type and no sentinel, and no line of the same batch id that mentions a
sentinel after it. -/
def NamedSince (records : List EventRecord) (eventType : EventType) (key : Text) : Prop :=
  Since records
    (fun _ record => mentions (StrEnum.value eventType) record.dumpJson = true ∧
      mentionsSentinel record.dumpJson = false ∧ record.batchId.map readBatchId = some key)
    fun record => mentionsSentinel record.dumpJson = true ∧ record.batchId.map readBatchId = some key

/-- At every sentinel that a full scan gets to and that makes a record of the type visible: it
mentions the type itself, or the batch has been named since the last mention of a sentinel in it. -/
def NamedAtSentinels (records : List EventRecord) (eventType : EventType) : Prop :=
  ∀ front sentinel rest batchId, records = front ++ sentinel :: rest →
    (∀ record ∈ front, record.failsReplay = false) → sentinel.isKnown = true →
    sentinel.isSentinel = true → sentinel.batchId = some batchId → Waits front eventType batchId →
      mentions (StrEnum.value eventType) sentinel.dumpJson = true ∨
        NamedSince front eventType (readBatchId batchId)

section

variable {typeValue : String} {pending after : PendingLines} {line : Text}

theorem narrowLine_direct (h : lineBatchId line = none) :
    narrowLine typeValue pending line = (if mentions typeValue line then [line] else [], pending) := by
  unfold narrowLine
  rw [h]
  cases mentions typeValue line
  all_goals simp

theorem narrowLine_batch (h : lineBatchId line = some key) :
    (mentionsSentinel line = true ∧ (mentions typeValue line = true ∨ Dict.contains pending key = true) ∧
      (narrowLine typeValue pending line).1 = Dict.getList pending key ++ [line] ∧
      ∀ other, Dict.get (narrowLine typeValue pending line).2 other =
        if other = key then none else Dict.get pending other) ∨
    (¬(mentionsSentinel line = true ∧
        (mentions typeValue line = true ∨ Dict.contains pending key = true)) ∧
      (narrowLine typeValue pending line).1 = [] ∧
      ∀ other, Dict.get (narrowLine typeValue pending line).2 other =
        if other = key ∧ mentions typeValue line = true then some (Dict.getList pending key ++ [line])
        else Dict.get pending other) := by
  have happend : ∀ other, Dict.get (Dict.appendAt pending key line) other =
      if other = key then some (Dict.getList pending key ++ [line]) else Dict.get pending other := by
    intro other
    unfold Dict.appendAt
    split
    next heq =>
      rw [heq, get_set_self]
    next hne =>
      rw [get_set_of_ne _ _ hne]
  have herase : ∀ (lines : PendingLines) other, Dict.get (Dict.erase lines key) other =
      if other = key then none else Dict.get lines other := by
    intro lines other
    split
    next heq =>
      rw [heq, get_erase_self]
    next hne =>
      rw [get_erase_of_ne _ hne]
  cases hcandidate : mentions typeValue line
  · by_cases hrelease : mentionsSentinel line = true ∧ Dict.contains pending key = true
    · have hfilled : pending.isEmpty = false := by
        cases pending with
        | nil => exact absurd hrelease.2 (by simp [Dict.contains, Dict.get])
        | cons entry pending => rfl
      refine .inl ⟨hrelease.1, .inr hrelease.2, ?_, ?_⟩
      all_goals simp [narrowLine, hcandidate, h, hrelease.1, hrelease.2, hfilled, herase]
    · refine .inr ⟨by simpa using hrelease, ?_⟩
      have hkept : narrowLine typeValue pending line = ([], pending) := by
        unfold narrowLine
        rw [h, hcandidate]
        simp only [Bool.false_eq_true, if_false]
        split
        · rfl
        · rw [if_neg (by simpa using hrelease)]
      rw [hkept]
      simp
  · have hcontains : Dict.contains (Dict.appendAt pending key line) key = true := by
      rw [Dict.contains, happend, if_pos rfl]
      rfl
    have hlist : Dict.getList (Dict.appendAt pending key line) key = Dict.getList pending key ++ [line] := by
      rw [Dict.getList, happend, if_pos rfl]
      rfl
    by_cases hsentinel : mentionsSentinel line = true
    · refine .inl ⟨hsentinel, .inl rfl, ?_, ?_⟩
      · simp [narrowLine, hcandidate, h, hsentinel, hcontains, hlist]
      · intro other
        simp only [narrowLine, hcandidate, h, hsentinel, hcontains, Bool.not_true, Bool.false_and,
          Bool.false_eq_true, if_false, if_true, Bool.and_self, herase, happend]
        split
        · rfl
        · rfl
    · refine .inr ⟨by simp [hsentinel], ?_, ?_⟩
      all_goals simp [narrowLine, hcandidate, h, hsentinel, happend]

end

section

variable {records front out found : List EventRecord} {record : EventRecord} {eventType : EventType}
  {pending after : PendingLines} {whole narrowed next : Buffer}

def narrow (records : List EventRecord) (eventType : EventType) : List Text × PendingLines :=
  (records.map EventRecord.dumpJson).foldl (narrowNext (StrEnum.value eventType)) ([], [])

theorem narrow_snoc (records : List EventRecord) (record : EventRecord) (eventType : EventType) :
    narrow (records ++ [record]) eventType =
      ((narrow records eventType).1 ++
          (narrowLine (StrEnum.value eventType) (narrow records eventType).2 record.dumpJson).1,
        (narrowLine (StrEnum.value eventType) (narrow records eventType).2 record.dumpJson).2) := by
  simp [narrow, narrowNext]

theorem mentionsSentinel_of_isSentinel (h : record.isSentinel = true) :
    mentionsSentinel record.dumpJson = true := by
  have hmem : record.eventType ∈ sentinelTypes := by
    simpa [EventRecord.isSentinel, EventRecord.isSentinelType, sentinelTypes] using h
  exact any_eq_true.mpr ⟨record.eventType, hmem, mentions_eventType record⟩

theorem mentions_of_eventType (h : record.eventType = eventType) :
    mentions (StrEnum.value eventType) record.dumpJson = true := by
  rw [← h]
  exact mentions_eventType record

theorem contains_iff_namedSince (records : List EventRecord) (eventType : EventType) (key : Text) :
    Dict.contains (narrow records eventType).2 key = true ↔ NamedSince records eventType key := by
  induction records using List.reverseRecOn with
  | nil => simp [narrow, NamedSince, since_nil, Dict.contains, Dict.get]
  | append_singleton records record ih =>
    rw [narrow_snoc, NamedSince, since_snoc, ← NamedSince, ← ih, Dict.contains, Dict.contains]
    cases hbatch : record.batchId with
    | none =>
      rw [narrowLine_direct (by rw [lineBatchId_dumpJson, hbatch]; rfl)]
      simp
    | some batchId =>
      have hkey : lineBatchId record.dumpJson = some (readBatchId batchId) := by
        rw [lineBatchId_dumpJson, hbatch]
        rfl
      rcases @narrowLine_batch (StrEnum.value eventType) (narrow records eventType).2 _ _ hkey with
        ⟨hsentinel, -, -, hget⟩ | ⟨hkept, -, hget⟩
      · rw [hget]
        by_cases heq : key = readBatchId batchId
        · simp [heq, hsentinel]
        · simp [heq, Ne.symm heq]
      · rw [hget]
        by_cases heq : key = readBatchId batchId
        · subst heq
          cases hcandidate : mentions (StrEnum.value eventType) record.dumpJson
          · cases hsentinel : mentionsSentinel record.dumpJson
            · simp
            · have hempty := not_and.mp hkept hsentinel
              rw [hcandidate] at hempty
              simpa [Dict.contains] using hempty
          · have hplain : mentionsSentinel record.dumpJson = false := by
              rw [Bool.eq_false_iff]
              exact fun hsentinel => hkept ⟨hsentinel, .inl hcandidate⟩
            simp [hplain]
        · simp [heq, Ne.symm heq]

theorem visit_unknown (hknown : record.isKnown = false) (hfails : record.failsReplay = false)
    (buffer : Buffer) : visit buffer record = .ok ([], buffer) := by
  simp [visit, hknown, hfails]

theorem visitAll_snoc (h : visitAll [] (records ++ [record]) = .ok (out, whole)) :
    ∃ early middle late, visitAll [] records = .ok (early, middle) ∧
      visit middle record = .ok (late, whole) ∧ out = early ++ late := by
  obtain ⟨early, middle, late, hearly, hlate, rfl⟩ := visitAll_ok_append h
  obtain ⟨first, next, rest, hfirst, hrest, rfl⟩ := visitAll_cons_ok hlate
  cases hrest
  exact ⟨early, middle, first, hearly, hfirst, by simp⟩

theorem not_fails_of_visit (h : visit whole record = .ok step) : record.failsReplay = false := by
  unfold visit at h
  split at h
  · contradiction
  next hfails =>
    simpa using hfails

theorem pending_iff_waits (h : visitAll [] records = .ok (out, whole)) (eventType : EventType)
    (batchId : String) :
    (whole.pending batchId).filter (·.eventType = eventType) ≠ [] ↔ Waits records eventType batchId := by
  induction records using List.reverseRecOn generalizing out whole with
  | nil =>
    cases h
    simp [Waits, since_nil, Buffer.pending]
  | append_singleton records record ih =>
    obtain ⟨early, middle, late, hearly, hvisit, -⟩ := visitAll_snoc h
    rw [Waits, since_snoc, ← Waits, ← ih hearly]
    cases hknown : record.isKnown with
    | false =>
      rw [visit_unknown hknown (not_fails_of_visit hvisit)] at hvisit
      cases hvisit
      simp
    | true =>
      rw [visit_known hknown] at hvisit
      cases hbatch : record.batchId with
      | none =>
        rw [hbatch] at hvisit
        cases hvisit
        simp
      | some own =>
        cases hsentinel : record.isSentinel with
        | true =>
          simp only [hbatch, hsentinel] at hvisit
          cases hvisit
          rw [Buffer.pending_erase]
          by_cases heq : batchId = own
          · simp [heq]
          · simp [heq, Ne.symm heq]
        | false =>
          simp only [hbatch, hsentinel] at hvisit
          cases hvisit
          rw [Buffer.pending_push]
          by_cases heq : batchId = own
          · subst heq
            by_cases htype : record.eventType = eventType
            · simp [htype]
            · simp [htype]
          · simp [heq, Ne.symm heq]

/-- A line that may wait under a batch id: that of a record of the batch that is no sentinel. -/
def Waiting (key line : Text) : Prop :=
  ∃ record : EventRecord, line = record.dumpJson ∧ record.isSentinel = false ∧
    record.failsReplay = false ∧ record.batchId.map readBatchId = some key

def inBatch (batchId : String) (record : EventRecord) : Bool :=
  record.isKnown && (record.batchId = some batchId)

/-- The scan of the narrowed lines keeps back what the full scan does, but for the lines that still
wait in the filter. -/
structure Agrees (eventType : EventType) (pending : PendingLines) (whole narrowed : Buffer) : Prop where
  waiting : ∀ key, ∀ line ∈ Dict.getList pending key, Waiting key line
  same : ∀ batchId, (whole.pending batchId).filter (·.eventType = eventType) =
    (narrowed.pending batchId ++
      (parsedRecords (Dict.getList pending (readBatchId batchId))).filter (inBatch batchId)).filter
        (·.eventType = eventType)

theorem parsedRecords_cons_dump (record : EventRecord) (lines : List Text) :
    parsedRecords (record.dumpJson :: lines) = record :: parsedRecords lines := by
  rw [parsedRecords, filterMap_cons, EventRecord.validateJson_dumpJson, ← parsedRecords]

theorem visitAll_cons (hvisit : visit whole record = .ok step)
    (hrest : visitAll step.2 records = .ok late) :
    visitAll whole (record :: records) = .ok (step.1 ++ late.1, late.2) := by
  simp [visitAll, hvisit, hrest, bind, Except.bind, pure, Except.pure]

theorem visit_plain (hbatch : record.batchId = some own) (hsentinel : record.isSentinel = false)
    (hfails : record.failsReplay = false) (buffer : Buffer) :
    ∃ next, visit buffer record = .ok ([], next) ∧ ∀ batchId,
      next.pending batchId = buffer.pending batchId ++ [record].filter (inBatch batchId) := by
  cases hknown : record.isKnown with
  | false => exact ⟨buffer, visit_unknown hknown hfails buffer, by simp [inBatch, hknown]⟩
  | true =>
    refine ⟨buffer.push own record, ?_, fun batchId => ?_⟩
    · simp [visit_known hknown, hbatch, hsentinel]
    · rw [Buffer.pending_push]
      by_cases heq : batchId = own
      · simp [inBatch, hknown, hbatch, heq]
      · simp [inBatch, hknown, hbatch, heq, Ne.symm heq]

theorem visitAll_waiting (h : ∀ line ∈ lines, Waiting key line) (buffer : Buffer) :
    ∃ after, visitAll buffer (parsedRecords lines) = .ok ([], after) ∧ ∀ batchId,
      after.pending batchId = buffer.pending batchId ++ (parsedRecords lines).filter (inBatch batchId) := by
  induction lines generalizing buffer with
  | nil => exact ⟨buffer, rfl, by simp [parsedRecords]⟩
  | cons line lines ih =>
    obtain ⟨record, rfl, hsentinel, hfails, hkey⟩ := h line mem_cons_self
    obtain ⟨own, hbatch, -⟩ := Option.map_eq_some_iff.mp hkey
    obtain ⟨next, hvisit, hnext⟩ := visit_plain hbatch hsentinel hfails buffer
    obtain ⟨after, hafter, hpending⟩ := ih (fun other hother => h other (mem_cons_of_mem _ hother)) next
    rw [parsedRecords_cons_dump]
    refine ⟨after, visitAll_cons hvisit hafter, fun batchId => ?_⟩
    rw [hpending, hnext, append_assoc, ← filter_append, singleton_append]

section

variable (h : Agrees eventType pending whole narrowed)
include h

theorem Agrees.release
    (hget : ∀ other, Dict.get after other = if other = key then none else Dict.get pending other) :
    ∃ next, visitAll narrowed (parsedRecords (Dict.getList pending key)) = .ok ([], next) ∧
      Agrees eventType after whole next := by
  have hlist : ∀ other, Dict.getList after other = if other = key then [] else Dict.getList pending other :=
    getList_of_get hget
  obtain ⟨next, hvisit, hnext⟩ := visitAll_waiting (h.waiting key) narrowed
  refine ⟨next, hvisit, fun other line hline => ?_, fun batchId => ?_⟩
  · rw [hlist] at hline
    split at hline
    · contradiction
    · exact h.waiting other line hline
  · rw [h.same, hnext, hlist]
    by_cases heq : readBatchId batchId = key
    · simp [heq, parsedRecords]
    · have hnone : (parsedRecords (Dict.getList pending key)).filter (inBatch batchId) = [] := by
        apply filter_eq_nil_iff.mpr
        intro record hmem hin
        obtain ⟨line, hline, hparsed⟩ := mem_filterMap.mp hmem
        obtain ⟨own, rfl, -, -, hown⟩ := h.waiting key line hline
        rw [EventRecord.validateJson_dumpJson] at hparsed
        cases hparsed
        simp only [inBatch, Bool.and_eq_true, decide_eq_true_eq] at hin
        rw [hin.2] at hown
        exact heq (Option.some.inj hown)
      rw [if_neg heq, hnone, append_nil]

theorem Agrees.read
    (hempty : ∀ batchId, record.batchId = some batchId → Dict.getList pending (readBatchId batchId) = [])
    (hvisit : visit whole record = .ok (out, next)) :
    ∃ found after, visit narrowed record = .ok (found, after) ∧
      found.filter (·.eventType = eventType) = out.filter (·.eventType = eventType) ∧
      Agrees eventType pending next after := by
  cases hknown : record.isKnown with
  | false =>
    have hfails := not_fails_of_visit hvisit
    rw [visit_unknown hknown hfails] at hvisit
    cases hvisit
    exact ⟨[], narrowed, visit_unknown hknown hfails narrowed, rfl, h⟩
  | true =>
    rw [visit_known hknown] at hvisit ⊢
    cases hbatch : record.batchId with
    | none =>
      rw [hbatch] at hvisit
      cases hvisit
      exact ⟨[record], narrowed, rfl, rfl, h⟩
    | some own =>
      have hown := h.same own
      rw [hempty own hbatch] at hown
      simp only [parsedRecords, filterMap_nil, filter_nil, append_nil] at hown
      cases hsentinel : record.isSentinel with
      | true =>
        simp only [hbatch, hsentinel] at hvisit
        cases hvisit
        refine ⟨_, _, rfl, ?_, h.waiting, fun batchId => ?_⟩
        · simp only [filter_append, hown]
        · rw [Buffer.pending_erase, Buffer.pending_erase]
          by_cases heq : batchId = own
          · simp [heq, hempty own hbatch, parsedRecords]
          · rw [if_neg heq, if_neg heq]
            exact h.same batchId
      | false =>
        simp only [hbatch, hsentinel] at hvisit
        cases hvisit
        refine ⟨_, _, rfl, rfl, h.waiting, fun batchId => ?_⟩
        rw [Buffer.pending_push, Buffer.pending_push]
        by_cases heq : batchId = own
        · subst heq
          rw [if_pos rfl, hempty batchId hbatch]
          simp [hown, parsedRecords]
        · rw [if_neg heq, if_neg heq]
          exact h.same batchId

theorem Agrees.wait (hbatch : record.batchId = some own) (hsentinel : record.isSentinel = false)
    (hvisit : visit whole record = .ok (out, next))
    (hget : ∀ other, Dict.get after other = if other =
      readBatchId own then some (Dict.getList pending (readBatchId own) ++
      [record.dumpJson]) else Dict.get pending other) :
    out = [] ∧ Agrees eventType after next narrowed := by
  have hfails := not_fails_of_visit hvisit
  have hlist : ∀ other, Dict.getList after other = if other = readBatchId own then
      Dict.getList pending (readBatchId own) ++ [record.dumpJson] else Dict.getList pending other :=
    getList_of_get hget
  have hwaiting : ∀ key, ∀ line ∈ Dict.getList after key, Waiting key line := by
    intro key line hline
    rw [hlist] at hline
    split at hline
    next heq =>
      rcases mem_append.mp hline with hline | hline
      · exact heq ▸ h.waiting _ line hline
      · refine ⟨record, mem_singleton.mp hline, hsentinel, hfails, ?_⟩
        rw [hbatch, heq]
        rfl
    · exact h.waiting key line hline
  obtain ⟨step, hstep, hnext⟩ := visit_plain hbatch hsentinel hfails whole
  rw [hstep] at hvisit
  cases hvisit
  refine ⟨rfl, hwaiting, fun batchId => ?_⟩
  rw [hnext, filter_append, h.same, hlist]
  by_cases heq : readBatchId batchId = readBatchId own
  · rw [if_pos heq, parsedRecords_append, ← map_singleton (f := EventRecord.dumpJson),
      parsedRecords_dump, heq]
    simp
  · have hne : own ≠ batchId := fun hsame => heq (hsame ▸ rfl)
    rw [if_neg heq]
    simp [inBatch, hbatch, hne]

theorem Agrees.skip (hbatch : record.batchId = some own) (htype : record.eventType ≠ eventType)
    (hnone : record.isKnown = true → record.isSentinel = true →
      (whole.pending own).filter (·.eventType = eventType) = [])
    (hvisit : visit whole record = .ok (out, next)) :
    out.filter (·.eventType = eventType) = [] ∧ Agrees eventType pending next narrowed := by
  cases hsentinel : record.isSentinel with
  | false =>
    obtain ⟨step, hstep, hnext⟩ := visit_plain hbatch hsentinel (not_fails_of_visit hvisit) whole
    rw [hstep] at hvisit
    cases hvisit
    refine ⟨rfl, h.waiting, fun batchId => ?_⟩
    have hother : ([record].filter (inBatch batchId)).filter (·.eventType = eventType) = [] := by
      simp [htype]
    rw [hnext, filter_append, hother, append_nil, h.same]
  | true =>
    cases hknown : record.isKnown with
    | false =>
      rw [visit_unknown hknown (not_fails_of_visit hvisit)] at hvisit
      cases hvisit
      exact ⟨rfl, h⟩
    | true =>
      rw [visit_known hknown] at hvisit
      simp only [hbatch, hsentinel, if_true] at hvisit
      cases hvisit
      have hempty := hnone hknown hsentinel
      refine ⟨by simp [filter_append, hempty, htype], h.waiting, fun batchId => ?_⟩
      rw [Buffer.pending_erase]
      by_cases heq : batchId = own
      · rw [if_pos heq, heq, ← h.same, hempty]
        rfl
      · rw [if_neg heq]
        exact h.same batchId

end

theorem not_eventType_of_not_mentions
    (h : mentions (StrEnum.value eventType) record.dumpJson = false) : record.eventType ≠ eventType := by
  intro heq
  have hmentions := mentions_of_eventType heq
  rw [h] at hmentions
  contradiction

theorem visitAll_one (h : visit whole record = .ok (out, next)) :
    visitAll whole (parsedRecords [record.dumpJson]) = .ok (out, next) := by
  have hparsed : parsedRecords [record.dumpJson] = [record] := parsedRecords_dump [record]
  simp [hparsed, visitAll, h, bind, Except.bind, pure, Except.pure]

/-- What the filter has to do with one record so that the scan of a type misses nothing. -/
def Follows (eventType : EventType) (pending : PendingLines) (record : EventRecord)
    (out : List EventRecord) (next narrowed : Buffer) : Prop :=
  ∃ found after, visitAll narrowed (parsedRecords
      (narrowLine (StrEnum.value eventType) pending record.dumpJson).1) = .ok (found, after) ∧
    found.filter (·.eventType = eventType) = out.filter (·.eventType = eventType) ∧
    Agrees eventType (narrowLine (StrEnum.value eventType) pending record.dumpJson).2 next after

section

variable (h : Agrees eventType pending whole narrowed)
include h

theorem Agrees.step_direct (hbatch : record.batchId = none)
    (hvisit : visit whole record = .ok (out, next)) :
    Follows eventType pending record out next narrowed := by
  have hkey : lineBatchId record.dumpJson = none := by
    rw [lineBatchId_dumpJson, hbatch]
    rfl
  obtain ⟨found, after, hfound, hsame, hafter⟩ := h.read (by simp [hbatch]) hvisit
  unfold Follows
  rw [narrowLine_direct hkey]
  dsimp only
  split
  · exact ⟨found, after, visitAll_one hfound, hsame, hafter⟩
  next hcandidate =>
    have htype := not_eventType_of_not_mentions (Bool.eq_false_iff.mpr hcandidate)
    cases hknown : record.isKnown with
    | false =>
      rw [visit_unknown hknown (not_fails_of_visit hvisit)] at hvisit
      cases hvisit
      exact ⟨[], narrowed, rfl, rfl, h⟩
    | true =>
      rw [visit_known hknown, hbatch] at hvisit
      cases hvisit
      exact ⟨[], narrowed, rfl, by simp [htype], h⟩

theorem Agrees.step_batch (hbatch : record.batchId = some own)
    (hnamed : record.isKnown = true → record.isSentinel = true →
      (whole.pending own).filter (·.eventType = eventType) ≠ [] →
      mentions (StrEnum.value eventType) record.dumpJson = true ∨
      Dict.contains pending (readBatchId own) = true)
    (hvisit : visit whole record = .ok (out, next)) :
    Follows eventType pending record out next narrowed := by
  have hkey : lineBatchId record.dumpJson = some (readBatchId own) := by
    rw [lineBatchId_dumpJson, hbatch]
    rfl
  rcases @narrowLine_batch (StrEnum.value eventType) pending _ _ hkey with
    ⟨-, -, hpassed, hget⟩ | ⟨hkept, hpassed, hget⟩
  · obtain ⟨middle, hrelease, hmiddle⟩ := h.release hget
    have hempty : ∀ batchId, record.batchId = some batchId → Dict.getList
        (narrowLine (StrEnum.value eventType) pending record.dumpJson).2 (readBatchId batchId) = [] := by
      intro batchId heq
      cases hbatch.symm.trans heq
      rw [Dict.getList, hget, if_pos rfl]
      rfl
    obtain ⟨found, after, hfound, hsame, hafter⟩ := hmiddle.read hempty hvisit
    refine ⟨found, after, ?_, hsame, hafter⟩
    rw [hpassed, parsedRecords_append, visitAll_append, hrelease]
    simp [visitAll_one hfound, bind, Except.bind, pure, Except.pure]
  · unfold Follows
    rw [hpassed]
    by_cases hcandidate : mentions (StrEnum.value eventType) record.dumpJson = true
    · have hsentinel : record.isSentinel = false := by
        rw [Bool.eq_false_iff]
        exact fun hsentinel => hkept ⟨mentionsSentinel_of_isSentinel hsentinel, .inl hcandidate⟩
      simp only [hcandidate, and_true] at hget
      obtain ⟨rfl, hafter⟩ := h.wait hbatch hsentinel hvisit hget
      exact ⟨[], narrowed, rfl, rfl, hafter⟩
    · have htype := not_eventType_of_not_mentions (Bool.eq_false_iff.mpr hcandidate)
      have hnone : record.isKnown = true → record.isSentinel = true →
          (whole.pending own).filter (·.eventType = eventType) = [] := by
        intro hknown hsentinel
        by_contra hwaits
        exact hkept ⟨mentionsSentinel_of_isSentinel hsentinel, hnamed hknown hsentinel hwaits⟩
      obtain ⟨hout, hafter⟩ := h.skip hbatch htype hnone hvisit
      have hunchanged : ∀ other, Dict.getList
          (narrowLine (StrEnum.value eventType) pending record.dumpJson).2 other =
            Dict.getList pending other := by
        intro other
        rw [Dict.getList, hget, if_neg fun hnew => hcandidate hnew.2]
        rfl
      refine ⟨[], narrowed, rfl, hout.symm, ?_, ?_⟩
      · intro key line hline
        rw [hunchanged] at hline
        exact hafter.waiting key line hline
      · intro batchId
        rw [hunchanged]
        exact hafter.same batchId

theorem Agrees.step
    (hnamed : ∀ own, record.batchId = some own → record.isKnown = true → record.isSentinel = true →
      (whole.pending own).filter (·.eventType = eventType) ≠ [] →
      mentions (StrEnum.value eventType) record.dumpJson = true ∨
      Dict.contains pending (readBatchId own) = true)
    (hvisit : visit whole record = .ok (out, next)) :
    Follows eventType pending record out next narrowed := by
  cases hbatch : record.batchId with
  | none => exact h.step_direct hbatch hvisit
  | some own => exact h.step_batch hbatch (hnamed own hbatch) hvisit

end

theorem narrowed_scan (hnamed : NamedAtSentinels records eventType)
    (hvisit : visitAll [] records = .ok (out, whole)) :
    ∃ found narrowed, visitAll [] (parsedRecords (narrow records eventType).1) = .ok (found, narrowed) ∧
      found.filter (·.eventType = eventType) = out.filter (·.eventType = eventType) ∧
      Agrees eventType (narrow records eventType).2 whole narrowed := by
  induction records using List.reverseRecOn generalizing out whole with
  | nil =>
    cases hvisit
    refine ⟨[], [], rfl, rfl, ?_, ?_⟩
    · simp [narrow, Dict.getList, Dict.get]
    · simp [narrow, Dict.getList, Dict.get, Buffer.pending, parsedRecords]
  | append_singleton records record ih =>
    obtain ⟨early, middle, late, hearly, hlate, rfl⟩ := visitAll_snoc hvisit
    have hfront : NamedAtSentinels records eventType := by
      intro front sentinel rest batchId hsplit
      exact hnamed front sentinel (rest ++ [record]) batchId (by simp [hsplit])
    obtain ⟨found, narrowed, hfound, hsame, hagrees⟩ := ih hfront hearly
    have hsteady : ∀ earlier ∈ records, earlier.failsReplay = false := visitAll_replays hearly
    have hstep : Follows eventType (narrow records eventType).2 record late whole narrowed := by
      refine hagrees.step (fun own hbatch hknown hsentinel hwaits => ?_) hlate
      rw [contains_iff_namedSince]
      exact hnamed records record [] own rfl hsteady hknown hsentinel hbatch
        ((pending_iff_waits hearly eventType own).mp hwaits)
    obtain ⟨more, after, hmore, hequal, hafter⟩ := hstep
    rw [narrow_snoc]
    refine ⟨found ++ more, after, ?_, ?_, hafter⟩
    · rw [parsedRecords_append, visitAll_append, hfound]
      simp [hmore, bind, Except.bind, pure, Except.pure]
    · rw [filter_append, filter_append, hsame, hequal]

theorem fullScanOfType_eq (h : visitAll [] records = .ok (out, whole)) (eventType : EventType) :
    fullScanOfType records eventType = .ok (out.filter (·.eventType = eventType)) := by
  rw [fullScanOfType, iterCommittedRecordsFromLines, parsedRecords_dump, h]
  rfl

theorem scanOfType_eq {narrowed : Buffer}
    (h : visitAll [] (parsedRecords (narrow records eventType).1) = .ok (found, narrowed)) :
    scanOfType records eventType = .ok (found.filter (·.eventType = eventType)) := by
  rw [scanOfType, iterCommittedRecordsFromLines, linesPossiblyOfType, ← narrow, h]
  rfl

theorem visitAll_of_fullScan (h : fullScanOfType records eventType = .ok found) :
    ∃ out whole, visitAll [] records = .ok (out, whole) ∧
      found = out.filter (·.eventType = eventType) := by
  rw [fullScanOfType, iterCommittedRecordsFromLines, parsedRecords_dump] at h
  obtain ⟨out, hscan, rfl⟩ := map_ok.mp h
  obtain ⟨⟨out, whole⟩, hvisit, rfl⟩ := map_ok.mp hscan
  exact ⟨out, whole, hvisit, rfl⟩

theorem NamedAtSentinels.losesNothing (h : NamedAtSentinels records eventType) :
    LosesNothing records eventType := by
  intro front rest found hsplit hfull
  obtain ⟨out, whole, hvisit, rfl⟩ := visitAll_of_fullScan hfull
  have hfront : NamedAtSentinels front eventType := by
    intro first sentinel more batchId hfirst
    exact h first sentinel (more ++ rest) batchId (by simp [hsplit, hfirst])
  obtain ⟨read, narrowed, hread, hsame, -⟩ := narrowed_scan hfront hvisit
  rw [scanOfType_eq hread, hsame]

theorem LosesNothing.named (h : LosesNothing records eventType) : NamedAtSentinels records eventType := by
  intro front sentinel rest batchId hsplit hsteady hknown hsentinel hbatch hwaits
  by_contra hunnamed
  rw [not_or, ← contains_iff_namedSince] at hunnamed
  obtain ⟨out, whole, hfront⟩ := visitAll_ok [] hsteady
  have hvisit : visit whole sentinel =
      .ok (whole.pending batchId ++ [sentinel], Dict.erase whole batchId) := by
    rw [visit_known hknown, hbatch]
    simp [hsentinel]
  have hnext : visitAll [] (front ++ [sentinel]) =
      .ok (out ++ (whole.pending batchId ++ [sentinel]), Dict.erase whole batchId) := by
    rw [visitAll_append, hfront]
    simp [visitAll, hvisit, bind, Except.bind, pure, Except.pure]
  have hpassed : (narrow (front ++ [sentinel]) eventType).1 = (narrow front eventType).1 := by
    have hkey : lineBatchId sentinel.dumpJson = some (readBatchId batchId) := by
      rw [lineBatchId_dumpJson, hbatch]
      rfl
    rw [narrow_snoc]
    rcases @narrowLine_batch (StrEnum.value eventType) (narrow front eventType).2 _ _ hkey with
      ⟨-, hreleased, -⟩ | ⟨-, hpassed, -⟩
    · exact absurd hreleased (not_or.mpr hunnamed)
    · rw [hpassed, append_nil]
  have hbefore := h front (sentinel :: rest) _ hsplit (fullScanOfType_eq hfront eventType)
  have hafter := h (front ++ [sentinel]) rest _ (by simp [hsplit]) (fullScanOfType_eq hnext eventType)
  have hsame : scanOfType (front ++ [sentinel]) eventType = scanOfType front eventType := by
    rw [scanOfType, scanOfType, linesPossiblyOfType, linesPossiblyOfType, ← narrow, ← narrow, hpassed]
  rw [hsame, hbefore] at hafter
  have hlengths := congrArg List.length (Except.ok.inj hafter)
  have hfound := length_pos_iff.mpr ((pending_iff_waits hfront eventType batchId).mpr hwaits)
  rw [filter_append, filter_append, length_append, length_append] at hlengths
  omega

/-- The scan for a type finds what a full scan finds, however far the log has grown, exactly when
every sentinel that makes a record of the type visible is passed on by the filter. -/
theorem losesNothing_iff (records : List EventRecord) (eventType : EventType) :
    LosesNothing records eventType ↔ NamedAtSentinels records eventType :=
  ⟨LosesNothing.named, NamedAtSentinels.losesNothing⟩

end

def scannedRecord (eventType : EventType) (position : Nat) (watched : String) : EventRecord :=
  { sampleRecord with
    eventType
    sequenceNumber := position
    batch := some { transactionId := "txn-1", batchId := "batch-1", batchPosition := position }
    payload := ⟨[("watched_event_type", .str watched)], rfl⟩ }

/-- An amendment, a record that names a sentinel type in its payload, and the sentinel: the payload
releases the batch, and the amendment is never visible. -/
theorem named_sentinel_hides_amendment :
    ¬LosesNothing [scannedRecord .findingClosureContractAmended 0 "", scannedRecord .findingCreated 1
      "CommitAccepted", scannedRecord .commitAccepted 2 ""] .findingClosureContractAmended := by
  intro h
  have hnamed := h.named [scannedRecord .findingClosureContractAmended 0 "", scannedRecord .findingCreated 1
    "CommitAccepted"] (scannedRecord .commitAccepted 2 "") [] "batch-1" rfl (by decide +kernel)
    (by decide +kernel) (by decide +kernel) rfl
    ⟨[], scannedRecord .findingClosureContractAmended 0 "",
      [scannedRecord .findingCreated 1 "CommitAccepted"], rfl, by decide +kernel, by decide +kernel⟩
  rcases hnamed with hmentions | hsince
  · exact absurd hmentions (by decide +kernel)
  · have hcleared : mentionsSentinel (scannedRecord .findingCreated 1 "CommitAccepted").dumpJson = true := by
      decide +kernel
    rcases (@since_snoc _ [scannedRecord .findingClosureContractAmended 0 ""] _ _ _).mp hsince with
      ⟨-, hkept⟩ | hadded
    · exact hkept ⟨hcleared, rfl⟩
    · exact absurd hadded.2.1 (by rw [hcleared]; decide)

end Flowness.Ledger
