import Flowness.Ledger.Visibility
import Flowness.Library.Transition

/-!
Writers that crash. Any number of instances share the disk; every locked section is one step, and
a crash leaves some of the bytes of the write it interrupts.
-/

namespace Flowness.Ledger

open Option List Library Schemas

structure LedgerState where
  disk : Disk
  logs : List EventLog
  returned : List (List EventRecord)

variable {log : EventLog} {i : Nat} {write : PendingWrite}

namespace LedgerState

def fresh : LedgerState := { disk := Disk.empty, logs := [], returned := [] }

/-- An instance is opened with the guards its index or its startup scan gave it; `landed` are the
bytes of an interrupted write that reached the file; `active` is the path `recover` took before it
had the lock. -/
inductive Action where
  | openLog (log : EventLog)
  | writeDirect (i : Nat) (intent : EventIntent) (eventId : EventId) (timestamp : Timestamp)
  | appendBatch (i : Nat) (batch : TransactionBatch)
  | crashDirect (i : Nat) (intent : EventIntent) (eventId : EventId) (timestamp : Timestamp)
      (landed : Bytes)
  | crashBatch (i : Nat) (batch : TransactionBatch) (landed : Bytes)
  | recover (i : Nat) (active : { path : SegmentPath // path.listed = true })

/-- A call that returned: instance `i` keeps its new guards. -/
def returns (state : LedgerState) (i : Nat) (log : EventLog) (disk : Disk)
    (records : List EventRecord) : LedgerState :=
  { disk, logs := state.logs.set i log, returned := records :: state.returned }

/-- Instance `i` dies while it writes. -/
def crashes (state : LedgerState) (i : Nat) (write : PendingWrite) (landed : Bytes) :
    Option LedgerState :=
  if landed <+: write.bytes then
    some { state with disk := state.disk.append write.target landed, logs := state.logs.eraseIdx i }
  else none

variable (env : WriterEnv)

def step (state : LedgerState) : Action → Option LedgerState
  | .openLog log => some { state with logs := state.logs ++ [log] }
  | .writeDirect i intent eventId timestamp => do
    let log ← state.logs[i]?
    match writeDirect env log state.disk intent eventId timestamp with
    | .error _ => some state
    | .ok (log, disk, records) => some (state.returns i log disk records)
  | .appendBatch i batch => do
    let log ← state.logs[i]?
    match appendTransactionBatch env log state.disk batch with
    | .error _ => some state
    | .ok (log, disk, records) => some (state.returns i log disk records)
  | .crashDirect i intent eventId timestamp landed => do
    let log ← state.logs[i]?
    match prepareDirect env log state.disk intent eventId timestamp with
    | .error _ => some state
    | .ok write => state.crashes i write landed
  | .crashBatch i batch landed => do
    let log ← state.logs[i]?
    match prepareBatch env log state.disk batch with
    | .error _ => some state
    | .ok write => state.crashes i write landed
  | .recover i active => do
    let log ← state.logs[i]?
    let (disk, result) := recoverAt log state.disk active.val
    match result with
    | .error _ => some { state with disk }
    | .ok (log, _) => some { state with disk, logs := state.logs.set i log }

/-- The file a write appends to is one that readers list, and it ends a line. -/
structure CleanTarget (disk : Disk) (write : PendingWrite) : Prop where
  listed : write.target.listed = true
  endsLine : EndsLine ((disk.read write.target).getD [])

/-- The bytes that reached the file are text and hold no record that stops every replay. -/
structure CleanCrash (landed : Bytes) : Prop where
  text : ∃ text, decodeText landed = some text
  replays : ∀ record ∈ segmentRecords landed, record.failsReplay = false

/-- The steps that do not reach the defect: writes to a file that ends a line, of a schema version
the reader knows, and crashes between two characters. -/
def CleanStep (state : LedgerState) : Action → Prop
  | .openLog _ => True
  | .writeDirect i intent eventId timestamp => ∀ log write, state.logs[i]? = some log →
      prepareDirect env log state.disk intent eventId timestamp = .ok write →
      CleanTarget state.disk write ∧ ∀ record ∈ write.records, record.isKnown = true
  | .appendBatch i batch => ∀ log write, state.logs[i]? = some log →
      prepareBatch env log state.disk batch = .ok write →
      CleanTarget state.disk write ∧ ∀ record ∈ write.records, record.isKnown = true
  | .crashDirect i intent eventId timestamp landed => CleanCrash landed ∧
      ∀ log write, state.logs[i]? = some log →
        prepareDirect env log state.disk intent eventId timestamp = .ok write →
        CleanTarget state.disk write
  | .crashBatch i batch landed => CleanCrash landed ∧
      ∀ log write, state.logs[i]? = some log → prepareBatch env log state.disk batch = .ok write →
        CleanTarget state.disk write
  | .recover _ _ => True

/-- The disk is in physical order and every write that returned stands whole in one segment. -/
structure Durable (state : LedgerState) : Prop where
  physical : Physical state.disk
  replays : ∀ record ∈ state.disk.physicalRecords, record.failsReplay = false
  shaped : ∀ unit ∈ state.returned, WriteUnit unit ∧ ∀ record ∈ unit, record.isKnown = true
  kept : ∀ unit ∈ state.returned, ∃ path : SegmentPath, unit <:+: state.disk.recordsAt path

theorem durable_fresh : Durable fresh := by
  have hnone : ∀ path, fresh.disk.recordsAt path = [] := by
    intro path
    unfold Disk.recordsAt
    cases path with
    | base => exact segmentRecords_nil
    | hot number =>
      split
      · exact segmentRecords_nil
      · rfl
  refine ⟨⟨?_, ?_, ?_⟩, ?_, ?_, ?_⟩
  · intro path content hread _
    cases path with
    | base => rw [← some.inj hread]; exact framed_recordLines []
    | hot number => simp [fresh, Disk.empty, Disk.read] at hread
  · intro path
    rw [hnone]
    exact List.Pairwise.nil
  · intro p q _ left hleft
    rw [hnone] at hleft
    simp at hleft
  · intro record hrecord
    obtain ⟨path, hmem⟩ := Disk.mem_physicalRecords.mp hrecord
    rw [hnone] at hmem
    simp at hmem
  · intro unit hunit
    simp [fresh] at hunit
  · intro unit hunit
    simp [fresh] at hunit

variable {env} {state : LedgerState}

section

variable {target : SegmentPath} {disk : Disk} {landed : List EventRecord}
    (hself : disk.recordsAt target = state.disk.recordsAt target ++ landed)
    (hothers : ∀ q, q ≠ target → disk.recordsAt q = state.disk.recordsAt q)
include hself hothers

private theorem kept_append (h : ∃ path, unit <:+: state.disk.recordsAt path) :
    ∃ path, unit <:+: disk.recordsAt path := by
  obtain ⟨path, hwithin⟩ := h
  refine ⟨path, ?_⟩
  by_cases hpath : path = target
  · subst hpath
    rw [hself]
    exact hwithin.trans (prefix_append _ _).isInfix
  · rw [hothers path hpath]
    exact hwithin

private theorem replays_append
    (hold : ∀ record ∈ state.disk.physicalRecords, record.failsReplay = false)
    (hlanded : ∀ record ∈ landed, record.failsReplay = false) :
    ∀ record ∈ disk.physicalRecords, record.failsReplay = false := by
  intro record hrecord
  obtain ⟨path, hmem⟩ := Disk.mem_physicalRecords.mp hrecord
  by_cases hpath : path = target
  · subst hpath
    rw [hself] at hmem
    rcases mem_append.mp hmem with hmem | hmem
    · exact hold record (Disk.mem_physicalRecords.mpr ⟨path, hmem⟩)
    · exact hlanded record hmem
  · rw [hothers path hpath] at hmem
    exact hold record (Disk.mem_physicalRecords.mpr ⟨path, hmem⟩)

end

theorem Durable.returns (h : Durable state) (i : Nat) (log' : EventLog)
    (hprepared : Prepared log state.disk write) (hclean : CleanTarget state.disk write)
    (hunit : WriteUnit write.records) (hknown : ∀ record ∈ write.records, record.isKnown = true) :
    Durable (state.returns i log' (write.commit state.disk) write.records) := by
  obtain ⟨hphysical, hself, hothers⟩ := h.physical.commit hprepared hclean.listed hclean.endsLine
  refine ⟨hphysical, ?_, ?_, ?_⟩
  · exact replays_append hself hothers h.replays
      (fun record hrecord => failsReplay_of_isKnown (hknown record hrecord))
  · intro unit hmem
    rcases mem_cons.mp hmem with rfl | hmem
    · exact ⟨hunit, hknown⟩
    · exact h.shaped unit hmem
  · intro unit hmem
    rcases mem_cons.mp hmem with rfl | hmem
    · refine ⟨write.target, ?_⟩
      have htail : write.records <:+: (write.commit state.disk).recordsAt write.target := by
        rw [hself]
        exact (suffix_append _ _).isInfix
      exact htail
    · exact kept_append hself hothers (h.kept unit hmem)

theorem Durable.crashes (h : Durable state) {landed : Bytes} {next : LedgerState}
    (hprepared : Prepared log state.disk write) (hclean : CleanTarget state.disk write)
    (hcrash : CleanCrash landed) (hnext : state.crashes i write landed = some next) :
    Durable next := by
  unfold LedgerState.crashes at hnext
  split at hnext
  next hpre =>
    rw [← some.inj hnext]
    obtain ⟨hphysical, -, hself, hothers⟩ :=
      h.physical.append hprepared hclean.listed hclean.endsLine hpre hcrash.text
    refine ⟨hphysical, replays_append hself hothers h.replays hcrash.replays, h.shaped, ?_⟩
    exact fun unit hmem => kept_append hself hothers (h.kept unit hmem)
  · simp at hnext

theorem Durable.recover (h : Durable state) (log : EventLog) (hlisted : path.listed = true)
    (logs : List EventLog) :
    Durable { state with disk := (recoverAt log state.disk path).1, logs } := by
  obtain ⟨hphysical, hself, hothers⟩ := h.physical.recoverAt log path hlisted
  have hsubset : ∀ q record, record ∈ (recoverAt log state.disk path).1.recordsAt q →
      record ∈ state.disk.recordsAt q := by
    intro q record hrecord
    by_cases hq : q = path
    · subst hq
      rw [hself] at hrecord
      obtain ⟨pending, hsplit, -⟩ := settledPrefix_spec (state.disk.recordsAt q)
      rw [hsplit]
      exact mem_append_left _ hrecord
    · rw [hothers q hq] at hrecord
      exact hrecord
  refine ⟨hphysical, ?_, h.shaped, ?_⟩
  · intro record hrecord
    obtain ⟨q, hmem⟩ := Disk.mem_physicalRecords.mp hrecord
    exact h.replays record (Disk.mem_physicalRecords.mpr ⟨q, hsubset q record hmem⟩)
  · intro unit hmem
    obtain ⟨q, hwithin⟩ := h.kept unit hmem
    refine ⟨q, ?_⟩
    by_cases hq : q = path
    · subst hq
      obtain ⟨last, hlast, hsettles⟩ := (h.shaped unit hmem).1.settled
      show unit <:+: (recoverAt log state.disk q).1.recordsAt q
      rw [hself]
      exact infix_settledPrefix hwithin hlast hsettles
    · show unit <:+: (recoverAt log state.disk path).1.recordsAt q
      rw [hothers q hq]
      exact hwithin

end LedgerState

namespace LedgerState

section

variable {env : WriterEnv} {state next : LedgerState}

theorem Durable.step (h : Durable state) (hclean : CleanStep env state action)
    (hstep : LedgerState.step env state action = some next) : Durable next := by
  cases action with
  | openLog log =>
    rw [← some.inj hstep]
    exact ⟨h.physical, h.replays, h.shaped, h.kept⟩
  | writeDirect i intent eventId timestamp =>
    obtain ⟨log, hlog, hresult⟩ := bind_eq_some_iff.mp hstep
    split at hresult
    · rw [← some.inj hresult]
      exact h
    next log' disk' records hwrite =>
      obtain ⟨write, hprepare, rfl, rfl⟩ := writeDirect_ok env hwrite
      obtain ⟨htarget, hknown⟩ := hclean log write hlog hprepare
      rw [← some.inj hresult]
      exact h.returns i log' (prepareDirect_spec env hprepare).1 htarget
        (writeUnit_direct hprepare) hknown
  | appendBatch i batch =>
    obtain ⟨log, hlog, hresult⟩ := bind_eq_some_iff.mp hstep
    split at hresult
    · rw [← some.inj hresult]
      exact h
    next log' disk' records hwrite =>
      obtain ⟨write, hprepare, rfl, rfl⟩ := appendTransactionBatch_ok env hwrite
      obtain ⟨htarget, hknown⟩ := hclean log write hlog hprepare
      rw [← some.inj hresult]
      exact h.returns i log' (prepareBatch_spec env hprepare).1 htarget
        (writeUnit_batch hprepare) hknown
  | crashDirect i intent eventId timestamp landed =>
    obtain ⟨log, hlog, hresult⟩ := bind_eq_some_iff.mp hstep
    split at hresult
    · rw [← some.inj hresult]
      exact h
    next write hprepare =>
      exact h.crashes (prepareDirect_spec env hprepare).1 (hclean.2 log write hlog hprepare)
        hclean.1 hresult
  | crashBatch i batch landed =>
    obtain ⟨log, hlog, hresult⟩ := bind_eq_some_iff.mp hstep
    split at hresult
    · rw [← some.inj hresult]
      exact h
    next write hprepare =>
      exact h.crashes (prepareBatch_spec env hprepare).1 (hclean.2 log write hlog hprepare)
        hclean.1 hresult
  | recover i active =>
    obtain ⟨log, hlog, hresult⟩ := bind_eq_some_iff.mp hstep
    dsimp only at hresult
    split at hresult
    · rw [← some.inj hresult]
      exact h.recover log active.property state.logs
    · rw [← some.inj hresult]
      exact h.recover log active.property _

/-- In every run of clean steps, every record whose write call returned is yielded exactly once by
the committed scan of the state reached. -/
theorem returned_yielded_once {actions : List Action}
    (hrun : Run (LedgerState.step env) (CleanStep env) fresh actions state) :
    ∀ unit ∈ state.returned, ∀ record ∈ unit, ∃ records,
      iterCommittedRecords state.disk = .ok records ∧ records.count record = 1 := by
  have hdurable : Durable state :=
    hrun.invariant durable_fresh (fun _ _ _ h hclean hstep => h.step hclean hstep)
  intro unit hunit
  obtain ⟨hshape, hknown⟩ := hdurable.shaped unit hunit
  obtain ⟨path, hwithin⟩ := hdurable.kept unit hunit
  exact hdurable.physical.yields_once hdurable.replays hshape hknown hwithin

end

def sampleWrite : PendingWrite := { base := 0, target := .base, records := [sampleRecord] }

def tornBase : Disk := { Disk.empty with base := some [123] }

private theorem prepare_fresh :
    prepareDirect sampleEnv {} Disk.empty sampleIntent sampleId sampleTime = .ok sampleWrite := rfl

private theorem prepare_tornBase :
    prepareDirect sampleEnv {} tornBase sampleIntent sampleId sampleTime = .ok sampleWrite := by
  rfl

private theorem opening_landed : [123] <+: sampleWrite.bytes := by
  exact prefix_append _ _

private theorem step_writeDirect {state : LedgerState} (hlog : state.logs[i]? = some log)
    (h : prepareDirect sampleEnv log state.disk sampleIntent sampleId sampleTime = .ok write) :
    LedgerState.step sampleEnv state (.writeDirect i sampleIntent sampleId sampleTime) =
      some (state.returns i (remember log write) (write.commit state.disk) write.records) := by
  have hwrite : writeDirect sampleEnv log state.disk sampleIntent sampleId sampleTime =
      .ok (remember log write, write.commit state.disk, write.records) := by
    unfold writeDirect appendDirectRecord
    rw [if_pos (by decide), h]
    rfl
  unfold LedgerState.step
  simp [hlog, hwrite]

private theorem step_crashDirect {state : LedgerState} {landed : Bytes}
    (hlog : state.logs[i]? = some log)
    (h : prepareDirect sampleEnv log state.disk sampleIntent sampleId sampleTime = .ok write)
    (hpre : landed <+: write.bytes) :
    LedgerState.step sampleEnv state (.crashDirect i sampleIntent sampleId sampleTime landed) =
      some { state with disk := state.disk.append write.target landed,
                        logs := state.logs.eraseIdx i } := by
  unfold LedgerState.step
  simp only [hlog, bind_eq_bind, bind_some, h, LedgerState.crashes, if_pos hpre]

private theorem run_torn {P : LedgerState → LedgerState.Action → Prop}
    (hopen : P fresh (.openLog {}))
    (hcrash : P { fresh with logs := [{}] } (.crashDirect 0 sampleIntent sampleId sampleTime [123]))
    (hreopen : P { disk := tornBase, logs := [], returned := [] } (.openLog {})) :
    Run (LedgerState.step sampleEnv) P fresh
      [.openLog {}, .crashDirect 0 sampleIntent sampleId sampleTime [123], .openLog {}]
      { disk := tornBase, logs := [{}], returned := [] } := by
  have hstep : LedgerState.step sampleEnv { fresh with logs := [{}] }
      (.crashDirect 0 sampleIntent sampleId sampleTime [123]) =
        some { disk := tornBase, logs := [], returned := [] } :=
    step_crashDirect rfl prepare_fresh opening_landed
  exact Run.cons hopen rfl (Run.cons hcrash hstep (Run.cons hreopen rfl Run.nil))

/-- The state when `recover` ran in between. -/
def survivingState : LedgerState :=
  { disk := sampleWrite.commit Disk.empty, logs := [remember {} sampleWrite],
    returned := [[sampleRecord]] }

private theorem cleanTarget_sample {logs : List EventLog} (hlogs : logs = [{}])
    (hlog : logs[0]? = some log)
    (h : prepareDirect sampleEnv log Disk.empty sampleIntent sampleId sampleTime = .ok write) :
    write = sampleWrite ∧ CleanTarget Disk.empty write := by
  subst hlogs
  obtain rfl : {} = log := some.inj hlog
  rw [prepare_fresh] at h
  cases h
  exact ⟨rfl, rfl, Or.inl rfl⟩

/-- A torn line, a recovery, and the same append: the record is yielded once. -/
theorem append_after_recover_survives : ∃ records,
    iterCommittedRecords survivingState.disk = .ok records ∧ records.count sampleRecord = 1 := by
  have hrecover : LedgerState.step sampleEnv { disk := tornBase, logs := [{}], returned := [] }
      (.recover 0 ⟨.base, rfl⟩) = some { fresh with logs := [{}] } := rfl
  have hwrite : LedgerState.step sampleEnv { fresh with logs := [{}] }
      (.writeDirect 0 sampleIntent sampleId sampleTime) = some survivingState :=
    step_writeDirect rfl prepare_fresh
  have hcleanCrash : CleanStep sampleEnv { fresh with logs := [{}] }
      (.crashDirect 0 sampleIntent sampleId sampleTime [123]) := by
    have hlanded : segmentRecords [123] = [] := by decide +kernel
    refine ⟨⟨⟨['{'], decodeText_encodeText ['{']⟩, ?_⟩, ?_⟩
    · rw [hlanded]
      simp
    · exact fun log write hlog h => (cleanTarget_sample rfl hlog h).2
  have hcleanWrite : CleanStep sampleEnv { fresh with logs := [{}] }
      (.writeDirect 0 sampleIntent sampleId sampleTime) := by
    intro log write hlog h
    obtain ⟨rfl, htarget⟩ := cleanTarget_sample rfl hlog h
    refine ⟨htarget, ?_⟩
    intro record hrecord
    rw [mem_singleton.mp hrecord]
    rfl
  have htorn : Run (LedgerState.step sampleEnv) (CleanStep sampleEnv) fresh
      [.openLog {}, .crashDirect 0 sampleIntent sampleId sampleTime [123], .openLog {}]
      { disk := tornBase, logs := [{}], returned := [] } := run_torn trivial hcleanCrash trivial
  have hrecovered := htorn.snoc (show CleanStep sampleEnv _ (.recover 0 _) from trivial) hrecover
  exact returned_yielded_once (hrecovered.snoc hcleanWrite hwrite) _ mem_cons_self _ mem_cons_self

private theorem parse_fused (rest : Text) : Json.parse ('{' :: '{' :: rest) = none := rfl

def fusedState : LedgerState :=
  { disk := sampleWrite.commit tornBase, logs := [remember {} sampleWrite],
    returned := [[sampleRecord]] }

private theorem scan_fused : iterCommittedRecords fusedState.disk = .ok [] := by
  obtain ⟨body, hbody⟩ := Json.render_obj_braces sampleRecord.toEntries
  have hdump : sampleRecord.dumpJson = '{' :: (body ++ ['}']) := hbody
  have hcontent : fusedState.disk.orderedSegments.map Prod.snd =
      [frameLine ('{' :: sampleRecord.dumpJson)] := by
    show [[123] ++ recordLines [sampleRecord]] = _
    rw [recordLines_cons, recordPiece, frameLine]
    rfl
  have hprintable : ∀ c ∈ '{' :: body, 32 ≤ c.toNat := by
    intro c hc
    apply Json.render_printable _ (EventRecord.proper_toJson sampleRecord)
    rw [EventRecord.toJson, hbody]
    rw [← cons_append]
    exact mem_append_left _ hc
  have htidy : Tidy ('{' :: sampleRecord.dumpJson) := by
    rw [hdump, ← cons_append]
    exact Json.tidy_braces hprintable
  have hread : readLines (frameLine ('{' :: sampleRecord.dumpJson)) =
      some ['{' :: sampleRecord.dumpJson] := by
    have hlines := readLines_frameLine_append htidy []
    rw [append_nil, readLines_nil] at hlines
    exact hlines
  have hparsed : parsedRecords ['{' :: sampleRecord.dumpJson] = [] := by
    rw [parsedRecords_singleton, EventRecord.validateJson_of_parse_none]
    · rfl
    · rw [hdump]
      exact parse_fused _
  unfold iterCommittedRecords iterRawEventLines
  rw [hcontent, readSegments, hread]
  simp only [readSegments, Except.map, bind, Except.bind, append_nil]
  rw [iterCommittedRecordsFromLines, hparsed]
  rfl

/-- A torn line and then an append by another process: the record the append returned is part of
an unparsable line, and no scan yields it. -/
theorem torn_line_swallows_append :
    Run (LedgerState.step sampleEnv) (fun _ _ => True) fresh
        [.openLog {}, .crashDirect 0 sampleIntent sampleId sampleTime [123], .openLog {},
          .writeDirect 0 sampleIntent sampleId sampleTime] fusedState ∧
      [sampleRecord] ∈ fusedState.returned ∧
      ∀ records, iterCommittedRecords fusedState.disk = .ok records → sampleRecord ∉ records := by
  have hwrite : LedgerState.step sampleEnv { disk := tornBase, logs := [{}], returned := [] }
      (.writeDirect 0 sampleIntent sampleId sampleTime) = some fusedState :=
    step_writeDirect rfl prepare_tornBase
  refine ⟨(run_torn trivial trivial trivial).snoc trivial hwrite, mem_singleton_self _, ?_⟩
  · intro records hrecords
    rw [scan_fused] at hrecords
    rw [← Except.ok.inj hrecords]
    exact not_mem_nil

end LedgerState

end Flowness.Ledger
