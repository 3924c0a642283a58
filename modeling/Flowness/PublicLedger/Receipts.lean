import Flowness.Library.JsonCode
import Flowness.PublicLedger.RawStream

/-!
Recovery reports as receipts: a report is written once, and is checked against the beginning of the
stream that it names.
-/

namespace Flowness.PublicLedger

open Option List Library

def RECOVERY_REPORT_FORMAT : String := "flowness-ledger-core/recovery-report/v1"

/-- `RecoveryReport.to_dict` without its hash. -/
structure UnsignedReport extends RecoveryReport where
  format : String
  ledgerFormat : String
deriving DecidableEq, Repr

structure StoredReport extends UnsignedReport where
  reportHash : String
deriving DecidableEq, Repr

def RecoveryReport.toDict (hash : UnsignedReport → String) (report : RecoveryReport) : StoredReport :=
  let unsigned : UnsignedReport := ⟨report, RECOVERY_REPORT_FORMAT, FORMAT⟩
  ⟨unsigned, hash unsigned⟩

abbrev Reports := String → Option StoredReport

def persistRecoveryReport (hash : UnsignedReport → String) (reports : Reports)
    (report : RecoveryReport) : Except LedgerError Reports :=
  let stored := report.toDict hash
  match reports stored.reportHash with
  | some found =>
    if found = stored then .ok reports
    else .error (.ledger "immutable recovery report hash collision")
  | none => .ok (Function.update reports stored.reportHash (some stored))

/-- What `_index` and the summary read of a row, with the number that `_load` has checked; a row whose
kind or proposal id is no text fits no branch of `_index`. -/
def asRecord (number : Nat) (row : PyValue) : Option Record :=
  match textOf (field row "kind"), textOf (field row "proposal_id") with
  | some kind, some proposalId => some
      { format := FORMAT, recordId := recordId row, sequence := number, kind := kind,
        proposalId := proposalId, occurredAt := (textOf (field row "occurred_at")).getD "",
        payload := field row "payload", outcome := textOf (field row "outcome"),
        previousRecordHash := previousHash row, recordHash := recordHash row }
  | _, _ => none

/-- How `_index` refuses a row that is no record. -/
def refusal (row : PyValue) : LedgerError :=
  match textOf (field row "kind") with
  | some "proposal" => .ledger "invalid or duplicate proposal"
  | some "proposed_record" => .ledger "record outside a pending proposal"
  | some "decision" => .ledger "invalid decision"
  | _ => .ledger "unknown record kind"

def indexRawRow (indexed : List Record × Proposals) (row : PyValue) :
    Except LedgerError (List Record × Proposals) :=
  match asRecord (indexed.1.length + 1) row with
  | none => .error (refusal row)
  | some record => do
    let proposals ← indexRow indexed.2 record
    .ok (indexed.1 ++ [record], proposals)

/-- `_index`, with the rows as it reads them. -/
def indexRaw (rows : List PyValue) : Except LedgerError (List Record × Proposals) :=
  rows.foldlM indexRawRow ([], [])

def pendingProposals (proposals : Proposals) : List String :=
  (Dict.keys (proposals.filter fun entry => entry.2.decision.isNone)).insertionSort (· ≤ ·)

def committedWatermark (committed : List Record) : Nat :=
  (committed.getLast?.map fun row => row.sequence).getD 0

/-- `verify_recovery_report` of a report that has been read. -/
def verifyReport (env : RawEnv) (hash : UnsignedReport → String) (stream : RawStream)
    (report : StoredReport) : Except LedgerError StoredReport := do
  require (report.format == RECOVERY_REPORT_FORMAT && report.ledgerFormat == FORMAT &&
    report.reportHash == hash report.toUnsignedReport) (.ledger "invalid self-hashed recovery report")
  require (report.stream == "ledger.jsonl") (.ledger "recovery report names an unexpected stream")
  require (report.ledgerHeadSequence != 0 || report.ledgerHeadHash.isNone)
    (.ledger "empty ledger recovery report has a head hash")
  require (report.ledgerHeadSequence == 0 || report.ledgerHeadHash.isSome)
    (.ledger "nonempty ledger recovery report has no head hash")
  let (rows, incomplete) ← loadRaw env stream
  require (incomplete == 0) (.ledger "current ledger has an incomplete tail")
  require (decide (report.ledgerHeadSequence ≤ rows.length))
    (.ledger "recovery report names a future ledger head")
  let front := rows.take report.ledgerHeadSequence
  require (headHash recordHash front == report.ledgerHeadHash)
    (.ledger "recovery report ledger head hash does not match")
  let (records, proposals) ← indexRaw front
  require (report.pendingProposals == pendingProposals proposals &&
    report.committedWatermark == committedWatermark (committedRows records proposals))
    (.ledger "recovery report state summary does not match ledger prefix")
  .ok report

/-- `verify_recovery_report` of a path. -/
def verifyRecoveryReport (env : RawEnv) (hash : UnsignedReport → String) (stream : RawStream)
    (reports : Reports) (path : String) : Except LedgerError StoredReport :=
  match reports path with
  | none => .error (.ledger "recovery report is outside the safe report directory")
  | some report => verifyReport env hash stream report

structure ReportSystem where
  ledger : LedgerSystem
  reports : Reports

inductive ReportAction (value : String → ℚ) where
  | ledger (action : LedgerAction value)
  /-- `recover(persist_report=True)`. -/
  | recoverPersist (process : Nat)

namespace ReportSystem

variable (hash : UnsignedReport → String) (env : LedgerEnv) (state : ReportSystem)

def reportsAfter : Reports :=
  match (PublicLedger.recover env state.ledger.file).2 with
  | .ok report => (persistRecoveryReport hash state.reports report).toOption.getD state.reports
  | .error _ => state.reports

def step : ReportAction env.value → Option ReportSystem
  | .ledger action => (state.ledger.step env action).map fun ledger => { state with ledger := ledger }
  | .recoverPersist process =>
    (state.ledger.step env (.recover process)).map fun ledger => ⟨ledger, state.reportsAfter hash env⟩

end ReportSystem

section

variable {env : LedgerEnv} {hash : UnsignedReport → String} {file : LedgerFile}
  {report : RecoveryReport} {reports : Reports} {path : String} {stored : StoredReport}

theorem persist_keeps (h : persistRecoveryReport hash reports report = .ok reports')
    (hstored : reports path = some stored) : reports' path = some stored := by
  unfold persistRecoveryReport at h
  dsimp only at h
  split at h
  · split at h
    · cases h
      exact hstored
    · cases h
  next hnone =>
    cases h
    have hne : path ≠ (report.toDict hash).reportHash := by
      rintro rfl
      rw [hstored] at hnone
      cases hnone
    rw [Function.update_of_ne hne]
    exact hstored

theorem recover_report (h : recover env file = (file', .ok report)) :
    ∃ action rows incomplete proposals, load env file = .ok (rows, incomplete) ∧
      index rows = .ok proposals ∧ file' = file.truncated ∧
      report = summarize action incomplete rows proposals (committedRows rows proposals) := by
  have hread : Readable env file := by
    unfold recover at h
    split at h
    · cases (Prod.mk.inj h).2
    next rows incomplete hload =>
      have hreport : ∀ {other : LedgerFile} {action : String}, other.lines = file.lines →
          recoveryReport env other action incomplete = .ok report → Readable env file := by
        intro other action hlines hreport
        simp only [recoveryReport, bind_ok, require_ok, exists_const] at hreport
        obtain ⟨⟨found, remaining⟩, hfound, -, proposals, hindex, -⟩ := hreport
        have hfoundRows := load_rows hfound
        rw [hlines, ← load_rows hload] at hfoundRows
        subst hfoundRows
        exact ⟨found, incomplete, proposals, hload, hindex⟩
      split at h
      · exact hreport rfl (Prod.mk.inj h).2
      · have hlines : ({ file with tail := 0 } : LedgerFile).lines = file.lines := rfl
        exact hreport hlines (Prod.mk.inj h).2
  obtain ⟨rows, incomplete, proposals, hload, hindex⟩ := hread
  obtain ⟨action, hrecover⟩ := recover_ok hload hindex
  rw [hrecover] at h
  obtain ⟨hfile, hreport⟩ := Prod.mk.inj h
  exact ⟨action, rows, incomplete, proposals, hload, hindex, hfile.symm,
    (Except.ok.inj hreport).symm⟩

end

section

variable {env : RawEnv} {size : Line → Nat} {hash : UnsignedReport → String} {file : LedgerFile}
  {lines back : List Line} {line : Line} {rows records : List Record} {proposals : Proposals}
  {report : RecoveryReport} {stream : RawStream} {stored : StoredReport}

theorem asRecord_row {number : Nat} (hformat : line.format = FORMAT)
    (hsequence : line.sequence = number) : asRecord number line.row = some line.loads := by
  have hfields : textOf (field line.row "kind") = some line.kind ∧
      textOf (field line.row "proposal_id") = some line.proposalId ∧
      textOf (field line.row "occurred_at") = some line.occurredAt ∧
      field line.row "payload" = line.payload.loads ∧
      textOf (field line.row "outcome") = line.outcome ∧
      previousHash line.row = line.previousRecordHash := by
    rw [row_eq]
    exact ⟨rfl, rfl, rfl, rfl, textOf_optionalValue _, textOf_optionalValue _⟩
  obtain ⟨hkind, hproposal, hoccurred, hpayload, houtcome, hprevious⟩ := hfields
  simp only [asRecord, hkind, hproposal, hoccurred, hpayload, houtcome, hprevious, recordId_row,
    recordHash_row, getD_some, Row.loads, ← hformat, ← hsequence]

theorem indexRaw_rows (hload : lines.foldlM (loadRecord (env.ledger size)) [] = .ok rows)
    (hindex : index rows = .ok proposals) :
    indexRaw (lines.map Row.row) = .ok (rows, proposals) := by
  induction lines using List.reverseRecOn generalizing rows proposals with
  | nil =>
    obtain rfl : [] = rows := Except.ok.inj hload
    obtain rfl : [] = proposals := Except.ok.inj hindex
    rfl
  | append_singleton lines line ih =>
    obtain ⟨before, hbefore, hline⟩ := foldlM_snoc_ok.mp hload
    obtain ⟨haccepted, rfl⟩ := loadRecord_ok.mp hline
    obtain ⟨indexed, hindexed, hrow⟩ := foldlM_snoc_ok.mp hindex
    have hrecord : asRecord (before.length + 1) line.row = some line.loads :=
      asRecord_row haccepted.1 haccepted.2.1
    rw [indexRaw, map_append]
    refine foldlM_snoc_ok.mpr ⟨_, ih hbefore hindexed, ?_⟩
    simp only [indexRawRow, hrecord, bind_ok]
    exact ⟨proposals, hrow, rfl⟩

/-- The rows of a stream, without its incomplete tail, and what is reported of them. -/
structure ReportedAt (env : LedgerEnv) (file : LedgerFile) (report : RecoveryReport) : Prop where
  read : ∃ rows incomplete proposals action, load env file = .ok (rows, incomplete) ∧
    index rows = .ok proposals ∧
    report = summarize action incomplete rows proposals (committedRows rows proposals)

theorem verifyReport_of_load {later : LedgerFile} (hreported : ReportedAt (env.ledger size) file report)
    (hlines : later.lines = file.lines ++ back)
    (hlater : load (env.ledger size) later = .ok (records, 0)) :
    verifyReport env hash later.raw (report.toDict hash) = .ok (report.toDict hash) := by
  obtain ⟨rows, incomplete, proposals, action, hload, hindex, rfl⟩ := hreported.read
  obtain ⟨hrows, -, -⟩ := load_ok.mp hload
  have hsequence := loadRecords_lastSequence hrows
  have hloaded : loadRaw env later.raw = .ok (later.lines.map Row.row, 0) :=
    loadRaw_raw.mpr ⟨⟨records, hlater⟩, rfl⟩
  have hfront : (later.lines.map Row.row).take file.lines.length = file.lines.map Row.row := by
    rw [hlines, map_append, take_left' (length_map _)]
  have hhead : headHash recordHash (file.lines.map Row.row) =
      rows.getLast?.map fun row => row.recordHash := by
    rw [headHash_rows, load_rows hload]
  have hlength : file.lines.length ≤ (later.lines.map Row.row).length := by
    rw [length_map, hlines, length_append]
    omega
  have hempty : rows.length = file.lines.length := by
    rw [load_rows hload, length_map]
  have hnone : file.lines.length = 0 ↔ (rows.getLast?.map fun row => row.recordHash) = none := by
    rw [map_eq_none_iff, List.getLast?_eq_none_iff, ← hempty, length_eq_zero_iff]
  simp only [verifyReport, RecoveryReport.toDict, summarize, hsequence, bind_ok, require_ok,
    exists_const]
  refine ⟨by simp, by simp, ?_, ?_, (later.lines.map Row.row, 0), hloaded, by simp,
    decide_eq_true hlength, ?_, (rows, proposals), ?_, ?_, trivial⟩
  · rw [Bool.or_eq_true, bne_iff_ne, isNone_iff_eq_none, ← hnone]
    omega
  · rw [Bool.or_eq_true, beq_iff_eq, isSome_iff_ne_none, Ne, ← hnone]
    omega
  · rw [hfront, hhead]
    exact beq_self_eq_true _
  · rw [hfront]
    exact indexRaw_rows hrows hindex
  · simp [pendingProposals, committedWatermark]

theorem verifyReport_sound (hsha : Function.Injective env.sha)
    (hreported : ReportedAt (env.ledger size) file report)
    (h : verifyReport env hash stream (report.toDict hash) = .ok stored) :
    ∃ others tail records proposals, loadRaw env stream = .ok (others, tail) ∧
      (others.take file.lines.length).map (rowText env) =
        (file.lines.map Row.row).map (rowText env) ∧
      indexRaw (others.take file.lines.length) = .ok (records, proposals) ∧
      pendingProposals proposals = report.pendingProposals ∧
      committedWatermark (committedRows records proposals) = report.committedWatermark := by
  obtain ⟨rows, incomplete, proposals, action, hload, hindex, rfl⟩ := hreported.read
  obtain ⟨hrows, -, -⟩ := load_ok.mp hload
  have hsequence := loadRecords_lastSequence hrows
  simp only [verifyReport, RecoveryReport.toDict, summarize, hsequence, bind_ok, require_ok,
    exists_const, Bool.and_eq_true, beq_iff_eq] at h
  obtain ⟨-, -, -, -, ⟨others, tail⟩, hothers, -, -, hhead, ⟨found, indexed⟩, hfound, ⟨hpending,
    hwatermark⟩, -⟩ := h
  refine ⟨others, tail, found, indexed, hothers, ?_, hfound, hpending.symm, hwatermark.symm⟩
  have hown : loadRaw env file.raw = .ok (file.lines.map Row.row, incomplete) :=
    loadRaw_raw.mpr ⟨⟨rows, hload⟩, rfl⟩
  have hall : (file.lines.map Row.row).take file.lines.length = file.lines.map Row.row := by
    rw [take_of_length_le (length_map _).le]
  have hsame := rows_pinned hsha hothers hown file.lines.length file.lines.length (by
    rw [hall, headHash_rows, ← load_rows hload]
    exact hhead)
  rw [hsame, hall]

end

def ReadsBackStep (env : LedgerEnv) (state : ReportSystem) : ReportAction env.value → Prop
  | .ledger (.append process draw bytes _) => ∀ request rest row line,
    state.ledger.pending process = request :: rest →
    append env state.ledger.file request draw = .ok (row, line) → env.size line ≤ bytes →
      draw.recordId ∉ state.ledger.file.ids ∧ request.payload.textOrdered env.value = true
  | _ => True

def Loadable (env : LedgerEnv) (file : LedgerFile) : Prop :=
  ∃ rows incomplete, load env file = .ok (rows, incomplete)

section

variable {env : LedgerEnv} {hash : UnsignedReport → String} {file other : LedgerFile}
  {row : Record} {line : Line} {request : AppendRequest} {draw : Draw}
  {state next later : ReportSystem} {action : ReportAction env.value} {path : String}
  {stored : StoredReport}

theorem Loadable.of_prefix (h : Loadable env other) (hbegins : file.lines <+: other.lines) :
    Loadable env file := by
  obtain ⟨rows, incomplete, hload⟩ := h
  obtain ⟨hrows, hnodup, -⟩ := load_ok.mp hload
  obtain ⟨back, hback⟩ := hbegins
  rw [← hback, foldlM_append, bind_ok] at hrows
  obtain ⟨front, hfront, hrest⟩ := hrows
  obtain rfl := loadRecords_eq hrest
  refine ⟨front, file.tail, load_ok.mpr ⟨hfront, ?_, rfl⟩⟩
  exact hnodup.sublist ((sublist_append_left front _).map _)

theorem loadable_of_lines (h : other.lines = file.lines) :
    Loadable env other ↔ Loadable env file :=
  ⟨fun hother => hother.of_prefix (h ▸ prefix_refl _),
    fun hfile => hfile.of_prefix (h ▸ prefix_refl _)⟩

theorem loadable_add_iff (hsha : Function.Injective env.sha)
    (happend : append env file request draw = .ok (row, line)) :
    Loadable env (file.add line) ↔
      draw.recordId ∉ file.ids ∧ request.payload.textOrdered env.value = true := by
  obtain ⟨rows, proposals, tree, hload, -, htree, -, hline, -, hhash⟩ := append_ok happend
  constructor
  · rintro ⟨all, incomplete, hall⟩
    obtain ⟨haccepted, hfresh, -, -⟩ := (load_add hload).mp hall
    have hid : line.recordId = draw.recordId := by
      rw [hline]
      rfl
    refine ⟨hid ▸ hfresh, (dumps_loads_iff env.value htree).mp ?_⟩
    obtain ⟨body, hbody, hsame⟩ := map_eq_some_iff.mp haccepted.2.2.2
    have hequal : body = line.toRowBody := hsha (hsame.trans hhash)
    obtain ⟨payload, hpayload, rfl⟩ := map_eq_some_iff.mp hbody
    have hloads : line.loads.payload = tree.loads := by
      simp [Row.loads, hline]
    rw [hloads] at hpayload
    have hsamePayload : payload = line.payload := congrArg RowBody.payload hequal
    rw [hpayload, hsamePayload, hline]
  · rintro ⟨hfresh, hordered⟩
    exact ⟨_, _, load_appended happend hload hfresh hordered⟩

theorem loadable_step_iff (hsha : Function.Injective env.sha)
    (h : Loadable env state.ledger.file) (hstep : state.step hash env action = some next) :
    Loadable env next.ledger.file ↔ ReadsBackStep env state action := by
  have hsame : next.ledger.file.lines = state.ledger.file.lines →
      ReadsBackStep env state action →
      (Loadable env next.ledger.file ↔ ReadsBackStep env state action) :=
    fun hlines hreads => iff_of_true ((loadable_of_lines hlines).mpr h) hreads
  cases action with
  | recoverPersist process =>
    obtain ⟨ledger, hledger, rfl⟩ := map_eq_some_iff.mp hstep
    simp only [LedgerSystem.step] at hledger
    obtain ⟨-, hledger⟩ := ite_none_right_eq_some.mp hledger
    cases hledger
    exact hsame (recover_lines env _) trivial
  | ledger action =>
    obtain ⟨ledger, hledger, rfl⟩ := map_eq_some_iff.mp hstep
    cases action with
    | append process draw bytes returns =>
      simp only [LedgerSystem.step, LedgerSystem.appendNext] at hledger
      split at hledger
      · cases hledger
      next request rest hpending =>
        split at hledger
        next error herror =>
          cases hledger
          refine hsame rfl fun request' rest' row line hpending' happend => ?_
          rw [hpending] at hpending'
          obtain ⟨rfl, rfl⟩ := List.cons.inj hpending'
          rw [herror] at happend
          cases happend
        next row line happend =>
          obtain ⟨hbytes, hledger⟩ := ite_none_right_eq_some.mp hledger
          cases hledger
          rcases write_cases state.ledger.file hbytes with ⟨hshort, hlines⟩ | ⟨hwhole, hfile⟩
          · refine hsame hlines fun request' rest' row' line' hpending' happend' hsize => ?_
            rw [hpending] at hpending'
            obtain ⟨rfl, rfl⟩ := List.cons.inj hpending'
            rw [happend] at happend'
            cases happend'
            omega
          · show Loadable env (state.ledger.file.write env line bytes) ↔ _
            rw [hfile, loadable_add_iff hsha happend]
            constructor
            · intro hreads request' rest' row' line' hpending' happend' _
              rw [hpending] at hpending'
              obtain ⟨rfl, rfl⟩ := List.cons.inj hpending'
              exact hreads
            · intro hreads
              exact hreads request rest row line hpending happend hwhole.ge
    | call process call =>
      cases step_move hledger with
      | requested => exact hsame rfl trivial
      | unchanged => exact hsame rfl trivial
      | dropped => exact hsame rfl trivial
    | die process =>
      cases hledger
      exact hsame rfl trivial
    | read process view =>
      obtain ⟨-, hledger⟩ := ite_none_right_eq_some.mp hledger
      cases hledger
      exact hsame rfl trivial
    | recover process =>
      obtain ⟨-, hledger⟩ := ite_none_right_eq_some.mp hledger
      cases hledger
      exact hsame (recover_lines env _) trivial

theorem reportStep_lines (hstep : state.step hash env action = some next) :
    state.ledger.file.lines <+: next.ledger.file.lines := by
  cases action with
  | ledger action =>
    obtain ⟨ledger, hledger, rfl⟩ := map_eq_some_iff.mp hstep
    exact step_lines hledger
  | recoverPersist process =>
    obtain ⟨ledger, hledger, rfl⟩ := map_eq_some_iff.mp hstep
    exact step_lines hledger

theorem reportStep_keeps (hstep : state.step hash env action = some next)
    (hstored : state.reports path = some stored) : next.reports path = some stored := by
  cases action with
  | ledger action =>
    obtain ⟨ledger, -, rfl⟩ := map_eq_some_iff.mp hstep
    exact hstored
  | recoverPersist process =>
    obtain ⟨ledger, -, rfl⟩ := map_eq_some_iff.mp hstep
    show ReportSystem.reportsAfter hash env state path = some stored
    unfold ReportSystem.reportsAfter
    cases (recover env state.ledger.file).2 with
    | error error => exact hstored
    | ok report =>
      dsimp only
      cases hpersist : persistRecoveryReport hash state.reports report with
      | error error => exact hstored
      | ok reports => exact persist_keeps hpersist hstored

abbrev ReportRun (hash : UnsignedReport → String) (env : LedgerEnv)
    (guard : ReportSystem → ReportAction env.value → Prop) :
    ReportSystem → List (ReportAction env.value) → ReportSystem → Prop :=
  Run (fun state action => ReportSystem.step hash env state action) guard

theorem loadable_run_iff (hsha : Function.Injective env.sha)
    {labels : List (ReportAction env.value)} (h : Loadable env state.ledger.file)
    (hrun : ReportRun hash env (fun _ _ => True) state labels later) :
    Loadable env later.ledger.file ↔ ReportRun hash env (ReadsBackStep env) state labels later := by
  constructor
  · intro hlater
    induction hrun with
    | nil => exact .nil
    | snoc _ _ hstep ih =>
      have hbefore := hlater.of_prefix (reportStep_lines hstep)
      exact .snoc (ih hbefore) ((loadable_step_iff hsha hbefore hstep).mp hlater) hstep
  · intro hreads
    exact hreads.invariant (I := fun reached => Loadable env reached.ledger.file) h
      fun _ _ _ hloadable hguard hstep => (loadable_step_iff hsha hloadable hstep).mpr hguard

end

section

variable {env : RawEnv} {size : Line → Nat} {hash : UnsignedReport → String}

theorem body_json_injective : Function.Injective RowBody.json := by
  have hoptional : Function.Injective optionalText := by
    intro a b h
    cases a <;> cases b <;> simp_all [optionalText]
  intro a b h
  cases a
  cases b
  simp only [RowBody.json, Json.obj.injEq, List.cons.injEq, Prod.mk.injEq, Json.str.injEq,
    Json.int.injEq, Int.natCast_inj, true_and, and_true] at h
  obtain ⟨hformat, hkind, hoccurred, houtcome, hpayload, hprevious, hproposal, hid, hsequence⟩ := h
  rw [hformat, hkind, hoccurred, hoptional houtcome, hpayload, hoptional hprevious, hproposal, hid,
    hsequence]

theorem ledger_sha_injective (hsha : Function.Injective env.sha) :
    Function.Injective (env.ledger size).sha :=
  hsha.comp body_json_injective

end

section

def codeEnv : RawEnv := ⟨textEnv.value, Json.code⟩

def unitSize (_ : Line) : Nat := 1

abbrev codeLedger : LedgerEnv := codeEnv.ledger unitSize

def reportName (report : UnsignedReport) : String :=
  report.action ++ toString report.ledgerHeadSequence

def emptyReports : ReportSystem := ⟨.initial, fun _ => none⟩

def emptyReport : RecoveryReport :=
  ⟨"ledger.jsonl", "no_physical_tail_change", 0, [], 0, 0, none⟩

def reportedEmpty : ReportSystem :=
  ⟨{ LedgerSystem.initial with file := (recover codeLedger LedgerSystem.initial.file).1 },
    emptyReports.reportsAfter reportName codeLedger⟩

theorem reportedEmpty_written :
    emptyReports.step reportName codeLedger (.recoverPersist 0) = some reportedEmpty ∧
    recover codeLedger emptyReports.ledger.file = (emptyFile, .ok emptyReport) ∧
    reportedEmpty.reports (emptyReport.toDict reportName).reportHash =
      some (emptyReport.toDict reportName) := by
  have hrecover : recover codeLedger emptyReports.ledger.file = (emptyFile, .ok emptyReport) := by
    rfl
  refine ⟨rfl, hrecover, ?_⟩
  have hreports : reportedEmpty.reports = emptyReports.reportsAfter reportName codeLedger := rfl
  have hpersist : persistRecoveryReport reportName emptyReports.reports emptyReport =
      .ok (Function.update emptyReports.reports (emptyReport.toDict reportName).reportHash
        (some (emptyReport.toDict reportName))) := rfl
  rw [hreports, ReportSystem.reportsAfter, hrecover]
  dsimp only
  rw [hpersist, Except.toOption, getD_some, Function.update_self]

/-- One `begin_proposal` after the report. -/
def begunAfter (metadata : PyObject codeLedger.value) (bytes : Nat) :
    List (ReportAction codeLedger.value) :=
  [.ledger (.call 0 (.beginProposal "p" metadata noEvidence)),
    .ledger (.append 0 ⟨"r1", "t1"⟩ bytes true)]

def reportEnd (labels : List (ReportAction codeLedger.value)) : ReportSystem :=
  (labels.foldlM (fun (state : ReportSystem) action => state.step reportName codeLedger action)
    reportedEmpty).getD reportedEmpty

/-- `ReadsBackStep`, computed. -/
def readsBackStep (env : LedgerEnv) (state : ReportSystem) : ReportAction env.value → Bool
  | .ledger (.append process draw _ _) =>
    match state.ledger.pending process with
    | [] => true
    | request :: _ =>
      decide (draw.recordId ∉ state.ledger.file.ids) && request.payload.textOrdered env.value
  | _ => true

theorem readsBackStep_sound (env : LedgerEnv) (state : ReportSystem)
    (action : ReportAction env.value) (h : readsBackStep env state action = true) :
    ReadsBackStep env state action := by
  cases action with
  | ledger action =>
    cases action with
    | append process draw bytes returns =>
      intro request rest row line hpending _ _
      simpa only [readsBackStep, hpending, Bool.and_eq_true, decide_eq_true_eq] using h
    | _ => trivial
  | recoverPersist process => trivial

end

end Flowness.PublicLedger
