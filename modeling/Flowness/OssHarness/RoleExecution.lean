import Flowness.Library.Json
import Flowness.OssHarness.AttemptLedger

/-!
The execution of one role by `run_wave`, from the claim of its permit on: what can be raised where,
which of it the controller catches, and the settlement it then asks for.
-/

namespace Flowness.OssHarness

open Library

inductive Raised where
  | osError
  | validationError
  | jsonDecodeError
  | otherError
deriving DecidableEq

/-- `except OSError`. -/
def Raised.osHandled (raised : Raised) : Bool := raised = .osError

/-- `except (OSError, ValidationError)`. -/
def Raised.fileHandled (raised : Raised) : Bool :=
  raised = .osError || raised = .validationError

/-- `except (OSError, json.JSONDecodeError, ValidationError)`. -/
def Raised.resultHandled (raised : Raised) : Bool :=
  raised.fileHandled || raised = .jsonDecodeError

/-- What `subprocess.run` comes to: what starting the agent raised, or what it returned and wrote. -/
inductive AgentRun where
  | cannotStart (raised : Raised)
  | exits (returncode : Int) (stdout stderr : Bytes)

structure FileDigest where
  hex : String
  wellFormed : isSha256 ("sha256:" ++ hex).toList = true

structure Launch where
  dryRun : Bool
  tracesCoverage : Bool
  writePrompt : Except Raised Unit
  promptEncodes : Bool
  agent : AgentRun
  decodes : Bytes → Bool
  writeLogs : Except Raised Unit
  resultExists : Except Raised Bool
  preserveRaw : Except Raised Unit
  readResult : Except Raised Bytes
  loads : Text → Except Raised Json
  checkResult : Json → Except Raised Unit
  writeReceipt : Except Raised Unit
  hashReceipt : Except Raised FileDigest

/-- `record["state"]`, as far as the settlement reads it. -/
inductive RecordState where
  | unset
  | failed
  | passed
  | planned
deriving DecidableEq

/-- The arguments of `settle_attempt`. -/
structure Settlement where
  outcome : Outcome
  reasonCode : String
  executionRecord : Option ArtifactRef
  retestRequired : Bool

section

variable (runId roleId : String) (launch : Launch)

def settleWrittenExecution (state : RecordState) : Except Raised Settlement := do
  let digest ← launch.hashReceipt
  let executionRecord : ArtifactRef :=
    { artifactId := "oss-execution:" ++ runId ++ ":" ++ roleId, sha256 := "sha256:" ++ digest.hex }
  if launch.dryRun then
    return ⟨.stopped, "dry_run_not_executed", some executionRecord, true⟩
  else if state = .failed then
    return ⟨.failed, "role_execution_failed", some executionRecord, true⟩
  else
    return ⟨.completed, "role_execution_completed", some executionRecord, false⟩

def persistExecutionAndSettle (state : RecordState) : Except Raised Settlement :=
  match launch.writeReceipt with
  | .ok () => settleWrittenExecution runId roleId launch state
  | .error raised =>
    if raised.fileHandled then .ok ⟨.failed, "execution_receipt_write_failed", none, true⟩
    else .error raised

def runAgent : Except Raised (Int × RecordState) :=
  match launch.agent with
  | .cannotStart raised => if raised.osHandled then .ok (127, .failed) else .error raised
  | .exits returncode stdout stderr =>
    if launch.promptEncodes && launch.decodes stdout && launch.decodes stderr then
      .ok (returncode, .unset)
    else .error .otherError

/-- `stdout.log` and `stderr.log`. -/
def writeStreams (state : RecordState) : Except Raised RecordState :=
  match launch.writeLogs with
  | .ok () => .ok state
  | .error raised => if raised.osHandled then .ok .failed else .error raised

def preserveTrace (state : RecordState) : Except Raised RecordState :=
  if launch.tracesCoverage then
    match launch.resultExists with
    | .error raised => .error raised
    | .ok false => .ok state
    | .ok true =>
      match launch.preserveRaw with
      | .ok () => .ok state
      | .error raised => if raised.fileHandled then .ok .failed else .error raised
  else .ok state

def readAndCheck : Except Raised Unit := do
  let bytes ← launch.readResult
  match decodeText bytes with
  | none => .error .otherError
  | some text =>
    let payload ← launch.loads text
    launch.checkResult payload

def validateOutput (returncode : Int) (state : RecordState) : Except Raised RecordState :=
  if returncode ≠ 0 then .ok .failed
  else if state = .failed then .ok .failed
  else
    match readAndCheck launch with
    | .ok () => .ok .passed
    | .error raised => if raised.resultHandled then .ok .failed else .error raised

/-- `execute` after the claim: the settlement it asks for, or what it raises without one. -/
def executeRole : Except Raised Settlement :=
  match launch.writePrompt with
  | .error raised =>
    if raised.osHandled then persistExecutionAndSettle runId roleId launch .failed else .error raised
  | .ok () =>
    if launch.dryRun then persistExecutionAndSettle runId roleId launch .planned
    else do
      let (returncode, state) ← runAgent launch
      let state ← writeStreams launch state
      let state ← preserveTrace launch state
      let state ← validateOutput launch returncode state
      persistExecutionAndSettle runId roleId launch state

def Validated : Prop :=
  (∃ stdout stderr, launch.agent = .exits 0 stdout stderr) ∧ readAndCheck launch = .ok ()

def Launched : Prop := launch.writePrompt = .ok () ∧ launch.dryRun = false

/-- The raw output was kept apart, or there was none to keep. -/
def Preserved : Prop :=
  launch.tracesCoverage = false ∨ launch.resultExists = .ok false ∨ launch.preserveRaw = .ok ()

/-- Nothing is raised where no handler names it: the prompt is written as text and starting the agent
and writing its logs raise an `OSError` at most, the prompt and the streams have a text form in the
locale, a look for the result of a trace succeeds, what reading and checking the result raises is
named, and a receipt that was written can be read again. -/
structure AllCaught : Prop where
  prompt : ∀ raised, launch.writePrompt = .error raised → raised.osHandled = true
  started : Launched launch → ∀ raised, launch.agent = .cannotStart raised → raised.osHandled = true
  streams : Launched launch → ∀ returncode stdout stderr,
    launch.agent = .exits returncode stdout stderr →
      launch.promptEncodes = true ∧ launch.decodes stdout = true ∧ launch.decodes stderr = true
  logged : Launched launch → ∀ raised, launch.writeLogs = .error raised → raised.osHandled = true
  looked : Launched launch → launch.tracesCoverage = true → ∃ found, launch.resultExists = .ok found
  preserved : Launched launch → launch.tracesCoverage = true → launch.resultExists = .ok true →
    ∀ raised, launch.preserveRaw = .error raised → raised.fileHandled = true
  read : Launched launch → (∃ stdout stderr, launch.agent = .exits 0 stdout stderr) →
    launch.writeLogs = .ok () → Preserved launch →
      ∀ raised, readAndCheck launch = .error raised → raised.resultHandled = true
  receipt : ∀ raised, launch.writeReceipt = .error raised → raised.fileHandled = true
  hashed : launch.writeReceipt = .ok () → ∃ digest, launch.hashReceipt = .ok digest

end

section

variable {runId roleId : String} {launch : Launch} {settlement : Settlement}

variable {returncode : Int} {after state : RecordState}

theorem settleWrittenExecution_ok
    (h : settleWrittenExecution runId roleId launch state = .ok settlement) :
    (∃ digest, launch.hashReceipt = .ok digest ∧ settlement.executionRecord = some
      ⟨"oss-execution:" ++ runId ++ ":" ++ roleId, "sha256:" ++ digest.hex⟩) ∧
    nonEmpty settlement.reasonCode = true ∧
    (settlement.outcome = .completed → launch.dryRun = false ∧ state ≠ .failed) := by
  simp only [settleWrittenExecution, bind_ok] at h
  obtain ⟨digest, hdigest, h⟩ := h
  refine ⟨⟨digest, hdigest, ?_⟩, ?_⟩
  · split at h
    · cases h
      rfl
    · split at h
      · cases h
        rfl
      · cases h
        rfl
  · split at h
    · cases h
      simp [nonEmpty]
    · split at h
      · cases h
        simp [nonEmpty]
      · cases h
        simp_all [nonEmpty]

theorem persist_ok_iff (runId roleId : String) (launch : Launch) (state : RecordState) :
    (∃ settlement, persistExecutionAndSettle runId roleId launch state = .ok settlement) ↔
      (∀ raised, launch.writeReceipt = .error raised → raised.fileHandled = true) ∧
        (launch.writeReceipt = .ok () → ∃ digest, launch.hashReceipt = .ok digest) := by
  unfold persistExecutionAndSettle
  cases hwrite : launch.writeReceipt with
  | ok done =>
    cases hhash : launch.hashReceipt with
    | ok digest =>
      simp only [settleWrittenExecution, hhash, reduceCtorEq, false_implies, implies_true, true_and,
        Except.ok.injEq, exists_eq', iff_true]
      cases launch.dryRun
      · cases state
        all_goals exact ⟨_, rfl⟩
      · exact ⟨_, rfl⟩
    | error raised => simp [settleWrittenExecution, hhash, bind, Except.bind]
  | error raised =>
    cases hhandled : raised.fileHandled
    · simp [hhandled]
    · simp [hhandled]

theorem runAgent_ok_iff : (∃ result, runAgent launch = .ok result) ↔
    (∀ raised, launch.agent = .cannotStart raised → raised.osHandled = true) ∧
      ∀ returncode stdout stderr, launch.agent = .exits returncode stdout stderr →
        launch.promptEncodes = true ∧ launch.decodes stdout = true ∧ launch.decodes stderr = true := by
  unfold runAgent
  cases launch.agent with
  | cannotStart raised =>
    cases hhandled : raised.osHandled
    · simp [hhandled]
    · simp [hhandled]
  | exits returncode stdout stderr =>
    dsimp only
    split
    next hdecodes =>
      simp only [Bool.and_eq_true] at hdecodes
      simp [hdecodes]
    next hraises =>
      simpa using hraises

theorem runAgent_ok (h : runAgent launch = .ok (returncode, state)) :
    (state = .unset ∧ ∃ stdout stderr, launch.agent = .exits returncode stdout stderr) ∨
      (state = .failed ∧ returncode = 127 ∧ ∃ raised, launch.agent = .cannotStart raised) := by
  unfold runAgent at h
  split at h
  next raised hagent =>
    split at h
    · cases h
      exact .inr ⟨rfl, rfl, raised, hagent⟩
    · cases h
  next code stdout stderr hagent =>
    split at h
    · cases h
      exact .inl ⟨rfl, stdout, stderr, hagent⟩
    · cases h

theorem writeStreams_ok_iff (state : RecordState) :
    (∃ after, writeStreams launch state = .ok after) ↔
      ∀ raised, launch.writeLogs = .error raised → raised.osHandled = true := by
  unfold writeStreams
  cases launch.writeLogs with
  | ok done => simp
  | error raised =>
    cases hhandled : raised.osHandled
    · simp [hhandled]
    · simp [hhandled]

theorem writeStreams_ok (h : writeStreams launch state = .ok after) :
    (after = state ∧ launch.writeLogs = .ok ()) ∨ (after = .failed ∧ launch.writeLogs ≠ .ok ()) := by
  unfold writeStreams at h
  cases hwrite : launch.writeLogs with
  | ok done =>
    simp only [hwrite, Except.ok.injEq] at h
    exact .inl ⟨h.symm, rfl⟩
  | error raised =>
    simp only [hwrite] at h
    split at h
    · exact .inr ⟨(Except.ok.inj h).symm, by simp⟩
    · cases h

theorem preserveTrace_ok_iff (state : RecordState) :
    (∃ after, preserveTrace launch state = .ok after) ↔
      (launch.tracesCoverage = true → ∃ found, launch.resultExists = .ok found) ∧
        (launch.tracesCoverage = true → launch.resultExists = .ok true →
          ∀ raised, launch.preserveRaw = .error raised → raised.fileHandled = true) := by
  unfold preserveTrace
  cases launch.tracesCoverage
  · simp
  · cases launch.resultExists with
    | error raised => simp
    | ok found =>
      cases found
      · simp
      · cases launch.preserveRaw with
        | ok done => simp
        | error raised =>
          cases hhandled : raised.fileHandled
          · simp [hhandled]
          · simp [hhandled]

theorem preserveTrace_ok (h : preserveTrace launch state = .ok after) :
    (after = state ∧ Preserved launch) ∨ (after = .failed ∧ ¬Preserved launch) := by
  unfold preserveTrace at h
  unfold Preserved
  split at h
  next htraces =>
    split at h
    · cases h
    next hnone =>
      cases h
      exact .inl ⟨rfl, .inr (.inl hnone)⟩
    next hfound =>
      split at h
      next hkept =>
        cases h
        exact .inl ⟨rfl, .inr (.inr hkept)⟩
      next raised hraised =>
        split at h
        · cases h
          exact .inr ⟨rfl, by simp [htraces, hfound, hraised]⟩
        · cases h
  next htraces =>
    cases h
    exact .inl ⟨rfl, .inl (by simpa using htraces)⟩

theorem validateOutput_ok_iff (returncode : Int) (state : RecordState) :
    (∃ after, validateOutput launch returncode state = .ok after) ↔
      (returncode = 0 → state ≠ .failed →
        ∀ raised, readAndCheck launch = .error raised → raised.resultHandled = true) := by
  unfold validateOutput
  split
  next hcode =>
    simp [hcode]
  next hcode =>
    split
    next hfailed =>
      simp [hfailed]
    next hopen =>
      cases readAndCheck launch with
      | ok done => simp
      | error raised =>
        cases hhandled : raised.resultHandled
        · simpa [hhandled, hopen] using hcode
        · simp [hhandled]

theorem validateOutput_passed (h : validateOutput launch returncode state = .ok after) :
    after = .failed ∨ returncode = 0 ∧ state ≠ .failed ∧ readAndCheck launch = .ok () := by
  unfold validateOutput at h
  split at h
  · cases h
    exact .inl rfl
  next hcode =>
    split at h
    · cases h
      exact .inl rfl
    next hopen =>
      split at h
      next hread =>
        exact .inr ⟨not_not.mp hcode, hopen, hread⟩
      · split at h
        · cases h
          exact .inl rfl
        · cases h

theorem executeRole_launched (hlaunched : Launched launch) :
    executeRole runId roleId launch = .ok settlement ↔
      ∃ result logged kept last, runAgent launch = .ok result ∧
        writeStreams launch result.2 = .ok logged ∧ preserveTrace launch logged = .ok kept ∧
        validateOutput launch result.1 kept = .ok last ∧
        persistExecutionAndSettle runId roleId launch last = .ok settlement := by
  simp only [executeRole, hlaunched.1, hlaunched.2, Bool.false_eq_true, if_false, bind_ok]
  constructor
  · intro h
    obtain ⟨result, hagent, logged, hlogged, kept, hkept, last, hlast, h⟩ := h
    exact ⟨result, logged, kept, last, hagent, hlogged, hkept, hlast, h⟩
  · intro h
    obtain ⟨result, logged, kept, last, hagent, hlogged, hkept, hlast, h⟩ := h
    exact ⟨result, hagent, logged, hlogged, kept, hkept, last, hlast, h⟩

theorem open_of_exits {logged kept : RecordState}
    (hagent : runAgent launch = .ok (returncode, state))
    (hlogged : writeStreams launch state = .ok logged)
    (hkept : preserveTrace launch logged = .ok kept) : returncode = 0 ∧ kept ≠ .failed ↔
      (∃ stdout stderr, launch.agent = .exits 0 stdout stderr) ∧ launch.writeLogs = .ok () ∧
        Preserved launch := by
  constructor
  · intro h
    obtain ⟨rfl, hopen⟩ := h
    obtain ⟨rfl, hpreserved⟩ | ⟨hfailed, -⟩ := preserveTrace_ok hkept
    · obtain ⟨rfl, hlogs⟩ | ⟨hfailed, -⟩ := writeStreams_ok hlogged
      · obtain ⟨-, hexits⟩ | ⟨-, hcode, -⟩ := runAgent_ok hagent
        · exact ⟨hexits, hlogs, hpreserved⟩
        · simp at hcode
      · exact absurd hfailed hopen
    · exact absurd hfailed hopen
  · intro h
    obtain ⟨⟨stdout, stderr, hexits⟩, hlogs, hpreserved⟩ := h
    obtain ⟨rfl, out, err, hcode⟩ | ⟨-, -, raised, hnone⟩ := runAgent_ok hagent
    · rw [hexits] at hcode
      obtain ⟨rfl, -, -⟩ := AgentRun.exits.inj hcode
      obtain ⟨rfl, -⟩ | ⟨-, hlost⟩ := writeStreams_ok hlogged
      · obtain ⟨rfl, -⟩ | ⟨-, hlost⟩ := preserveTrace_ok hkept
        · simp
        · exact absurd hpreserved hlost
      · exact absurd hlogs hlost
    · simp [hexits] at hnone

theorem executeRole_launched_iff (hlaunched : Launched launch) :
    (∃ settlement, executeRole runId roleId launch = .ok settlement) ↔ AllCaught launch := by
  simp only [executeRole_launched hlaunched]
  constructor
  · intro h
    obtain ⟨settlement, ⟨returncode, state⟩, logged, kept, last, hagent, hlogged, hkept, hlast,
      hsettled⟩ := h
    have hstart := runAgent_ok_iff.mp ⟨_, hagent⟩
    have hkeep := (preserveTrace_ok_iff logged).mp ⟨kept, hkept⟩
    have hreceipt := (persist_ok_iff runId roleId launch last).mp ⟨settlement, hsettled⟩
    refine ⟨?_, fun _ => hstart.1, fun _ => hstart.2, fun _ => (writeStreams_ok_iff state).mp
      ⟨logged, hlogged⟩, fun _ => hkeep.1, fun _ => hkeep.2, ?_, hreceipt.1, hreceipt.2⟩
    · simp [hlaunched.1]
    · intro _ hexits hlogs hpreserved
      have hopen := (open_of_exits hagent hlogged hkept).mpr ⟨hexits, hlogs, hpreserved⟩
      exact (validateOutput_ok_iff returncode kept).mp ⟨last, hlast⟩ hopen.1 hopen.2
  · intro h
    obtain ⟨⟨returncode, state⟩, hagent⟩ :=
      runAgent_ok_iff.mpr ⟨h.started hlaunched, h.streams hlaunched⟩
    obtain ⟨logged, hlogged⟩ := (writeStreams_ok_iff state).mpr (h.logged hlaunched)
    obtain ⟨kept, hkept⟩ := (preserveTrace_ok_iff logged).mpr
      ⟨h.looked hlaunched, h.preserved hlaunched⟩
    have hread : returncode = 0 → kept ≠ .failed →
        ∀ raised, readAndCheck launch = .error raised → raised.resultHandled = true := by
      intro hzero hopen
      obtain ⟨hexits, hlogs, hpreserved⟩ :=
        (open_of_exits hagent hlogged hkept).mp ⟨hzero, hopen⟩
      exact h.read hlaunched hexits hlogs hpreserved
    obtain ⟨last, hlast⟩ := (validateOutput_ok_iff returncode kept).mpr hread
    obtain ⟨settlement, hsettled⟩ := (persist_ok_iff runId roleId launch last).mpr
      ⟨h.receipt, h.hashed⟩
    exact ⟨settlement, (returncode, state), logged, kept, last, hagent, hlogged, hkept, hlast, hsettled⟩

theorem allCaught_idle_iff (hidle : ¬Launched launch)
    (hprompt : ∀ raised, launch.writePrompt = .error raised → raised.osHandled = true) :
    AllCaught launch ↔ (∀ raised, launch.writeReceipt = .error raised → raised.fileHandled = true) ∧
      (launch.writeReceipt = .ok () → ∃ digest, launch.hashReceipt = .ok digest) :=
  ⟨fun h => ⟨h.receipt, h.hashed⟩, fun h => ⟨hprompt, fun hl => absurd hl hidle,
    fun hl => absurd hl hidle, fun hl => absurd hl hidle, fun hl => absurd hl hidle,
    fun hl => absurd hl hidle, fun hl => absurd hl hidle, h.1, h.2⟩⟩

theorem executeRole_ok_iff (runId roleId : String) (launch : Launch) :
    (∃ settlement, executeRole runId roleId launch = .ok settlement) ↔ AllCaught launch := by
  cases hprompt : launch.writePrompt with
  | error raised =>
    have hidle : ¬Launched launch := fun h => by simp [Launched, hprompt] at h
    cases hhandled : raised.osHandled
    · simp only [executeRole, hprompt, hhandled, Bool.false_eq_true, if_false, reduceCtorEq,
        exists_false, false_iff]
      intro h
      simp [h.prompt raised hprompt] at hhandled
    · rw [allCaught_idle_iff hidle (by simp [hprompt, hhandled]), ← persist_ok_iff runId roleId launch .failed]
      simp only [executeRole, hprompt, hhandled, if_true]
  | ok done =>
    cases hdry : launch.dryRun
    · exact executeRole_launched_iff ⟨hprompt, hdry⟩
    · have hidle : ¬Launched launch := fun h => by simp [Launched, hdry] at h
      rw [allCaught_idle_iff hidle (by simp [hprompt]), ← persist_ok_iff runId roleId launch .planned]
      simp only [executeRole, hprompt, hdry, if_true]

theorem persist_settlement
    (h : persistExecutionAndSettle runId roleId launch state = .ok settlement) :
    settlement.executionRecord.all ArtifactRef.schema = true ∧ nonEmpty settlement.reasonCode = true ∧
      (settlement.outcome = .completed → launch.dryRun = false ∧ state ≠ .failed) := by
  unfold persistExecutionAndSettle at h
  split at h
  · obtain ⟨⟨digest, -, hrecord⟩, hreason, hcompleted⟩ := settleWrittenExecution_ok h
    refine ⟨?_, hreason, hcompleted⟩
    have hid : nonEmpty ("oss-execution:" ++ runId ++ ":" ++ roleId) = true := by
      have hne : "oss-execution:" ++ runId ++ ":" ++ roleId ≠ "" := by
        intro hempty
        have hchars := congrArg String.toList hempty
        simp at hchars
      simp [nonEmpty]
    rw [hrecord, Option.all_some, ArtifactRef.schema, hasSha256Pattern, digest.wellFormed]
    rfl
  · split at h
    · cases h
      simp [nonEmpty]
    · cases h

theorem executeRole_settlement (h : executeRole runId roleId launch = .ok settlement) :
    settlement.executionRecord.all ArtifactRef.schema = true ∧ nonEmpty settlement.reasonCode = true ∧
      (settlement.outcome = .completed → Validated launch) := by
  cases hprompt : launch.writePrompt with
  | error raised =>
    simp only [executeRole, hprompt] at h
    split at h
    · obtain ⟨hrecord, hreason, hcompleted⟩ := persist_settlement h
      exact ⟨hrecord, hreason, fun hdone => absurd rfl (hcompleted hdone).2⟩
    · cases h
  | ok done =>
    cases hdry : launch.dryRun
    · obtain ⟨⟨returncode, state⟩, logged, kept, last, hagent, hlogged, hkept, hlast, hsettled⟩ :=
        (executeRole_launched ⟨hprompt, hdry⟩).mp h
      obtain ⟨hrecord, hreason, hcompleted⟩ := persist_settlement hsettled
      refine ⟨hrecord, hreason, fun hdone => ?_⟩
      obtain hfailed | ⟨hzero, hopen, hread⟩ := validateOutput_passed hlast
      · exact absurd hfailed (hcompleted hdone).2
      · exact ⟨((open_of_exits hagent hlogged hkept).mp ⟨hzero, hopen⟩).1, hread⟩
    · simp only [executeRole, hprompt, hdry, if_true] at h
      obtain ⟨hrecord, hreason, hcompleted⟩ := persist_settlement h
      refine ⟨hrecord, hreason, fun hdone => ?_⟩
      simp [hdry] at hcompleted
      exact absurd hdone hcompleted

theorem persist_retestRequired
    (h : persistExecutionAndSettle runId roleId launch state = .ok settlement) :
    settlement.retestRequired = decide (settlement.outcome ≠ .completed) := by
  unfold persistExecutionAndSettle at h
  split at h
  · simp only [settleWrittenExecution, bind_ok] at h
    obtain ⟨digest, -, h⟩ := h
    split at h
    · cases h
      rfl
    · split at h
      · cases h
        rfl
      · cases h
        rfl
  · split at h
    · cases h
      rfl
    · cases h

theorem executeRole_retestRequired (h : executeRole runId roleId launch = .ok settlement) :
    settlement.retestRequired = decide (settlement.outcome ≠ .completed) := by
  cases hprompt : launch.writePrompt with
  | error raised =>
    simp only [executeRole, hprompt] at h
    split at h
    · exact persist_retestRequired h
    · cases h
  | ok done =>
    cases hdry : launch.dryRun
    · obtain ⟨result, logged, kept, last, -, -, -, -, hsettled⟩ := (executeRole_launched ⟨hprompt, hdry⟩).mp h
      exact persist_retestRequired hsettled
    · simp only [executeRole, hprompt, hdry, if_true] at h
      exact persist_retestRequired h

end

end Flowness.OssHarness
