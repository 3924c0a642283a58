import Flowness.Library.Checked
import Flowness.Library.PyJson

/-!
The stream of the public ledger: its records as they lie in the file and as they are read, the
functions of `Ledger`, and what a write of some bytes leaves of a record.
-/

namespace Flowness.PublicLedger

open Library

/-- A record without its hash; `π` is what its payload is. -/
structure RowBody (π : Type) where
  format : String
  recordId : String
  sequence : Nat
  kind : String
  proposalId : String
  occurredAt : String
  payload : π
  outcome : Option String
  previousRecordHash : Option String
deriving Repr

structure Row (π : Type) extends RowBody π where
  recordHash : String
deriving Repr

abbrev Line := Row Json

/-- A record as `json.loads` or a caller gives it. -/
abbrev Record := Row PyValue

structure LedgerFile where
  lines : List Line
  tail : Nat
deriving Repr

/-- The numbers that float literals denote, `_sha` of a record's text and the length of a line. -/
structure LedgerEnv where
  value : String → ℚ
  sha : RowBody Json → String
  size : Line → Nat

inductive LedgerError where
  | ledger (message : String)
  | type
deriving DecidableEq, Repr

def FORMAT : String := "flowness-ledger-core/v0"

/-- `_canonical`, or none when it raises a TypeError. -/
def RowBody.canonical (env : LedgerEnv) (body : RowBody PyValue) : Option (RowBody Json) :=
  (body.payload.dumps env.value).map fun payload => { body with payload := payload }

def Row.loads (line : Line) : Record := { line with payload := line.payload.loads }

/-- One record of the loop of `_load`. -/
def loadRecord (env : LedgerEnv) (rows : List Record) (line : Line) :
    Except LedgerError (List Record) := do
  let row := line.loads
  require (row.format == FORMAT && row.sequence == rows.length + 1 &&
      row.previousRecordHash == rows.getLast?.map (fun last => last.recordHash) &&
      (row.canonical env).any fun unsigned => row.recordHash == env.sha unsigned)
    (.ledger s!"invalid immutable record at line {rows.length + 1}")
  .ok (rows ++ [row])

def load (env : LedgerEnv) (file : LedgerFile) : Except LedgerError (List Record × Nat) := do
  let rows ← file.lines.foldlM (loadRecord env) []
  require (decide (rows.map fun row => row.recordId).Nodup) (.ledger "duplicate record_id")
  .ok (rows, file.tail)

structure Proposal where
  begun : Record
  records : List Record
  decision : Option Record
deriving Repr

abbrev Proposals := Dict String Proposal

def indexRow (proposals : Proposals) (row : Record) : Except LedgerError Proposals :=
  if row.kind = "proposal" then
    match proposals.get row.proposalId with
    | none => .ok (proposals.set row.proposalId ⟨row, [], none⟩)
    | some _ => .error (.ledger "invalid or duplicate proposal")
  else if row.kind = "proposed_record" then
    match proposals.get row.proposalId with
    | some ⟨begun, records, none⟩ =>
      .ok (proposals.set row.proposalId ⟨begun, records ++ [row], none⟩)
    | _ => .error (.ledger "record outside a pending proposal")
  else if row.kind = "decision" then
    match proposals.get row.proposalId with
    | some ⟨begun, records, none⟩ =>
      if row.outcome = some "accepted" ∨ row.outcome = some "rejected" then
        .ok (proposals.set row.proposalId ⟨begun, records, some row⟩)
      else .error (.ledger "invalid decision outcome")
    | _ => .error (.ledger "invalid decision")
  else .error (.ledger "unknown record kind")

def index (rows : List Record) : Except LedgerError Proposals := rows.foldlM indexRow []

/-- What every call starts with: `_load`, the refusal of an incomplete tail, and `_index`. -/
def readProposals (env : LedgerEnv) (file : LedgerFile) (refusal : String) :
    Except LedgerError (List Record × Proposals) := do
  let (rows, incomplete) ← load env file
  require (incomplete == 0) (.ledger refusal)
  let proposals ← index rows
  .ok (rows, proposals)

/-- The arguments of a call of `_append`. -/
structure AppendRequest where
  kind : String
  proposalId : String
  payload : PyValue
  outcome : Option String
deriving Repr

/-- The record id and the time that a call of `_append` draws. -/
structure Draw where
  recordId : String
  now : String
deriving DecidableEq, Repr

def newBody (rows : List Record) (request : AppendRequest) (draw : Draw) : RowBody PyValue where
  format := FORMAT
  recordId := draw.recordId
  sequence := rows.length + 1
  kind := request.kind
  proposalId := request.proposalId
  occurredAt := draw.now
  payload := request.payload
  outcome := request.outcome
  previousRecordHash := rows.getLast?.map fun last => last.recordHash

/-- `_append` up to its write: the row it returns and the line it writes. -/
def append (env : LedgerEnv) (file : LedgerFile) (request : AppendRequest) (draw : Draw) :
    Except LedgerError (Record × Line) := do
  let (rows, _) ← readProposals env file "run recover before appending after an incomplete tail"
  let body := newBody rows request draw
  match body.canonical env with
  | some unsigned => .ok (⟨body, env.sha unsigned⟩, ⟨unsigned, env.sha unsigned⟩)
  | none => .error .type

/-- A write of the first `bytes` bytes of a line to a file without an incomplete tail. -/
def LedgerFile.write (env : LedgerEnv) (file : LedgerFile) (line : Line) (bytes : Nat) : LedgerFile :=
  if bytes < env.size line then { file with tail := bytes }
  else { file with lines := file.lines ++ [line] }

inductive Verdict where
  | existing (row : Record)
  | appends (requests : List AppendRequest)
deriving Repr

/-- `{"metadata": metadata, "evidence_refs": evidence_refs or []}`. -/
def boundPayload (env : LedgerEnv) (metadata evidenceRefs : PyValue) : PyValue :=
  .dict [(.str "metadata", metadata),
    (.str "evidence_refs", if evidenceRefs.truthy env.value then evidenceRefs else .list [])]

def beginProposal (env : LedgerEnv) (file : LedgerFile) (proposalId : String)
    (metadata evidenceRefs : PyValue) : Except LedgerError Verdict := do
  require (proposalId != "") (.ledger "proposal_id is required")
  let (_, proposals) ← readProposals env file "run recover before beginning a proposal"
  let payload := boundPayload env metadata evidenceRefs
  match proposals.get proposalId with
  | some existing =>
    if existing.begun.payload.eq env.value payload then .ok (.existing existing.begun)
    else .error (.ledger "proposal_id is already bound to different immutable input")
  | none => .ok (.appends [⟨"proposal", proposalId, payload, none⟩])

def appendProposed (env : LedgerEnv) (file : LedgerFile) (proposalId : String)
    (records : List PyValue) : Except LedgerError Verdict := do
  require (!records.isEmpty) (.ledger "at least one proposed record is required")
  let (_, proposals) ← readProposals env file "run recover before appending proposed records"
  require ((proposals.get proposalId).any fun proposal => proposal.decision.isNone)
    (.ledger "proposal is not pending")
  .ok (.appends (records.map fun record => ⟨"proposed_record", proposalId, record, none⟩))

def decideProposal (env : LedgerEnv) (file : LedgerFile) (proposalId outcome : String)
    (metadata evidenceRefs : PyValue) : Except LedgerError Verdict := do
  require (outcome == "accepted" || outcome == "rejected")
    (.ledger "outcome must be accepted or rejected")
  let (_, proposals) ← readProposals env file "run recover before deciding"
  let payload := boundPayload env metadata evidenceRefs
  match proposals.get proposalId with
  | none => .error (.ledger "unknown proposal")
  | some ⟨_, _, some existing⟩ =>
    if existing.outcome = some outcome ∧ existing.payload.eq env.value payload = true then
      .ok (.existing existing)
    else .error (.ledger "conflicting immutable decision")
  | some ⟨_, _, none⟩ => .ok (.appends [⟨"decision", proposalId, payload, some outcome⟩])

inductive ApiCall (value : String → ℚ) where
  | beginProposal (proposalId : String) (metadata evidenceRefs : PyObject value)
  | appendProposed (proposalId : String) (records : List (PyObject value))
  | decide (proposalId outcome : String) (metadata evidenceRefs : PyObject value)

def ApiCall.verdict (env : LedgerEnv) (file : LedgerFile) :
    ApiCall env.value → Except LedgerError Verdict
  | .beginProposal proposalId metadata evidenceRefs =>
    PublicLedger.beginProposal env file proposalId metadata.val evidenceRefs.val
  | .appendProposed proposalId records =>
    PublicLedger.appendProposed env file proposalId (records.map fun record => record.val)
  | .decide proposalId outcome metadata evidenceRefs =>
    decideProposal env file proposalId outcome metadata.val evidenceRefs.val

def committedRows (rows : List Record) (proposals : Proposals) : List Record :=
  rows.filter fun row => row.kind == "proposed_record" &&
    (proposals.get row.proposalId).any fun proposal =>
      proposal.decision.any fun decision => decision.outcome == some "accepted"

def read (env : LedgerEnv) (file : LedgerFile) (view : String) :
    Except LedgerError (List Record) := do
  require (view == "audit" || view == "committed") (.ledger "view must be audit or committed")
  let (rows, proposals) ← readProposals env file "incomplete tail requires recover before reading"
  .ok (if view = "audit" then rows else committedRows rows proposals)

structure RecoveryReport where
  stream : String
  action : String
  affectedBytes : Nat
  pendingProposals : List String
  committedWatermark : Nat
  ledgerHeadSequence : Nat
  ledgerHeadHash : Option String
deriving DecidableEq, Repr

def summarize (action : String) (affectedBytes : Nat) (rows : List Record) (proposals : Proposals)
    (committed : List Record) : RecoveryReport where
  stream := "ledger.jsonl"
  action := action
  affectedBytes := affectedBytes
  pendingProposals :=
    (Dict.keys (proposals.filter fun entry => entry.2.decision.isNone)).insertionSort (· ≤ ·)
  committedWatermark := (committed.getLast?.map fun row => row.sequence).getD 0
  ledgerHeadSequence := (rows.getLast?.map fun row => row.sequence).getD 0
  ledgerHeadHash := rows.getLast?.map fun row => row.recordHash

def recoveryReport (env : LedgerEnv) (file : LedgerFile) (action : String) (affectedBytes : Nat) :
    Except LedgerError RecoveryReport := do
  let (rows, remaining) ← load env file
  require (remaining == 0) (.ledger "tail recovery did not converge")
  let proposals ← index rows
  let committed ← read env file "committed"
  .ok (summarize action affectedBytes rows proposals committed)

/-- `recover` without `persist_report`: what it leaves in the file, and its report. -/
def recover (env : LedgerEnv) (file : LedgerFile) : LedgerFile × Except LedgerError RecoveryReport :=
  match load env file with
  | .error error => (file, .error error)
  | .ok (_, incomplete) =>
    let truncated : LedgerFile := { file with tail := 0 }
    if incomplete = 0 then (file, recoveryReport env file "no_physical_tail_change" incomplete)
    else (truncated, recoveryReport env truncated "truncated_incomplete_tail" incomplete)

end Flowness.PublicLedger
