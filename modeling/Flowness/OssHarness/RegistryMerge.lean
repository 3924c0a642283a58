import Mathlib.Data.List.Infix
import Flowness.Library.Checked
import Flowness.Library.PyJson
import Flowness.Library.SortedSet
import Mathlib.Data.Prod.Lex

/-!
`merge_reconciled_registries`: the registries of several runs become one, with ids prefixed by the
run, mechanisms of one id folded into one, and a blocker for whatever does not fit.
-/

namespace Flowness.OssHarness

open Library

/-- The numbers that float literals denote, `canonical_hash`, and the text of a value in a message. -/
structure MergeEnv where
  value : String → ℚ
  canonicalHash : PyValue → String
  repr : PyValue → String

inductive MergeError where
  | noGroups
  | overwrite (paths : List String)
  | unsafeRunId (group : Nat)
deriving DecidableEq, Repr

structure RegistryFile where
  path : String
  name : String
  fileHash : String
  items : List PyItem

structure RegistryGroup where
  reportPath : String
  reportFileHash : String
  report : PyItem
  mechanisms : RegistryFile
  unknowns : RegistryFile
  driftFindings : RegistryFile

structure LoadedGroup extends RegistryGroup where
  runId : String

/-- `SAFE_COMPONENT`. -/
def isSafeComponent (text : String) : Bool :=
  match text.toList with
  | [] => false
  | first :: rest => first.isAlphanum && rest.length ≤ 127 &&
      rest.all fun c => c.isAlphanum || c == '.' || c == '_' || c == '-'

def loadGroup (entry : RegistryGroup × Nat) : Except MergeError LoadedGroup :=
  match entry.1.report.text "run_id" with
  | some runId =>
    if isSafeComponent runId then .ok ⟨entry.1, runId⟩ else .error (.unsafeRunId entry.2)
  | none => .error (.unsafeRunId entry.2)

structure Blocker where
  code : String
  runId : String
  objectId : String
  detail : String
deriving DecidableEq, Repr

structure Provenance where
  runId : String
  sourceRoles : List String
deriving DecidableEq, Repr

structure MergedMechanism where
  definition : PyItem
  knownDrift : List String
  evidence : List PyItem
  sourceRoles : List String
  sourceRuns : List String
  sourceProvenance : List Provenance

structure MergeState where
  blockers : List Blocker
  seenRuns : List String
  evidenceDefinitions : Dict String (String × PyItem)
  mechanismDefinitions : Dict String PyItem
  mechanisms : Dict String MergedMechanism
  unknowns : List PyItem
  driftFindings : List PyItem

def MergeState.initial : MergeState := ⟨[], [], [], [], [], [], []⟩

/-- `_add_blocker`. -/
def MergeState.block (state : MergeState) (blocker : Blocker) : MergeState :=
  { state with blockers := state.blockers ++ [blocker] }

def prefixedId (runId value : String) : String := runId ++ "::" ++ value

def evidenceDefinition (evidence : PyItem) : PyItem :=
  evidence.without ["source_run_id", "reconciled_evidence_id"]

/-- `_rewrite_evidence` of evidence that has an id. -/
def rewriteEvidence (runId evidenceId : String) (evidence : PyItem) : PyItem :=
  ((evidence.put "evidence_id" (.str (prefixedId runId evidenceId))).put "reconciled_evidence_id"
    (.str evidenceId)).put "source_run_id" (.str runId)

def mechanismSemantics (mechanism : PyItem) : PyItem :=
  mechanism.without ["evidence", "known_drift", "source_roles", "source_runs", "source_provenance"]

def countsBlocker (env : MergeEnv) (group : LoadedGroup) : List Blocker :=
  let length (key : String) : Int :=
    match group.report.member key with
    | .list items => items.length
    | _ => -1
  let expected : List (String × Int) :=
    [("mechanisms", group.mechanisms.items.length), ("unknowns", group.unknowns.items.length),
      ("drift_findings", group.driftFindings.items.length), ("blockers", length "blockers"),
      ("warnings", length "warnings"), ("roles", length "roles")]
  let matching :=
    match group.report.member "counts" with
    | .dict counts => expected.all fun entry =>
        (PyItem.member counts entry.1).eq env.value (.int entry.2)
    | _ => false
  if matching then []
  else
    [⟨"reconciliation_count_mismatch", group.runId, "",
      "report counts do not match registries: expected " ++
        env.repr (.dict (expected.map fun entry => (.str entry.1, .int entry.2)))⟩]

def bindingBlocker (env : MergeEnv) (group : LoadedGroup) (registry : String × RegistryFile) :
    List Blocker :=
  let binding :=
    match group.report.member "outputs" with
    | .dict outputs => PyItem.member outputs registry.1
    | _ => .none
  let actual : PyValue := .dict
    [(.str "filename", .str registry.2.name), (.str "count", .int registry.2.items.length),
      (.str "content_hash", .str (env.canonicalHash (.list (registry.2.items.map .dict)))),
      (.str "file_sha256", .str ("sha256:" ++ registry.2.fileHash))]
  match binding with
  | .dict entries =>
    if (PyValue.dict entries).eq env.value actual then []
    else
      [⟨"reconciliation_registry_binding_mismatch", group.runId, registry.1,
        "sealed binding differs for " ++ registry.1 ++ ": expected " ++ env.repr (.dict entries) ++
          ", actual " ++ env.repr actual⟩]
  | _ =>
    [⟨"reconciliation_registry_binding_missing", group.runId, registry.1,
      "missing output binding for " ++ registry.1⟩]

def reportBlockers (env : MergeEnv) (group : LoadedGroup) : List Blocker :=
  let unsigned := group.report.without ["report_hash"]
  let state := group.report.member "state"
  (if group.report.text "report_hash" = some (env.canonicalHash (.dict unsigned)) then []
    else [⟨"invalid_reconciliation_report_hash", group.runId, "",
      "reconciliation report self-hash does not match"⟩]) ++
  (if state.eq env.value (.str "reconciled") then []
    else [⟨"reconciliation_not_passed", group.runId, "",
      "expected report state reconciled, got " ++ env.repr state⟩]) ++
  (if (group.report.member "blockers").eq env.value (.list []) then []
    else [⟨"reconciliation_has_blockers", group.runId, "",
      "input reconciliation report must have blockers=[]"⟩]) ++
  (match group.report.member "outputs" with
    | .dict _ => []
    | _ => [⟨"reconciliation_registry_binding_missing", group.runId, "",
      "reconciliation report has no outputs registry bindings"⟩]) ++
  [("mechanisms", group.mechanisms), ("unknowns", group.unknowns),
    ("drift_findings", group.driftFindings)].flatMap (bindingBlocker env group) ++
  countsBlocker env group

def checkReport (env : MergeEnv) (group : LoadedGroup) (state : MergeState) : MergeState :=
  let duplicate : List Blocker :=
    if group.runId ∈ state.seenRuns then
      [⟨"duplicate_run_id", group.runId, "", "the same run_id was supplied more than once"⟩]
    else []
  { state with
    blockers := state.blockers ++ (duplicate ++ reportBlockers env group)
    seenRuns := state.seenRuns ++ [group.runId] }

def noteEvidence (env : MergeEnv) (runId evidenceId : String) (definition : PyItem)
    (state : MergeState) : MergeState :=
  match state.evidenceDefinitions.get evidenceId with
  | some (previousRun, previous) =>
    if previous.same env.value definition then
      { state with
        evidenceDefinitions := state.evidenceDefinitions.set evidenceId (runId, definition) }
    else
      state.block ⟨"conflicting_cross_run_evidence_definition", runId, evidenceId,
        "evidence_id differs from definition in run " ++ previousRun⟩
  | none =>
    { state with
      evidenceDefinitions := state.evidenceDefinitions.set evidenceId (runId, definition) }

def trackItem (env : MergeEnv) (runId ownerId : String) (tracked : MergeState × List PyItem)
    (evidence : PyItem) : MergeState × List PyItem :=
  match evidence.id "evidence_id" with
  | none =>
    (tracked.1.block ⟨"invalid_evidence_id", runId, ownerId, "evidence item requires evidence_id"⟩,
      tracked.2)
  | some evidenceId =>
    (noteEvidence env runId evidenceId (evidenceDefinition evidence) tracked.1,
      tracked.2 ++ [rewriteEvidence runId evidenceId evidence])

def trackAndRewriteEvidence (env : MergeEnv) (runId ownerId : String) (state : MergeState)
    (evidence : PyValue) : MergeState × List PyItem :=
  match evidence.items with
  | none =>
    (state.block ⟨"invalid_evidence_collection", runId, ownerId,
      "evidence must be an array of objects"⟩, [])
  | some items => items.foldl (trackItem env runId ownerId) (state, [])

structure FindingKind where
  idField : String
  reconciledField : String

def unknownKind : FindingKind := ⟨"unknown_id", "reconciled_unknown_id"⟩

def driftKind : FindingKind := ⟨"drift_id", "reconciled_drift_id"⟩

def rewriteFinding (kind : FindingKind) (runId findingId : String) (finding : PyItem)
    (evidence : List PyItem) : PyItem :=
  (((finding.put kind.idField (.str (prefixedId runId findingId))).put kind.reconciledField
    (.str findingId)).put "source_run_id" (.str runId)).put "evidence" (.list (evidence.map .dict))

def addUnknown (env : MergeEnv) (runId : String) (progress : MergeState × List String)
    (record : PyItem) : MergeState × List String :=
  match record.id "unknown_id" with
  | none =>
    (progress.1.block ⟨"invalid_unknown_id", runId, "", "unknown registry item requires unknown_id"⟩,
      progress.2)
  | some unknownId =>
    if unknownId ∈ progress.2 then
      (progress.1.block ⟨"duplicate_unknown_id_in_run", runId, unknownId,
        "unknown_id occurs more than once in one reconciled registry"⟩, progress.2)
    else
      let (state, evidence) :=
        trackAndRewriteEvidence env runId unknownId progress.1 (record.member "evidence")
      ({ state with
        unknowns := state.unknowns ++ [rewriteFinding unknownKind runId unknownId record evidence] },
        progress.2 ++ [unknownId])

def collectDriftId (runId : String) (progress : MergeState × List String) (finding : PyItem) :
    MergeState × List String :=
  match finding.id "drift_id" with
  | none =>
    (progress.1.block ⟨"invalid_drift_id", runId, "", "drift registry item requires drift_id"⟩,
      progress.2)
  | some driftId =>
    if driftId ∈ progress.2 then
      (progress.1.block ⟨"duplicate_drift_id_in_run", runId, driftId,
        "drift_id occurs more than once in one reconciled registry"⟩, progress.2)
    else (progress.1, progress.2 ++ [driftId])

def addDrift (env : MergeEnv) (runId : String) (driftIds : List String) (state : MergeState)
    (finding : PyItem) : MergeState :=
  match finding.text "drift_id" with
  | none => state
  | some driftId =>
    if driftId ∈ driftIds then
      let (state, evidence) :=
        trackAndRewriteEvidence env runId driftId state (finding.member "evidence")
      { state with
        driftFindings := state.driftFindings ++
          [rewriteFinding driftKind runId driftId finding evidence] }
    else state

def isReference (text : String) : Bool :=
  decide ([':', ':'] <:+: text.toList) && ' ' ∉ text.toList

def rewriteReference (runId : String) (driftIds : List String)
    (progress : MergeState × List String) (reference : String) : MergeState × List String :=
  if reference ∈ driftIds then (progress.1, progress.2 ++ [prefixedId runId reference])
  else if isReference reference then
    (progress.1.block ⟨"dangling_known_drift_reference", runId, reference,
      "mechanism references a drift_id absent from its run registry"⟩, progress.2)
  else (progress.1, progress.2 ++ [reference])

def readKnownDrift (runId mechanismId : String) (state : MergeState) (mechanism : PyItem) :
    MergeState × List String :=
  match (mechanism.member "known_drift").texts with
  | some references => (state, references)
  | none =>
    (state.block ⟨"invalid_known_drift", runId, mechanismId,
      "mechanism known_drift must be an array of strings"⟩, [])

def readSourceRoles (runId mechanismId : String) (state : MergeState) (mechanism : PyItem) :
    MergeState × List String :=
  match (mechanism.member "source_roles").texts with
  | some roles => (state, roles)
  | none =>
    (state.block ⟨"invalid_mechanism_source_roles", runId, mechanismId,
      "mechanism source_roles must be an array of strings"⟩, [])

structure Contribution where
  mechanism : PyItem
  knownDrift : List String
  evidence : List PyItem
  sourceRoles : List String

def foldMechanism (runId mechanismId : String) (state : MergeState) (added : Contribution) :
    MergeState :=
  let provenance : Provenance := ⟨runId, sortedSet added.sourceRoles⟩
  match state.mechanisms.get mechanismId with
  | none =>
    { state with
      mechanismDefinitions :=
        state.mechanismDefinitions.set mechanismId (mechanismSemantics added.mechanism)
      mechanisms := state.mechanisms.set mechanismId
        ⟨added.mechanism, added.knownDrift, added.evidence, sortedSet added.sourceRoles, [runId],
          [provenance]⟩ }
  | some existing =>
    { state with
      mechanisms := state.mechanisms.set mechanismId
        { existing with
          knownDrift := existing.knownDrift ++ added.knownDrift
          evidence := existing.evidence ++ added.evidence
          sourceRoles := existing.sourceRoles ++ added.sourceRoles
          sourceRuns := existing.sourceRuns ++ [runId]
          sourceProvenance := existing.sourceProvenance ++ [provenance] } }

def conflicts (env : MergeEnv) (state : MergeState) (mechanismId : String) (mechanism : PyItem) :
    Bool :=
  (state.mechanismDefinitions.get mechanismId).any fun previous =>
    !previous.same env.value (mechanismSemantics mechanism)

def addMechanism (env : MergeEnv) (runId : String) (driftIds : List String)
    (progress : MergeState × List String) (mechanism : PyItem) : MergeState × List String :=
  match mechanism.id "mechanism_id" with
  | none =>
    (progress.1.block ⟨"invalid_mechanism_id", runId, "",
      "mechanism registry item requires mechanism_id"⟩, progress.2)
  | some mechanismId =>
    if mechanismId ∈ progress.2 then
      (progress.1.block ⟨"duplicate_mechanism_id_in_run", runId, mechanismId,
        "mechanism_id occurs more than once in one reconciled registry"⟩, progress.2)
    else
      let ids := progress.2 ++ [mechanismId]
      let (state, references) := readKnownDrift runId mechanismId progress.1 mechanism
      let (state, knownDrift) := references.foldl (rewriteReference runId driftIds) (state, [])
      if conflicts env state mechanismId mechanism then
        (state.block ⟨"conflicting_cross_run_mechanism_definition", runId, mechanismId,
          "same mechanism_id has different semantic definitions"⟩, ids)
      else
        let (state, evidence) :=
          trackAndRewriteEvidence env runId mechanismId state (mechanism.member "evidence")
        let (state, sourceRoles) := readSourceRoles runId mechanismId state mechanism
        (foldMechanism runId mechanismId state ⟨mechanism, knownDrift, evidence, sourceRoles⟩, ids)

def mergeGroup (env : MergeEnv) (state : MergeState) (group : LoadedGroup) : MergeState :=
  let state := checkReport env group state
  let (state, driftIds) := group.driftFindings.items.foldl (collectDriftId group.runId) (state, [])
  let (state, _) := group.unknowns.items.foldl (addUnknown env group.runId) (state, [])
  let state := group.driftFindings.items.foldl (addDrift env group.runId driftIds) state
  (group.mechanisms.items.foldl (addMechanism env group.runId driftIds) (state, [])).1

def deduplicateById (items : List PyItem) (idField : String) : List PyItem :=
  ((items.foldl (fun (byId : Dict String PyItem) item =>
      byId.set ((item.text idField).getD "") item) []).map fun entry => entry.2).insertionSort
    fun a b => (a.text idField).getD "" ≤ (b.text idField).getD ""

def finishMechanism (mechanism : MergedMechanism) : MergedMechanism where
  definition := mechanism.definition
  knownDrift := sortedSet mechanism.knownDrift
  sourceRoles := sortedSet mechanism.sourceRoles
  sourceRuns := sortedSet mechanism.sourceRuns
  sourceProvenance := mechanism.sourceProvenance.insertionSort fun a b => a.runId ≤ b.runId
  evidence := deduplicateById mechanism.evidence "evidence_id"

/-- What `merge_reconciled_registries` reports and writes. -/
structure MergeReport where
  state : String
  blockers : List Blocker
  mechanisms : List (String × MergedMechanism)
  unknowns : List PyItem
  driftFindings : List PyItem

def groupKey (group : LoadedGroup) : String ×ₗ String ×ₗ String :=
  toLex (group.runId, toLex (group.reportFileHash, group.reportPath))

def blockerKey (blocker : Blocker) : String ×ₗ String ×ₗ String ×ₗ String :=
  toLex (blocker.code, toLex (blocker.runId, toLex (blocker.objectId, blocker.detail)))

def finishMerge (state : MergeState) : MergeReport where
  state := if state.blockers = [] then "merged" else "blocked"
  blockers := state.blockers.dedup.insertionSort fun a b => blockerKey a ≤ blockerKey b
  mechanisms := (state.mechanisms.insertionSort fun a b => a.1 ≤ b.1).map fun entry =>
    (entry.1, finishMechanism entry.2)
  unknowns := state.unknowns.insertionSort fun a b =>
    (a.text "unknown_id").getD "" ≤ (b.text "unknown_id").getD ""
  driftFindings := state.driftFindings.insertionSort fun a b =>
    (a.text "drift_id").getD "" ≤ (b.text "drift_id").getD ""

/-- `merge_reconciled_registries`; `existing` are the outputs that are there already. -/
def mergeReconciledRegistries (env : MergeEnv) (existing : List String)
    (groups : List RegistryGroup) : Except MergeError MergeReport := do
  require (!groups.isEmpty) .noGroups
  require existing.isEmpty (.overwrite existing)
  let loaded ← (groups.zipIdx 1).mapM loadGroup
  .ok (finishMerge ((loaded.insertionSort fun a b => groupKey a ≤ groupKey b).foldl (mergeGroup env)
    .initial))

end Flowness.OssHarness
