import Flowness.OssHarness.EvidenceNormalization
import Flowness.OssHarness.RegistryMerge

/-!
`reconcile_excavation`: the results of the producer roles of one run as three registries, with ids that
name the role, mechanisms of one id folded into one, and a blocker for whatever does not fit.
-/

namespace Flowness.OssHarness.Reconciliation

open Library

structure Mechanism where
  mechanismId : String
  knownDrift : List String
  evidence : List Evidence
  rest : PyItem

structure Unknown where
  unknownId : String
  locator : String
  evidence : List Evidence
  rest : PyItem

structure Drift where
  driftId : String
  sourceLocators : List String
  evidence : List Evidence
  rest : PyItem

structure InspectedArchive where
  archivePath : String
  archiveContentHash : String
  extracted : Bool
  sourceFilesRead : List String
  testFilesRead : List String
deriving DecidableEq, Repr

structure ProducerResult where
  roleId : String
  snapshotIds : List String
  archives : List InspectedArchive
  mechanisms : List Mechanism
  unknowns : List Unknown
  driftFindings : List Drift

structure ResultFile where
  path : String
  parentName : String
  grandparentName : String
  payload : Option ProducerResult

/-- A role of the sealed roles config; `_load_roles` has checked its id. -/
structure Role where
  roleId : String
  kind : String
  outputSchema : String
  safe : isSafeComponent roleId = true

structure ReconcileEnv extends SourceEnv where
  runId : String
  roles : List Role
  schemaName : String
  value : String → ℚ
  invalidMechanism : Mechanism → List NormalizedEvidence → List String → Option String
  invalidUnknown : Unknown → String → List NormalizedEvidence → Option String
  invalidDrift : Drift → List String → List NormalizedEvidence → Option String

inductive ReconcileError where
  | noResults
  | overwrite (paths : List String)
  | invalidResult (path : String)
  | unsealedRole (roleId : String)
  | duplicateRole (roleId : String)
  | pathRole (path : String)
deriving DecidableEq, Repr

def ReconcileEnv.seals (env : ReconcileEnv) (roleId : String) : Bool :=
  env.roles.any fun role =>
    role.roleId = roleId && role.kind = "producer" && role.outputSchema = env.schemaName

def admitResult (env : ReconcileEnv) (admitted : List ProducerResult) (file : ResultFile) :
    Except ReconcileError (List ProducerResult) :=
  match file.payload with
  | none => .error (.invalidResult file.path)
  | some result => do
    require (env.seals result.roleId) (.unsealedRole result.roleId)
    require (result.roleId ∉ admitted.map (·.roleId)) (.duplicateRole result.roleId)
    require (file.grandparentName ≠ "producers" || file.parentName = result.roleId)
      (.pathRole file.path)
    .ok (admitted ++ [result])

structure Warning where
  code : String
  roleId : String
  detail : String
deriving DecidableEq, Repr

structure ReconciledUnknown where
  unknownId : String
  originalId : String
  sourceRoleId : String
  locator : String
  evidence : List NormalizedEvidence
  rest : PyItem

structure ReconciledDrift where
  driftId : String
  originalId : String
  sourceRoleId : String
  sourceLocators : List String
  evidence : List NormalizedEvidence
  rest : PyItem

structure ReconciledMechanism where
  mechanismId : String
  knownDrift : List String
  evidence : List NormalizedEvidence
  sourceRoles : List String
  rest : PyItem

structure ReconcileState where
  blockers : List Blocker
  warnings : List Warning
  evidenceDefinitions : Dict (String × String) NormalizedEvidence
  mechanisms : Dict String ReconciledMechanism
  unknowns : List ReconciledUnknown
  driftFindings : List ReconciledDrift

def ReconcileState.block (state : ReconcileState) (blockers : List Blocker) : ReconcileState :=
  { state with blockers := state.blockers ++ blockers }

/-- `normalized_snapshot_ids`. -/
def declaredSnapshots (env : ReconcileEnv) (result : ProducerResult) : List String :=
  result.snapshotIds.filterMap fun id =>
    (canonicalSnapshotId env.toSourceEnv result.roleId "result.snapshot_ids" id).toOption

def blockersOf {α : Type} : Except Blocker α → List Blocker
  | .error blocker => [blocker]
  | .ok _ => []

def snapshotBlockers (env : ReconcileEnv) (result : ProducerResult) : List Blocker :=
  let declared := declaredSnapshots env result
  (result.snapshotIds.flatMap fun id =>
    blockersOf (canonicalSnapshotId env.toSourceEnv result.roleId "result.snapshot_ids" id)) ++
  (if declared = [] ∨ ∃ id ∈ declared, id ∉ env.expectedSnapshotIds then
      [⟨"result_snapshot_set_mismatch", result.roleId, "result.snapshot_ids",
        "result snapshot_ids must resolve to a non-empty sealed subset"⟩]
    else []) ++
  (match env.sourceArchiveSnapshotId with
    | none => []
    | some archive =>
      if archive ∈ declared then []
      else [⟨"result_source_snapshot_missing", result.roleId, "result.snapshot_ids",
        "result snapshot_ids must reference the sealed source archive"⟩])

def archiveBlockers (env : ReconcileEnv) (roleId : String) (archive : InspectedArchive) :
    List Blocker :=
  let snapshot := canonicalSnapshotId env.toSourceEnv roleId "source_inspection.archive_path"
    archive.archivePath
  blockersOf snapshot ++
  (match snapshot with
    | .ok canonical =>
      if canonical = archive.archiveContentHash then []
      else [⟨"archive_content_hash_mismatch", roleId, archive.archivePath,
        "source_inspection archive hash differs from run-sealed file"⟩]
    | .error _ => []) ++
  (match env.sourceArchiveSnapshotId with
    | none => []
    | some source =>
      if snapshot.toOption = some source ∧ archive.archiveContentHash = source then []
      else [⟨"source_inspection_archive_not_source", roleId, archive.archivePath,
        "source_inspection archive does not identify the " ++ "run-sealed --source archive"⟩]) ++
  (if archive.extracted then []
    else [⟨"source_archive_not_extracted", roleId, archive.archivePath,
      "producer did not extract the sealed source archive"⟩]) ++
  (archive.sourceFilesRead ++ archive.testFilesRead).flatMap fun locator =>
    match env.resolve locator with
    | .error detail => [⟨"claimed_source_read_not_found", roleId, locator, detail⟩]
    | .ok _ => []

def normalizeSoftLocator (env : ReconcileEnv) (roleId locator : String) : String × List Warning :=
  match env.resolveRanges locator with
  | .ok (_, canonical, _) => (canonical, [])
  | .error detail =>
    (locator, if env.isAbsolute locator then
      [⟨"noncanonical_non_evidence_locator", roleId, detail⟩] else [])

def noteDefinition (roleId objectId : String) (progress : ReconcileState × List NormalizedEvidence)
    (normalized : NormalizedEvidence) : ReconcileState × List NormalizedEvidence :=
  let noted : ReconcileState × List NormalizedEvidence :=
    ({ progress.1 with
        evidenceDefinitions :=
          progress.1.evidenceDefinitions.set (roleId, normalized.evidenceId) normalized },
      progress.2 ++ [normalized])
  match progress.1.evidenceDefinitions.get (roleId, normalized.evidenceId) with
  | some previous =>
    if previous = normalized then noted
    else (progress.1.block [⟨"conflicting_evidence_id_definition", roleId, objectId,
      "same role reused an evidence_id for different evidence"⟩], progress.2)
  | none => noted

def cleanItem (env : ReconcileEnv) (result : ProducerResult)
    (progress : ReconcileState × List NormalizedEvidence) (item : Evidence) :
    ReconcileState × List NormalizedEvidence :=
  match normalizeEvidence env.toSourceEnv result.roleId (declaredSnapshots env result) item with
  | .error blockers => (progress.1.block blockers, progress.2)
  | .ok items => items.foldl (noteDefinition result.roleId item.evidenceId) progress

def cleanEvidenceList (env : ReconcileEnv) (result : ProducerResult) (state : ReconcileState)
    (items : List Evidence) : ReconcileState × List NormalizedEvidence :=
  items.foldl (cleanItem env result) (state, [])

def invalidRecord (code roleId objectId : String) : Option String → List Blocker
  | some detail => [⟨code, roleId, objectId, detail⟩]
  | none => []

def normalizedDrift (result : ProducerResult) (reference : String) : String :=
  if reference ∈ result.driftFindings.map (·.driftId) then namespacedId result.roleId reference
  else reference

def foldMechanism (env : ReconcileEnv) (roleId : String) (state : ReconcileState)
    (mechanism : Mechanism) (knownDrift : List String) (evidence : List NormalizedEvidence) :
    ReconcileState :=
  match state.mechanisms.get mechanism.mechanismId with
  | none =>
    { state with
      mechanisms := state.mechanisms.set mechanism.mechanismId
        ⟨mechanism.mechanismId, knownDrift, evidence, [roleId], mechanism.rest⟩ }
  | some existing =>
    if existing.rest.same env.value mechanism.rest then
      { state with
        mechanisms := state.mechanisms.set mechanism.mechanismId
          { existing with
            sourceRoles := existing.sourceRoles ++ [roleId]
            evidence := existing.evidence ++ evidence
            knownDrift := existing.knownDrift ++ knownDrift } }
    else
      state.block [⟨"conflicting_mechanism_definition", roleId, mechanism.mechanismId,
        "same mechanism_id has different semantic definitions; no merge performed"⟩]

def addMechanism (env : ReconcileEnv) (result : ProducerResult) (state : ReconcileState)
    (mechanism : Mechanism) : ReconcileState :=
  let (state, evidence) := cleanEvidenceList env result state mechanism.evidence
  let knownDrift := mechanism.knownDrift.map (normalizedDrift result)
  let state := state.block (invalidRecord "invalid_mechanism_registry_record" result.roleId
    mechanism.mechanismId (env.invalidMechanism mechanism evidence knownDrift))
  foldMechanism env result.roleId state mechanism knownDrift evidence

def addUnknown (env : ReconcileEnv) (result : ProducerResult) (state : ReconcileState)
    (unknown : Unknown) : ReconcileState :=
  let locator := normalizeSoftLocator env result.roleId unknown.locator
  let (state, evidence) := cleanEvidenceList env result state unknown.evidence
  let state := state.block (invalidRecord "invalid_unknown_registry_record" result.roleId
    unknown.unknownId (env.invalidUnknown unknown locator.1 evidence))
  { state with
    warnings := state.warnings ++ locator.2
    unknowns := state.unknowns ++ [⟨namespacedId result.roleId unknown.unknownId, unknown.unknownId,
      result.roleId, locator.1, evidence, unknown.rest⟩] }

def addDrift (env : ReconcileEnv) (result : ProducerResult) (state : ReconcileState)
    (finding : Drift) : ReconcileState :=
  let locators := finding.sourceLocators.map (normalizeSoftLocator env result.roleId)
  let (state, evidence) := cleanEvidenceList env result state finding.evidence
  let state := state.block (invalidRecord "invalid_drift_registry_record" result.roleId
    finding.driftId (env.invalidDrift finding (locators.map Prod.fst) evidence))
  { state with
    warnings := state.warnings ++ locators.flatMap Prod.snd
    driftFindings := state.driftFindings ++ [⟨namespacedId result.roleId finding.driftId,
      finding.driftId, result.roleId, locators.map Prod.fst, evidence, finding.rest⟩] }

def reconcileResult (env : ReconcileEnv) (state : ReconcileState) (result : ProducerResult) :
    ReconcileState :=
  let state := state.block (snapshotBlockers env result ++
    result.archives.flatMap (archiveBlockers env result.roleId))
  let state := result.mechanisms.foldl (addMechanism env result) state
  let state := result.unknowns.foldl (addUnknown env result) state
  result.driftFindings.foldl (addDrift env result) state

/-- What `reconcile_excavation` reports and writes. -/
structure ReconcileReport where
  runId : String
  state : String
  roles : List String
  blockers : List Blocker
  warnings : List Warning
  mechanisms : List ReconciledMechanism
  unknowns : List ReconciledUnknown
  driftFindings : List ReconciledDrift
  counts : List (String × Nat)

def deduplicateEvidence (items : List NormalizedEvidence) : List NormalizedEvidence :=
  ((items.foldl (fun (byId : Dict String NormalizedEvidence) item => byId.set item.evidenceId item)
    []).map Prod.snd).insertionSort fun a b => a.evidenceId ≤ b.evidenceId

def finishMechanism (mechanism : ReconciledMechanism) : ReconciledMechanism :=
  { mechanism with
    sourceRoles := sortedSet mechanism.sourceRoles
    evidence := deduplicateEvidence mechanism.evidence
    knownDrift := sortedSet mechanism.knownDrift }

def blockerKey (blocker : Blocker) : String ×ₗ String ×ₗ String ×ₗ String :=
  toLex (blocker.code, toLex (blocker.roleId, toLex (blocker.objectId, blocker.detail)))

def warningKey (warning : Warning) : String ×ₗ String ×ₗ String :=
  toLex (warning.code, toLex (warning.roleId, warning.detail))

def finishReconcile (env : ReconcileEnv) (results : List ProducerResult) (state : ReconcileState) :
    ReconcileReport :=
  let mechanisms := ((state.mechanisms.map Prod.snd).insertionSort fun a b =>
    a.mechanismId ≤ b.mechanismId).map finishMechanism
  let blockers := state.blockers.dedup.insertionSort fun a b => blockerKey a ≤ blockerKey b
  let warnings := state.warnings.dedup.insertionSort fun a b => warningKey a ≤ warningKey b
  { runId := env.runId
    state := if blockers = [] then "reconciled" else "blocked"
    roles := results.map (·.roleId)
    blockers := blockers
    warnings := warnings
    mechanisms := mechanisms
    unknowns := state.unknowns.insertionSort fun a b => a.unknownId ≤ b.unknownId
    driftFindings := state.driftFindings.insertionSort fun a b => a.driftId ≤ b.driftId
    counts := [("mechanisms", mechanisms.length), ("unknowns", state.unknowns.length),
      ("drift_findings", state.driftFindings.length), ("blockers", blockers.length),
      ("warnings", warnings.length), ("roles", results.length)] }

def ReconcileState.initial (env : ReconcileEnv) : ReconcileState where
  blockers :=
    match env.sourceArchiveSnapshotId with
    | some _ => []
    | none => [⟨"source_archive_not_sealed_by_run", "", "",
        "--source must be an archive whose content hash is sealed by run.json"⟩]
  warnings := []
  evidenceDefinitions := []
  mechanisms := []
  unknowns := []
  driftFindings := []

/-- `reconcile_excavation`; `existing` are the outputs that are there already. -/
def reconcileExcavation (env : ReconcileEnv) (existing : List String) (files : List ResultFile) :
    Except ReconcileError ReconcileReport := do
  require (!files.isEmpty) .noResults
  require existing.isEmpty (.overwrite existing)
  let admitted ← files.foldlM (admitResult env) []
  let results := admitted.insertionSort fun a b => a.roleId ≤ b.roleId
  .ok (finishReconcile env results (results.foldl (reconcileResult env) (.initial env)))

def NormalizedEvidence.toItem (evidence : NormalizedEvidence) : PyItem :=
  [(.str "evidence_id", .str evidence.evidenceId), (.str "kind", .str evidence.kind),
    (.str "basis", .str evidence.basis), (.str "locator", .str evidence.locator),
    (.str "observed_excerpt", .str evidence.observedExcerpt),
    (.str "hash_scope", .str evidence.hashScope),
    (.str "source_snapshot_id", .str evidence.sourceSnapshotId),
    (.str "content_hash", .str evidence.contentHash), (.str "captured_at", .str evidence.capturedAt),
    (.str "independent_group", .str evidence.independentGroup),
    (.str "summary", .str evidence.summary), (.str "original_id", .str evidence.originalId),
    (.str "source_role_id", .str evidence.sourceRoleId)]

def texts (values : List String) : PyValue := .list (values.map .str)

def evidenceItems (evidence : List NormalizedEvidence) : PyValue :=
  .list (evidence.map fun item => .dict item.toItem)

def ReconciledMechanism.toItem (mechanism : ReconciledMechanism) : PyItem :=
  (((mechanism.rest.put "mechanism_id" (.str mechanism.mechanismId)).put "evidence"
    (evidenceItems mechanism.evidence)).put "known_drift" (texts mechanism.knownDrift)).put
    "source_roles" (texts mechanism.sourceRoles)

def ReconciledUnknown.toItem (unknown : ReconciledUnknown) : PyItem :=
  ((((unknown.rest.put "unknown_id" (.str unknown.unknownId)).put "original_id"
    (.str unknown.originalId)).put "source_role_id" (.str unknown.sourceRoleId)).put "locator"
    (.str unknown.locator)).put "evidence" (evidenceItems unknown.evidence)

def ReconciledDrift.toItem (finding : ReconciledDrift) : PyItem :=
  ((((finding.rest.put "drift_id" (.str finding.driftId)).put "original_id"
    (.str finding.originalId)).put "source_role_id" (.str finding.sourceRoleId)).put
    "source_locators" (texts finding.sourceLocators)).put "evidence" (evidenceItems finding.evidence)

end Flowness.OssHarness.Reconciliation
