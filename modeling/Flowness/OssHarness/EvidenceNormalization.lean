import Mathlib.Data.List.Infix
import Flowness.Library.Checked
import Flowness.Library.PyJson

/-!
`_normalize_evidence`: evidence that a role cites, read again from the sealed inputs, under an id that
names the role.
-/

namespace Flowness.OssHarness.Reconciliation

open List Library

structure Blocker where
  code : String
  roleId : String
  objectId : String
  detail : String
deriving DecidableEq, Repr

structure Evidence where
  evidenceId : String
  kind : String
  basis : String
  locator : String
  observedExcerpt : String
  hashScope : String
  sourceSnapshotId : String
  contentHash : String
  capturedAt : String
  independentGroup : String
  summary : String
deriving DecidableEq, Repr

structure NormalizedEvidence extends Evidence where
  originalId : String
  sourceRoleId : String
deriving DecidableEq, Repr

structure SealedFile where
  name : String
  bytes : Bytes
  json : Option PyItem

structure SourceFile where
  path : String
  bytes : Bytes

structure SourceEnv where
  aliases : Dict String String
  ambiguousAliases : List String
  expectedSnapshotIds : List String
  sealedSnapshots : Dict String SealedFile
  sourceArchiveSnapshotId : Option String
  resolve : String → Except String String
  resolveRanges : String → Except String (SourceFile × String × List (Nat × Nat))
  splitLocatorRanges : String → String × List (Nat × Nat)
  isAbsolute : String → Bool
  sha256 : Bytes → String

def namespacedId (roleId originalId : String) : String := roleId ++ "::" ++ originalId

/-- `Path(value).name`. -/
def pathName (value : String) : String :=
  (((value.toList.splitOn '/').map String.ofList).filter fun part => part ∉ ["", "."]).getLast?.getD ""

def knownSnapshotAliases (value : String) : List String :=
  let name := pathName value
  let aliases := if name = value then [value] else [value, name]
  match [".tar.gz", ".metadata.json", ".json", ".tar", ".zip"].find? fun suffix =>
      suffix.toList.isSuffixOf name.toList && suffix.length < name.length with
  | none => aliases
  | some suffix =>
    let stripped := String.ofList (name.toList.take (name.length - suffix.length)) ++
      if suffix = ".metadata.json" then ".metadata" else ""
    if stripped ∈ aliases then aliases else aliases ++ [stripped]

def canonicalSnapshotId (env : SourceEnv) (roleId objectId value : String) : Except Blocker String :=
  match (knownSnapshotAliases value).find? (· ∈ env.ambiguousAliases) with
  | some ambiguous => .error ⟨"ambiguous_snapshot_alias", roleId, objectId,
      "snapshot alias maps to multiple sealed inputs: " ++ ambiguous⟩
  | none =>
    match (knownSnapshotAliases value).findSome? env.aliases.get with
    | some canonical => .ok canonical
    | none => .error ⟨"unknown_snapshot_alias", roleId, objectId,
        "snapshot alias is not sealed by run.json: " ++ value⟩

/-- `bytes.splitlines(keepends=True)`, with the beginning of the first line. -/
def splitLinesFrom (line : Bytes) : Bytes → List Bytes
  | [] => if line = [] then [] else [line]
  | 13 :: 10 :: rest => (line ++ [13, 10]) :: splitLinesFrom [] rest
  | byte :: rest =>
    if byte = 10 ∨ byte = 13 then (line ++ [byte]) :: splitLinesFrom [] rest
    else splitLinesFrom (line ++ [byte]) rest

def excerptOf (lines : List Bytes) (start stop : Nat) : Bytes :=
  ((lines.take stop).drop (start - 1)).flatten

def actualExcerpt (file : SourceFile) (start stop : Nat) : Except String (Bytes × String) :=
  match decodeText file.bytes with
  | none => .error ("excerpt source is not UTF-8: " ++ file.path)
  | some _ =>
    let lines := splitLinesFrom [] file.bytes
    if start > lines.length ∨ stop > lines.length then
      .error ("excerpt range " ++ toString start ++ "-" ++ toString stop ++ " exceeds " ++
        toString lines.length ++ " lines: " ++ file.path)
    else
      match decodeText (excerptOf lines start stop) with
      | some text => .ok (excerptOf lines start stop, String.ofList text)
      | none => .error "excerpt is not UTF-8"

/-- `_sealed_evidence_contract`: the kinds and bases that a sealed input vouches for. -/
def sealedEvidenceContract (file : SealedFile) : List String × List String :=
  match file.json with
  | none => ([], [])
  | some payload =>
    if payload.text "schema_version" = some "repository-inventory/v1" ∨
        Dict.contains payload (.str "inventory_semantics") then ([], [])
    else
      match payload.member "evidence_contract" with
      | .dict contract =>
        match (PyItem.member contract "allowed_kinds").texts,
            (PyItem.member contract "allowed_bases").texts with
        | some kinds, some bases => (kinds, bases)
        | _, _ => ([], [])
      | _ => ([], [])

def evidenceBlocker (roleId : String) (evidence : Evidence) (code detail : String) : Blocker :=
  ⟨code, roleId, evidence.evidenceId, detail⟩

def Evidence.normalized (evidence : Evidence) (roleId canonicalId locator snapshotId excerpt hashScope
    contentHash : String) : NormalizedEvidence where
  toEvidence := { evidence with
    evidenceId := canonicalId
    locator := locator
    sourceSnapshotId := snapshotId
    observedExcerpt := excerpt
    hashScope := hashScope
    contentHash := contentHash }
  originalId := evidence.evidenceId
  sourceRoleId := roleId

def sealedRange (env : SourceEnv) (roleId canonicalSnapshot : String) (evidence : Evidence) :
    Except (List Blocker) (Nat × Nat) :=
  let fail := evidenceBlocker roleId evidence
  match env.splitLocatorRanges evidence.locator with
  | (rawLocator, [range]) =>
    let unbound := fail "non_source_evidence_locator_unbound"
      "non-source locator does not resolve to its declared sealed input"
    match canonicalSnapshotId env roleId evidence.evidenceId rawLocator with
    | .error blocker => .error [blocker, unbound]
    | .ok locatorSnapshot =>
      if locatorSnapshot = canonicalSnapshot then .ok range else .error [unbound]
  | _ => .error [fail "non_source_evidence_locator_unbound"
      "non-source evidence requires one sealed-input line range"]

def sealedExcerpt (roleId : String) (evidence : Evidence) (file : SealedFile) (start stop : Nat) :
    Except (List Blocker) (Bytes × String) :=
  let fail := evidenceBlocker roleId evidence
  let lines := splitLinesFrom [] file.bytes
  match decodeText file.bytes with
  | none => .error [fail "non_source_evidence_snapshot_not_utf8"
      "non-source observed excerpt cannot be found in the sealed input"]
  | some _ =>
    if start < 1 ∨ stop < start ∨ stop > lines.length then
      .error [fail "non_source_evidence_locator_unbound" "sealed-input line range is invalid"]
    else
      match decodeText (excerptOf lines start stop) with
      | some text => .ok (excerptOf lines start stop, String.ofList text)
      | none => .error [fail "non_source_evidence_locator_unbound" "excerpt is not UTF-8"]

def normalizeSealed (env : SourceEnv) (roleId canonicalSnapshot : String) (evidence : Evidence) :
    Except (List Blocker) (List NormalizedEvidence) :=
  let fail := evidenceBlocker roleId evidence
  match env.sealedSnapshots.get canonicalSnapshot with
  | none => .error [fail "non_source_evidence_snapshot_missing"
      "non-source evidence does not resolve to a sealed input file"]
  | some file => do
    let contract := sealedEvidenceContract file
    require (evidence.kind ∈ contract.1 && evidence.basis ∈ contract.2)
      [fail "non_source_evidence_type_untrusted"
        "sealed input does not explicitly authorize this evidence kind and basis"]
    let range ← sealedRange env roleId canonicalSnapshot evidence
    let excerpt ← sealedExcerpt roleId evidence file range.1 range.2
    let actualHash := env.sha256
      (if evidence.hashScope = "exact_file_bytes" then file.bytes else excerpt.1)
    require (actualHash = evidence.contentHash)
      [fail "evidence_content_hash_mismatch"
        ("declared " ++ evidence.contentHash ++ ", actual " ++ actualHash)]
    .ok [evidence.normalized roleId (namespacedId roleId evidence.evidenceId)
      (file.name ++ ":" ++ toString range.1 ++ "-" ++ toString range.2) canonicalSnapshot excerpt.2
      evidence.hashScope actualHash]

def rangeEvidence (env : SourceEnv) (roleId canonicalSnapshot canonicalBase : String)
    (evidence : Evidence) (file : SourceFile) (entry : (Nat × Nat) × Nat) :
    Except (List Blocker) NormalizedEvidence :=
  match actualExcerpt file entry.1.1 entry.1.2 with
  | .error detail => .error [evidenceBlocker roleId evidence "invalid_excerpt_range" detail]
  | .ok excerpt => .ok (evidence.normalized roleId
      (namespacedId roleId evidence.evidenceId ++ "::r" ++ toString entry.2)
      (canonicalBase ++ ":" ++ toString entry.1.1 ++ "-" ++ toString entry.1.2) canonicalSnapshot
      excerpt.2 "exact_excerpt_utf8" (env.sha256 excerpt.1))

/-- `locator.rsplit(":", 1)[0]` of a locator with a colon. -/
def beforeLastColon (locator : String) : String :=
  String.ofList (locator.toList.reverse.dropWhile (· != ':')).tail.reverse

def normalizeFile (env : SourceEnv) (roleId canonicalSnapshot : String) (evidence : Evidence)
    (file : SourceFile) (canonicalLocator : String) (ranges : List (Nat × Nat)) :
    Except (List Blocker) (List NormalizedEvidence) := do
  let fail := evidenceBlocker roleId evidence
  let actualHash := env.sha256 file.bytes
  require (actualHash = evidence.contentHash)
    [fail "evidence_content_hash_mismatch" ("declared " ++ evidence.contentHash ++ ", actual " ++
      actualHash ++ " at " ++ canonicalLocator)]
  if ranges ≠ [] then
    (ranges.zipIdx 1).mapM (rangeEvidence env roleId canonicalSnapshot
      (beforeLastColon canonicalLocator) evidence file)
  else
    match decodeText file.bytes with
    | none => .error [fail "exact_file_observation_not_utf8"
        ("exact_file_bytes cannot verify a UTF-8 observed_excerpt: " ++ canonicalLocator)]
    | some text =>
      if evidence.observedExcerpt.toList <:+: text then
        .ok [evidence.normalized roleId (namespacedId roleId evidence.evidenceId) canonicalLocator
          canonicalSnapshot evidence.observedExcerpt evidence.hashScope actualHash]
      else
        .error [fail "evidence_observed_excerpt_mismatch"
          ("observed_excerpt is not an exact substring of " ++ canonicalLocator)]

def normalizeExcerpt (env : SourceEnv) (roleId canonicalSnapshot : String) (evidence : Evidence)
    (file : SourceFile) (canonicalLocator : String) (ranges : List (Nat × Nat)) :
    Except (List Blocker) (List NormalizedEvidence) :=
  let fail := evidenceBlocker roleId evidence
  match ranges with
  | [range] =>
    match actualExcerpt file range.1 range.2 with
    | .error detail => .error [fail "invalid_excerpt_range" detail]
    | .ok excerpt => do
      let actualHash := env.sha256 excerpt.1
      require (actualHash = evidence.contentHash)
        [fail "evidence_content_hash_mismatch" ("declared " ++ evidence.contentHash ++ ", actual " ++
          actualHash ++ " at " ++ canonicalLocator)]
      .ok [evidence.normalized roleId (namespacedId roleId evidence.evidenceId) canonicalLocator
        canonicalSnapshot excerpt.2 evidence.hashScope actualHash]
  | _ => .error [fail "excerpt_locator_requires_one_line_range"
      ("exact_excerpt_utf8 requires one line range: " ++ evidence.locator)]

def normalizeSource (env : SourceEnv) (roleId canonicalSnapshot : String) (evidence : Evidence) :
    Except (List Blocker) (List NormalizedEvidence) :=
  let fail := evidenceBlocker roleId evidence
  match env.sourceArchiveSnapshotId with
  | none => .error [fail "evidence_has_no_sealed_source_archive"
      "code/test/schema evidence has no run-sealed source archive"]
  | some archive =>
    if canonicalSnapshot ≠ archive then
      .error [fail "evidence_snapshot_not_source_archive"
        ("code/test/schema evidence source_snapshot_id does not resolve " ++
          "to the run-sealed source archive")]
    else
      match env.resolveRanges evidence.locator with
      | .error detail => .error [fail "invalid_evidence_locator" detail]
      | .ok (file, canonicalLocator, ranges) =>
        if evidence.hashScope = "exact_file_bytes" then
          normalizeFile env roleId canonicalSnapshot evidence file canonicalLocator ranges
        else normalizeExcerpt env roleId canonicalSnapshot evidence file canonicalLocator ranges

def SOURCE_ARCHIVE_EVIDENCE_KINDS : List String := ["code", "test", "schema"]

/-- `_normalize_evidence`; evidence that comes to nothing comes with a blocker. -/
def normalizeEvidence (env : SourceEnv) (roleId : String) (declared : List String)
    (evidence : Evidence) : Except (List Blocker) (List NormalizedEvidence) :=
  match canonicalSnapshotId env roleId evidence.evidenceId evidence.sourceSnapshotId with
  | .error blocker => .error [blocker]
  | .ok canonicalSnapshot =>
    if canonicalSnapshot ∉ declared then
      .error [evidenceBlocker roleId evidence "evidence_snapshot_not_declared_by_role"
        "evidence references a sealed input absent from result.snapshot_ids"]
    else if evidence.kind ∈ SOURCE_ARCHIVE_EVIDENCE_KINDS then
      normalizeSource env roleId canonicalSnapshot evidence
    else normalizeSealed env roleId canonicalSnapshot evidence

/-- Evidence of a role stands under ids of the role, and comes to at least one item. -/
def Cites (roleId : String) (evidence : Evidence) (items : List NormalizedEvidence) : Prop :=
  items ≠ [] ∧ ∀ item ∈ items, item.sourceRoleId = roleId ∧ item.originalId = evidence.evidenceId ∧
    ∃ rest, item.evidenceId = namespacedId roleId rest

def Settled (roleId : String) (evidence : Evidence) :
    Except (List Blocker) (List NormalizedEvidence) → Prop
  | .error blockers => blockers ≠ []
  | .ok items => Cites roleId evidence items

variable {env : SourceEnv} {roleId canonicalSnapshot : String} {evidence : Evidence}

variable {blockers : List Blocker} {file : SourceFile} {canonicalBase : String}

theorem settled_error :
    Settled roleId evidence (.error (blocker :: blockers)) := cons_ne_nil _ _

theorem settled_one (rest locator snapshotId excerpt hashScope contentHash : String) :
    Settled roleId evidence (.ok [evidence.normalized roleId (namespacedId roleId rest) locator snapshotId
      excerpt hashScope contentHash]) := by
  refine ⟨cons_ne_nil _ _, fun item hitem => ?_⟩
  obtain rfl := mem_singleton.mp hitem
  exact ⟨rfl, rfl, rest, rfl⟩

theorem settled_bind {α : Type} {x : Except (List Blocker) α}
    {f : α → Except (List Blocker) (List NormalizedEvidence)}
    (herror : ∀ blockers, x = .error blockers → blockers ≠ [])
    (hok : ∀ a, x = .ok a → Settled roleId evidence (f a)) : Settled roleId evidence (x >>= f) := by
  cases x with
  | error blockers => exact herror blockers rfl
  | ok a => exact hok a rfl

theorem settled_require {blocker : Blocker} {rest : Except (List Blocker) (List NormalizedEvidence)}
    (h : Settled roleId evidence rest) :
    Settled roleId evidence (require holds [blocker] >>= fun _ => rest) := by
  refine settled_bind (fun blockers hblockers => ?_) fun _ _ => h
  cases holds with
  | true => cases hblockers
  | false =>
    cases hblockers
    exact cons_ne_nil _ _

theorem sealedRange_error (h : sealedRange env roleId canonicalSnapshot evidence = .error blockers) :
    blockers ≠ [] := by
  unfold sealedRange at h
  split at h
  case h_1 =>
    split at h
    case h_1 =>
      cases h
      exact cons_ne_nil _ _
    case h_2 =>
      split at h
      case isTrue => cases h
      case isFalse =>
        cases h
        exact cons_ne_nil _ _
  case h_2 =>
    cases h
    exact cons_ne_nil _ _

theorem sealedExcerpt_error {file : SealedFile}
    (h : sealedExcerpt roleId evidence file start stop = .error blockers) : blockers ≠ [] := by
  unfold sealedExcerpt at h
  dsimp only at h
  split at h
  case h_1 =>
    cases h
    exact cons_ne_nil _ _
  case h_2 =>
    split at h
    case isTrue =>
      cases h
      exact cons_ne_nil _ _
    case isFalse =>
      split at h
      case h_1 => cases h
      case h_2 =>
        cases h
        exact cons_ne_nil _ _

theorem normalizeSealed_settled :
    Settled roleId evidence (normalizeSealed env roleId canonicalSnapshot evidence) := by
  unfold normalizeSealed
  split
  case h_1 => exact settled_error
  case h_2 file _ =>
    refine settled_require (settled_bind (fun _ => sealedRange_error) fun range _ =>
      settled_bind (fun _ => sealedExcerpt_error) fun excerpt _ => settled_require ?_)
    exact settled_one ..

theorem rangeEvidence_ok
    (h : rangeEvidence env roleId canonicalSnapshot canonicalBase evidence file entry = .ok item) :
    item.sourceRoleId = roleId ∧ item.originalId = evidence.evidenceId ∧
      ∃ rest, item.evidenceId = namespacedId roleId rest := by
  unfold rangeEvidence at h
  split at h
  case h_1 => cases h
  case h_2 =>
    cases h
    exact ⟨rfl, rfl, evidence.evidenceId ++ ("::r" ++ toString entry.2), by
      simp only [Evidence.normalized, namespacedId, String.append_assoc]⟩

theorem rangeEvidence_error
    (h : rangeEvidence env roleId canonicalSnapshot canonicalBase evidence file entry =
      .error blockers) : blockers ≠ [] := by
  unfold rangeEvidence at h
  split at h
  case h_1 =>
    cases h
    exact cons_ne_nil _ _
  case h_2 => cases h

theorem rangesEvidence_settled {entries : List ((Nat × Nat) × Nat)} (h : entries ≠ []) :
    Settled roleId evidence
      (entries.mapM (rangeEvidence env roleId canonicalSnapshot canonicalBase evidence file)) := by
  induction entries with
  | nil => exact absurd rfl h
  | cons entry entries ih =>
    rw [mapM_cons]
    refine settled_bind (fun _ => rangeEvidence_error) fun item hitem => ?_
    by_cases hempty : entries = []
    · subst hempty
      refine ⟨cons_ne_nil _ _, fun other hother => ?_⟩
      obtain rfl := mem_singleton.mp hother
      exact rangeEvidence_ok hitem
    · have hrest := ih hempty
      refine settled_bind (fun blockers hblockers => ?_) fun items hitems => ?_
      · rw [hblockers] at hrest
        exact hrest
      · rw [hitems] at hrest
        exact ⟨cons_ne_nil _ _, forall_mem_cons.mpr ⟨rangeEvidence_ok hitem, hrest.2⟩⟩

theorem normalizeFile_settled {ranges : List (Nat × Nat)} : Settled roleId evidence
      (normalizeFile env roleId canonicalSnapshot evidence file canonicalLocator ranges) := by
  refine settled_require ?_
  split
  case isTrue hranges =>
    exact rangesEvidence_settled fun hnil => hranges (zipIdx_eq_nil_iff.mp hnil)
  case isFalse =>
    split
    case h_1 => exact settled_error
    case h_2 =>
      split
      case isTrue => exact settled_one ..
      case isFalse => exact settled_error

theorem normalizeExcerpt_settled {ranges : List (Nat × Nat)} : Settled roleId evidence
      (normalizeExcerpt env roleId canonicalSnapshot evidence file canonicalLocator ranges) := by
  unfold normalizeExcerpt
  split
  case h_1 =>
    split
    case h_1 => exact settled_error
    case h_2 => exact settled_require (settled_one ..)
  case h_2 => exact settled_error

theorem normalizeSource_settled :
    Settled roleId evidence (normalizeSource env roleId canonicalSnapshot evidence) := by
  unfold normalizeSource
  split
  case h_1 => exact settled_error
  case h_2 =>
    split
    case isTrue => exact settled_error
    case isFalse =>
      split
      case h_1 => exact settled_error
      case h_2 =>
        split
        case isTrue => exact normalizeFile_settled
        case isFalse => exact normalizeExcerpt_settled

theorem normalizeEvidence_settled :
    Settled roleId evidence (normalizeEvidence env roleId declared evidence) := by
  unfold normalizeEvidence
  split
  case h_1 => exact settled_error
  case h_2 =>
    split
    case isTrue => exact settled_error
    case isFalse =>
      split
      case isTrue => exact normalizeSource_settled
      case isFalse => exact normalizeSealed_settled

end Flowness.OssHarness.Reconciliation
