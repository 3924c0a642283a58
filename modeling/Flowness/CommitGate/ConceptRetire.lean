import Flowness.CommitGate.Outcomes
import Flowness.Library.SortedSet
import Mathlib.Data.String.Basic

/-!
The retirement gate: a concept may be retired or upgraded only when the references that require an
explicit decision have been migrated. Evidence is read off the batch and off the raw lines of the
log.
-/

namespace Flowness.CommitGate

open Library Schemas

/-- What the gate takes from Python: `str` of a JSON value and the text of a list of strings. -/
structure RetireEnv where
  str : Json → String
  reprList : List String → String

/-- `_ref_field`: the first of the members that is true, as text. -/
def refField (env : RetireEnv) (entries : Dict String Json) (names : List String) : String :=
  ((names.map (Json.lookup entries)).find? Json.truthy).elim "" env.str

/-- `text.split("@", 1)[0]`. -/
def versionless (text : String) : String := String.ofList (text.toList.takeWhile (· ≠ '@'))

/-- `text.removeprefix("concept-")`. -/
def withoutConceptPrefix (text : String) : String :=
  if "concept-".toList.isPrefixOf text.toList then String.ofList (text.toList.drop 8) else text

/-- `_resolves_to` of the gate. -/
def resolvesTo (storedTargetName conceptId : String) : Bool :=
  storedTargetName ≠ "" && conceptId ≠ "" &&
    [conceptId, versionless conceptId, withoutConceptPrefix (versionless conceptId)].contains
      storedTargetName

/-- `_resolves_to` of the invalidation responses. -/
def resolvesToSuperseded (storedTargetName : Json) (supersededConceptId : String) : Bool :=
  match storedTargetName.text?.filter (· ≠ "") with
  | none => false
  | some name =>
    [supersededConceptId, versionless supersededConceptId].contains name ||
      name == versionless (withoutConceptPrefix supersededConceptId)

def lineType (line : Json) : Json := Json.lookup line.asDict "event_type"

def lineAfter (line : Json) : Dict String Json :=
  (Json.lookup (Json.lookup line.asDict "payload").asDict "after_state").asDict

def activeReferencesTo (lines : List Json) (supersededConceptId : String) :
    List (Dict String Json) :=
  let added := lines.filterMap fun line =>
    if lineType line = .str "AtReferenceAdded" ∧
        resolvesToSuperseded (Json.lookup (lineAfter line) "target_concept_name")
          supersededConceptId = true then
      some (Dict.set (lineAfter line) "_event_id" (Json.lookup line.asDict "event_id"))
    else none
  let removed := lines.filterMap fun line =>
    if lineType line = .str "AtReferenceRemoved" then
      (Json.lookup (lineAfter line) "at_reference").text?
    else none
  added.filter fun reference =>
    match Json.lookup reference "at_reference" with
    | .str name => !removed.contains name
    | _ => true

/-- `_policy_of` is `explicit_decision_required`, which is also what no known policy means. -/
def blocks (reference : Dict String Json) : Bool :=
  match Json.lookup reference "on_target_supersede_policy" with
  | .str policy => policy ≠ "pin_to_snapshot" && policy ≠ "auto_accept_latest"
  | _ => true

structure RetiringConcept where
  oldConceptId : String
  newConceptId : String
  supersededEventId : String
  declaredMigrated : List String

section

variable (env : RetireEnv)

def entityTypeStr (value : Json) : String := if value.truthy then env.str value else ""

def proposalConceptChanges (payload : Payload) : List (Dict String Json) :=
  (Json.lookup payload.afterState "proposed_changes").asDicts.filter fun change =>
    let entityType := entityTypeStr env (Json.lookup change "entity_type")
    entityType == "" || entityType == "concept"

/-- `_declared_migrated` of one source. -/
def declaredMigrated (source : Dict String Json) : List String :=
  (Json.lookup source "migrated_concept_ids").asItems.map env.str

def supersededEventId (intent : EventIntent) : String :=
  intent.supersede.supersededEventId?.getD ""

def isSupersede (intent : EventIntent) : Bool := intent.supersede.supersededEventId?.isSome

def changedEntity (change : Dict String Json) : Option String :=
  if (Json.lookup change "entity_id").truthy then some (env.str (Json.lookup change "entity_id"))
  else none

def newValueOf (change : Dict String Json) : Option (Dict String Json) :=
  match Json.lookup change "new_value" with
  | .obj entries => some entries
  | _ => none

def replacementOf (change : Dict String Json) : Option String :=
  (newValueOf change).bind fun newValue =>
    if (Json.lookup newValue "replacement_concept_id").truthy then
      some (env.str (Json.lookup newValue "replacement_concept_id"))
    else none

def conceptSubject (intent : EventIntent) : Option String :=
  (intent.subjects.val.find? fun subject => subject.entityType == .concept).map (·.entityId.val)

def supersedesByProposal (intent : EventIntent) : Bool :=
  intent.eventType == .conceptGraphProposal && (isSupersede intent ||
    (let transition := intent.payload.getD "transition_type" .null
     (if transition.truthy then env.str transition else "") == "superseded"))

def supersedesByCreation (intent : EventIntent) : Bool :=
  intent.eventType == .conceptCreated && isSupersede intent

variable (resolver : String → Option String)

def resolvedOld (intent : EventIntent) : Option String :=
  if supersededEventId intent = "" then none
  else (resolver (supersededEventId intent)).filter (· ≠ "")

def orElseText (text fallback : String) : String := if text = "" then fallback else text

/-- `_extract_retiring`, one intent: a retirement, or the text of one that does not resolve. -/
def extractRetiringOf (intent : EventIntent) : Option (Except String RetiringConcept) :=
  if supersedesByCreation intent then
    match resolvedOld resolver intent with
    | none => some (.error
        (orElseText (supersededEventId intent) "<missing-superseded_event_id>"))
    | some old => some (.ok
      { oldConceptId := old
        newConceptId := orElseText (env.str
          ((Dict.get intent.payload.afterState "concept_id").getD (.str ""))) old
        supersededEventId := supersededEventId intent
        declaredMigrated :=
          declaredMigrated env (intent.payload.getD "semantic_annotation" .null).asDict })
  else if supersedesByProposal env intent then
    let changes := proposalConceptChanges env intent.payload
    match (changes.findSome? (changedEntity env)).or (conceptSubject intent) with
    | none => some (.error
        (orElseText (supersededEventId intent) "<proposal-no-concept-entity>"))
    | some old => some (.ok
      { oldConceptId := old
        newConceptId := (changes.findSome? (replacementOf env)).getD old
        supersededEventId := supersededEventId intent
        declaredMigrated := (changes.filterMap newValueOf).flatMap (declaredMigrated env) })
  else none

def retiring (domain : List EventIntent) : List RetiringConcept :=
  domain.filterMap fun intent =>
    match extractRetiringOf env resolver intent with
    | some (.ok concept) => some concept
    | _ => none

def unresolvable (domain : List EventIntent) : List String :=
  domain.filterMap fun intent =>
    match extractRetiringOf env resolver intent with
    | some (.error text) => some text
    | _ => none

/-- `_collect_batch_migrations`, one intent: the reference it removes. -/
def removedReference (intent : EventIntent) : Option String :=
  if intent.eventType = .atReferenceRemoved then
    some (refField env intent.payload.afterState ["at_reference", "reference_id"])
  else none

def addedEnds (after : Dict String Json) : String × String :=
  (refField env after ["source_concept_id"], refField env after ["target_concept_name"])

def addedByIntent (intent : EventIntent) : Option (String × String) :=
  if intent.eventType = .atReferenceAdded then some (addedEnds env intent.payload.afterState)
  else none

def addedByLine (line : Json) : Option (String × String) :=
  if lineType line = .str "AtReferenceAdded" then some (addedEnds env (lineAfter line)) else none

def batchConcepts (intent : EventIntent) : List String :=
  if intent.eventType = .conceptCreated then
    [env.str ((Dict.get intent.payload.afterState "concept_id").getD (.str ""))].filter (· ≠ "")
  else if intent.eventType = .conceptGraphProposal then
    (proposalConceptChanges env intent.payload).filterMap (changedEntity env)
  else []

def repoints (newVersionIds : List String) (ends : String × String) : Bool :=
  ends.1 ≠ "" && newVersionIds.any (resolvesTo ends.2)

def newVersionIds (concepts : List RetiringConcept) : List String :=
  (concepts.filter fun concept =>
    concept.newConceptId ≠ "" && concept.newConceptId ≠ concept.oldConceptId).map (·.newConceptId)

structure BatchMigrations where
  removedReferenceIds : List String
  repointedSources : List String
  batchConceptIds : List String

def collectBatchMigrations (domain : List EventIntent) (newVersions : List String) :
    BatchMigrations where
  removedReferenceIds := (domain.filterMap (removedReference env)).filter (· ≠ "")
  repointedSources :=
    ((domain.filterMap (addedByIntent env)).filter (repoints newVersions)).map Prod.fst
  batchConceptIds := domain.flatMap (batchConcepts env)

def committedRepointedSources (lines : List Json) (newVersions : List String) : List String :=
  ((lines.filterMap (addedByLine env)).filter (repoints newVersions)).map Prod.fst

def migrationStatus (source referenceId : String) (concept : RetiringConcept)
    (batch : BatchMigrations) (committedRepointed : List String) : Bool × String :=
  if referenceId ≠ "" ∧ referenceId ∈ batch.removedReferenceIds then
    (true, "at_reference_removed_in_batch")
  else if source ≠ "" ∧ source ∈ batch.repointedSources then
    (true, "at_reference_repointed_to_new_in_batch")
  else if source ≠ "" ∧ source ∈ committedRepointed then
    (true, "at_reference_repointed_to_new_committed")
  else if source ≠ "" ∧ source ∈ batch.batchConceptIds then
    (true, "source_co_superseded_in_batch")
  else if source ≠ "" ∧ source ∈ concept.declaredMigrated then (false, "declared_but_unverified")
  else (false, "unmigrated")

structure DependentMigrationFinding where
  sourceConceptId : String
  referenceId : String
  oldConceptId : String
  migrated : Bool
  via : String

structure ConceptRetireMigrationResult where
  passed : Bool
  applicable : Bool := false
  failureReason : Option String := none
  failureEvidence : Evidence := .empty
  notices : List String := []
  findings : List DependentMigrationFinding := []

def sourceOf (reference : Dict String Json) : String :=
  refField env reference ["source_concept_id"]

def referenceIdOf (reference : Dict String Json) : String :=
  refField env reference ["at_reference", "reference_id"]

def findingOf (concept : RetiringConcept) (batch : BatchMigrations)
    (committedRepointed : List String) (reference : Dict String Json) :
    DependentMigrationFinding :=
  let (migrated, via) := migrationStatus (sourceOf env reference) (referenceIdOf env reference)
    concept batch committedRepointed
  { sourceConceptId := sourceOf env reference, referenceId := referenceIdOf env reference
    oldConceptId := concept.oldConceptId, migrated, via }

def retireNotices (concept : RetiringConcept) (dependents : List String)
    (findings : List DependentMigrationFinding) : List String :=
  let untracked := dependents.eraseDups.filter fun dependent =>
    !(findings.map (·.sourceConceptId)).contains dependent &&
      dependent ≠ concept.oldConceptId && dependent ≠ concept.newConceptId
  (if untracked = [] then [] else
    ["concept_retire: " ++ concept.oldConceptId ++ " 的 CIS 依赖 " ++
      env.reprList (sortedSet untracked) ++ " 无对应 active 阻塞引用 " ++
      "(可能未登记 @ 引用或投影 stale; 阻塞判据走 @ 引用, 这些仅作召回提示)"]) ++
  ["concept_retire: " ++ concept.oldConceptId ++ "→" ++ concept.newConceptId ++ " 阻塞引用 " ++
    toString findings.length ++ " 条, 本 stage 仍未迁 " ++
    toString (findings.countP fun finding => !finding.migrated) ++ " 条 (CIS 依赖范围 " ++
    toString dependents.eraseDups.length ++ ")"]

def unresolvableRemedy : String :=
  "退役/升级的 ConceptCreated.supersede.superseded_event_id 必须指向一个真实、可解析" ++
    "出 concept_id 的既有事件; 解析不出无法核验依赖是否迁完 → 拒 (fail-closed)。"

def unmigratedRemedy : String :=
  "退役/升级一个概念前, 依赖它旧定义的下游必须逐个迁完 (分阶段), 且要留**真证据**: 把每个" ++
    "依赖的 @ 引用重指到新版本 (AtReferenceAdded), 或删除 (AtReferenceRemoved)。前几个 stage " ++
    "已重指到新版本的依赖会被 committed 历史证据自动认作迁完。退役 intent 的 " ++
    "semantic_annotation.migrated_concept_ids 自报已不能单独放行 (finding-r016: 自报无证据可绕过); " ++
    "标了自报但无证据的依赖会显示 via=declared_but_unverified 并仍被拦。全部迁完前退役被硬拦 (fail-closed)。"

def findingsFor (lines : List Json) (batch : BatchMigrations) (committedRepointed : List String)
    (concept : RetiringConcept) : List DependentMigrationFinding :=
  ((activeReferencesTo lines concept.oldConceptId).filter blocks).map
    (findingOf env concept batch committedRepointed)

/-- `check_concept_retire_migration` on the raw lines; `cisFor` gives the system's own idea of the
dependents, which goes into the notices. -/
def checkConceptRetireMigration (lines : List Json) (cisFor : String → List String)
    (domain : List EventIntent) : ConceptRetireMigrationResult :=
  let concepts := retiring env resolver domain
  let unresolved := unresolvable env resolver domain
  if concepts.isEmpty && unresolved.isEmpty then { passed := true }
  else if !unresolved.isEmpty then
    { passed := false, applicable := true
      failureReason := some "concept_retire_superseded_target_unresolvable"
      failureEvidence :=
        ⟨[("unresolvable_superseded_event_ids", String.intercalate "," unresolved),
          ("remedy", unresolvableRemedy)], by simp [Dict.keys]⟩ }
  else
    let newVersions := newVersionIds concepts
    let batch := collectBatchMigrations env domain newVersions
    let committedRepointed := committedRepointedSources env lines newVersions
    let perConcept := concepts.map fun concept =>
      (concept, findingsFor env lines batch committedRepointed concept)
    let findings := perConcept.flatMap Prod.snd
    let notices := perConcept.flatMap fun (concept, findings) =>
      retireNotices env concept (cisFor concept.oldConceptId) findings
    let unmigrated := findings.filter fun finding => !finding.migrated
    let sources := (unmigrated.map (·.sourceConceptId)).filter (· ≠ "")
    let references := (unmigrated.map (·.referenceId)).filter (· ≠ "")
    if sources.isEmpty && references.isEmpty then
      { passed := true, applicable := true, notices, findings }
    else
      { passed := false, applicable := true, notices, findings
        failureReason := some "concept_retire_unmigrated_dependents"
        failureEvidence :=
          ⟨[("retiring_concepts", String.intercalate ","
              (sortedSet (concepts.map (·.oldConceptId)))),
            ("unmigrated_dependents", String.intercalate "," (sortedSet sources)),
            ("unmigrated_references", String.intercalate "," (sortedSet references)),
            ("remedy", unmigratedRemedy)], by simp [Dict.keys]⟩ }

end

end Flowness.CommitGate
