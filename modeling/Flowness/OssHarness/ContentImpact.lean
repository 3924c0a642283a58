import Flowness.OssHarness.ContentGraphV3

/-!
`affected_artifacts_v3`: the ripple of a change set over both layers of a content graph, and the
changes whose ripple it loses.
-/

namespace Flowness.OssHarness

open List Library

/-- `limitation_to_claims[limitation]`. -/
def ContentGraphV3.limitedClaims (graph : ContentGraphV3) (limitation : String) : List String :=
  ((graph.claimLimitations.filter fun item => item.limitationIds.contains limitation).map
    ClaimLimitation.claimId).dedup

/-- The assets whose relation lists the node under `listed`. -/
def ContentGraphV3.assetsListing (graph : ContentGraphV3) (listed : AssetRelation → List String)
    (nodeId : String) : List String :=
  (graph.assetRelations.filter fun relation => (listed relation).contains nodeId).map
    AssetRelation.assetId

/-- `affected.update(affected_artifacts(source_graph, [claim])["affected_node_ids"])`. -/
def affectClaim (source : ContentGraph) (affected : List String) (claim : String) :
    Except GraphError (List String) := do
  let impact ← affectedArtifacts source [claim]
  return affected ++ impact.affectedNodeIds

def affectLimitation (graph : ContentGraphV3) (source : ContentGraph) (affected : List String)
    (limitation : String) : Except GraphError (List String) :=
  (graph.limitedClaims limitation).foldlM (affectClaim source)
    (affected ++ graph.limitedClaims limitation ++
      graph.assetsListing AssetRelation.boundaryIds limitation)

/-- The changed nodes of the V2 graph and `affected_artifacts` of them. -/
def affectDirectly (source : ContentGraph) (changedNodeIds : List String) :
    Except GraphError (List String) :=
  let changedV2 := (changedNodeIds.filter source.nodeMap.contains).insertionSort (· ≤ ·)
  if changedV2.isEmpty then .ok []
  else (affectedArtifacts source changedV2).map Impact.affectedNodeIds

/-- `affected`, which the changed nodes are still to be taken from. -/
def affectV3 (graph : ContentGraphV3) (source : ContentGraph) (changedNodeIds : List String) :
    Except GraphError (List String) := do
  let direct ← affectDirectly source changedNodeIds
  let limited ← (changedNodeIds.filter (graph.idsOfType .limitation).contains).foldlM
    (affectLimitation graph source) direct
  return limited ++ (changedNodeIds.filter (graph.idsOfType .channel).contains).flatMap
    (graph.assetsListing AssetRelation.channelIds)

def affectedArtifactsV3 (graph : ContentGraphV3) (source : ContentGraph)
    (changedNodeIds : List String) : Except GraphError Impact := do
  let _ ← validateContentGraphV3 graph source none
  let v2Nodes := source.nodeMap
  let v3Ids := graph.nodes.map RelationNode.nodeId
  require (!changedNodeIds.isEmpty &&
    changedNodeIds.all fun nodeId => v2Nodes.contains nodeId || v3Ids.contains nodeId)
    .v3ChangeSetInvalid
  let affected ← affectV3 graph source changedNodeIds
  return {
    schemaVersion := "content-impact/v3"
    changedNodeIds := sortedSet changedNodeIds
    affectedNodeIds := sortedSet (affected.filter fun nodeId => !changedNodeIds.contains nodeId)
    requiredState := .evidenceBound
    boundary := "private impact analysis only; it cannot publish, approve, send, or mutate any " ++
      "source asset." }

structure ChangeSet (graph : ContentGraphV3) (source : ContentGraph) (changed : List String) :
    Prop where
  nonempty : changed ≠ []
  known : ∀ nodeId ∈ changed,
    nodeId ∈ source.ids ∨ nodeId ∈ graph.nodes.map RelationNode.nodeId

def ContentGraphV3.Limits (graph : ContentGraphV3) (limitation claim : String) : Prop :=
  limitation ∈ graph.idsOfType .limitation ∧
    ∃ item ∈ graph.claimLimitations, item.claimId = claim ∧ limitation ∈ item.limitationIds

def Starts (graph : ContentGraphV3) (source : ContentGraph) (changed : Set String)
    (nodeId : String) : Prop :=
  (nodeId ∈ changed ∧ nodeId ∈ source.ids) ∨ ∃ limitation ∈ changed, graph.Limits limitation nodeId

/-- The relation binds its asset to the node as a boundary limitation or as a channel. -/
def AssetRelation.Binds (graph : ContentGraphV3) (relation : AssetRelation) (nodeId : String) :
    Prop :=
  (nodeId ∈ graph.idsOfType .limitation ∧ nodeId ∈ relation.boundaryIds) ∨
    (nodeId ∈ graph.idsOfType .channel ∧ nodeId ∈ relation.channelIds)

def Bound (graph : ContentGraphV3) (changed : Set String) (assetId : String) : Prop :=
  ∃ relation ∈ graph.assetRelations, relation.assetId = assetId ∧
    ∃ nodeId ∈ changed, relation.Binds graph nodeId

/-- One of the rules of `affected_artifacts_v3` leads from the changed nodes to the node. -/
def Invalidated (graph : ContentGraphV3) (source : ContentGraph) (changed : Set String)
    (nodeId : String) : Prop :=
  (source.Artifact nodeId ∧ ∃ start, Starts graph source changed start ∧
    source.Reaches start nodeId) ∨ Bound graph changed nodeId

section

variable {graph : ContentGraphV3} {source : ContentGraph} {changed : List String}

theorem mem_limitedClaims : claim ∈ graph.limitedClaims limitation ↔
      ∃ item ∈ graph.claimLimitations, item.claimId = claim ∧ limitation ∈ item.limitationIds := by
  simp only [ContentGraphV3.limitedClaims, mem_dedup, mem_map, mem_filter,
    contains_iff_mem]
  constructor
  · intro h
    obtain ⟨item, ⟨hmem, hlimits⟩, hclaim⟩ := h
    exact ⟨item, hmem, hclaim, hlimits⟩
  · intro h
    obtain ⟨item, hmem, hclaim, hlimits⟩ := h
    exact ⟨item, ⟨hmem, hlimits⟩, hclaim⟩

theorem mem_assetsListing : assetId ∈ graph.assetsListing listed nodeId ↔
      ∃ relation ∈ graph.assetRelations, relation.assetId = assetId ∧ nodeId ∈ listed relation := by
  simp only [ContentGraphV3.assetsListing, mem_map, mem_filter, contains_iff_mem]
  constructor
  · intro h
    obtain ⟨relation, ⟨hmem, hlisted⟩, hasset⟩ := h
    exact ⟨relation, hmem, hasset, hlisted⟩
  · intro h
    obtain ⟨relation, hmem, hasset, hlisted⟩ := h
    exact ⟨relation, ⟨hmem, hlisted⟩, hasset⟩

theorem ContentGraph.artifact_of_type (htype : type.isArtifact = true)
    (h : nodeId ∈ source.idsOfType type) : source.Artifact nodeId := by
  obtain ⟨node, hmem, hid, rfl⟩ := ContentGraph.mem_idsOfType.mp h
  exact ⟨node, hmem, hid, htype⟩

section

variable (h : Overlays graph source)
include h

theorem Overlays.artifact_claim (hlimits : claim ∈ graph.limitedClaims limitation) :
    source.Artifact claim := by
  obtain ⟨item, hmem, rfl, -⟩ := mem_limitedClaims.mp hlimits
  exact ContentGraph.artifact_of_type rfl (h.limitations item hmem).claim

theorem Overlays.artifact_asset (hmem : relation ∈ graph.assetRelations) :
    source.Artifact relation.assetId := by
  obtain ⟨limits, hsound⟩ := h.relations relation hmem
  exact ContentGraph.artifact_of_type rfl hsound.asset

theorem affectClaim_ok (hclaim : claim ∈ source.ids) (affected : List String) :
    ∃ after, affectClaim source affected claim = .ok after ∧ ∀ nodeId, nodeId ∈ after ↔
      nodeId ∈ affected ∨
        (nodeId ≠ claim ∧ source.Artifact nodeId ∧ source.Reaches claim nodeId) := by
  obtain ⟨impact, himpact, hmem⟩ := affectedArtifacts_ok h.wellFormed (cons_ne_nil claim [])
    (by simpa using hclaim)
  refine ⟨affected ++ impact.affectedNodeIds, ?_, fun nodeId => ?_⟩
  · rw [affectClaim, himpact]
    rfl
  · rw [mem_append, hmem]
    simp

theorem affectLimitation_ok (affected : List String) (limitation : String) :
    ∃ after, affectLimitation graph source affected limitation = .ok after ∧
      ∀ nodeId, nodeId ∈ after ↔ nodeId ∈ affected ∨
        ((source.Artifact nodeId ∧
          ∃ claim ∈ graph.limitedClaims limitation, source.Reaches claim nodeId) ∨
        nodeId ∈ graph.assetsListing AssetRelation.boundaryIds limitation) := by
  obtain ⟨after, hafter, hmem⟩ := foldlM_collect
    (fun claim nodeId => nodeId ≠ claim ∧ source.Artifact nodeId ∧ source.Reaches claim nodeId)
    (fun claim hclaim => affectClaim_ok h (h.artifact_claim hclaim).mem_ids)
    (affected ++ graph.limitedClaims limitation ++
      graph.assetsListing AssetRelation.boundaryIds limitation)
  refine ⟨after, hafter, fun nodeId => ?_⟩
  rw [hmem, mem_append, mem_append]
  constructor
  · intro hin
    rcases hin with ((hin | hclaim) | hasset) | ⟨claim, hclaim, -, hartifact, hreach⟩
    · exact .inl hin
    · exact .inr (.inl ⟨h.artifact_claim hclaim, nodeId, hclaim, Relation.ReflTransGen.refl⟩)
    · exact .inr (.inr hasset)
    · exact .inr (.inl ⟨hartifact, claim, hclaim, hreach⟩)
  · intro hin
    rcases hin with hin | ⟨hartifact, claim, hclaim, hreach⟩ | hasset
    · exact .inl (.inl (.inl hin))
    · by_cases heq : nodeId = claim
      · exact .inl (.inl (.inr (heq ▸ hclaim)))
      · exact .inr ⟨claim, hclaim, heq, hartifact, hreach⟩
    · exact .inl (.inr hasset)

theorem affectDirectly_ok (changed : List String) :
    ∃ direct, affectDirectly source changed = .ok direct ∧
      ∀ nodeId, nodeId ∉ changed → (nodeId ∈ direct ↔ source.Artifact nodeId ∧
        ∃ start ∈ changed, start ∈ source.ids ∧ source.Reaches start nodeId) := by
  have hmem : ∀ nodeId, nodeId ∈ (changed.filter source.nodeMap.contains).insertionSort (· ≤ ·) ↔
      nodeId ∈ changed ∧ nodeId ∈ source.ids := by
    intro nodeId
    rw [mem_insertionSort, mem_filter, Dict.contains_iff, mem_keys_nodeMap]
  unfold affectDirectly
  generalize (changed.filter source.nodeMap.contains).insertionSort (· ≤ ·) = changedV2 at hmem ⊢
  by_cases hempty : changedV2 = []
  · refine ⟨[], by rw [hempty]; rfl, fun nodeId hnot => ?_⟩
    constructor
    · intro hin
      cases hin
    · intro hin
      obtain ⟨-, start, hchanged, hid, -⟩ := hin
      have hstart := (hmem start).mpr ⟨hchanged, hid⟩
      rw [hempty] at hstart
      cases hstart
  · obtain ⟨impact, himpact, haffected⟩ := affectedArtifacts_ok h.wellFormed hempty
      fun nodeId hin => ((hmem nodeId).mp hin).2
    refine ⟨impact.affectedNodeIds, ?_, fun nodeId hnot => ?_⟩
    · simp [List.isEmpty_iff, hempty, himpact, Except.map]
    · simp only [haffected, hmem, hnot, false_and, not_false_eq_true, true_and, and_assoc]

theorem affectV3_ok (changed : List String) :
    ∃ affected, affectV3 graph source changed = .ok affected ∧
      ∀ nodeId, nodeId ∉ changed →
        (nodeId ∈ affected ↔ Invalidated graph source {x | x ∈ changed} nodeId) := by
  obtain ⟨direct, hdirect, hmemDirect⟩ := affectDirectly_ok h changed
  obtain ⟨limited, hlimited, hmemLimited⟩ := foldlM_collect _
    (fun limitation (_ : limitation ∈ changed.filter (graph.idsOfType .limitation).contains)
      affected => affectLimitation_ok h affected limitation) direct
  refine ⟨limited ++ (changed.filter (graph.idsOfType .channel).contains).flatMap
    (graph.assetsListing AssetRelation.channelIds), ?_, fun nodeId hnot => ?_⟩
  · simp only [affectV3, bind_ok]
    exact ⟨direct, hdirect, limited, hlimited, rfl⟩
  · simp only [mem_append, hmemLimited, hmemDirect nodeId hnot, mem_flatMap,
      mem_filter, contains_iff_mem, mem_assetsListing, mem_limitedClaims]
    constructor
    · intro h
      rcases h with (⟨hartifact, start, hchanged, hid, hreach⟩ | ⟨limitation, ⟨hchanged, hlimitation⟩,
        ⟨hartifact, claim, hitem, hreach⟩ | ⟨relation, hmem, hasset, hbound⟩⟩) |
        ⟨channel, ⟨hchanged, hchannel⟩, relation, hmem, hasset, hbound⟩
      · exact .inl ⟨hartifact, start, .inl ⟨hchanged, hid⟩, hreach⟩
      · exact .inl ⟨hartifact, claim, .inr ⟨limitation, hchanged, hlimitation, hitem⟩, hreach⟩
      · exact .inr ⟨relation, hmem, hasset, limitation, hchanged, .inl ⟨hlimitation, hbound⟩⟩
      · exact .inr ⟨relation, hmem, hasset, channel, hchanged, .inr ⟨hchannel, hbound⟩⟩
    · intro h
      rcases h with ⟨hartifact, start, hstart, hreach⟩ | ⟨relation, hmem, hasset, bound, hchanged, hbinds⟩
      · rcases hstart with ⟨hchanged, hid⟩ | ⟨limitation, hchanged, hlimitation, hitem⟩
        · exact .inl (.inl ⟨hartifact, start, hchanged, hid, hreach⟩)
        · exact .inl (.inr ⟨limitation, ⟨hchanged, hlimitation⟩,
            .inl ⟨hartifact, start, hitem, hreach⟩⟩)
      · rcases hbinds with ⟨hlimitation, hbound⟩ | ⟨hchannel, hbound⟩
        · exact .inl (.inr ⟨bound, ⟨hchanged, hlimitation⟩, .inr ⟨relation, hmem, hasset, hbound⟩⟩)
        · exact .inr ⟨bound, ⟨hchanged, hchannel⟩, relation, hmem, hasset, hbound⟩

end

theorem affectedArtifactsV3_ok (hvalid : validateContentGraphV3 graph source none = .ok result)
    (hchanged : ChangeSet graph source changed) :
    ∃ impact, affectedArtifactsV3 graph source changed = .ok impact ∧
      ∀ nodeId, nodeId ∈ impact.affectedNodeIds ↔
        nodeId ∉ changed ∧ Invalidated graph source {x | x ∈ changed} nodeId := by
  obtain ⟨affected, haffected, hmem⟩ := affectV3_ok (overlays_of_ok hvalid) changed
  have hknown : (!changed.isEmpty && changed.all fun nodeId => source.nodeMap.contains nodeId ||
      (graph.nodes.map RelationNode.nodeId).contains nodeId) = true := by
    rw [Bool.and_eq_true, all_eq_true]
    refine ⟨by simpa [List.isEmpty_iff] using hchanged.nonempty, fun nodeId hin => ?_⟩
    rw [Bool.or_eq_true, Dict.contains_iff, mem_keys_nodeMap, contains_iff_mem]
    exact hchanged.known nodeId hin
  have hreturn : (affectedArtifactsV3 graph source changed).isOk = true := by
    simp only [affectedArtifactsV3, hvalid, haffected, hknown]
    rfl
  obtain ⟨impact, himpact⟩ := exists_ok hreturn
  refine ⟨impact, himpact, fun nodeId => ?_⟩
  simp only [affectedArtifactsV3, haffected, bind_ok] at himpact
  obtain ⟨-, -, -, -, found, hfound, himpact⟩ := himpact
  cases hfound
  cases himpact
  rw [mem_sortedSet, mem_filter, Bool.not_eq_true', ← Bool.not_eq_true, contains_iff_mem,
    and_comm]
  exact and_congr_right (hmem nodeId)

end

def sampleSource : ContentGraph where
  schemaVersion := .v2
  nodes := [
    ⟨"claim.replay", .claim, .draft, "snapshot.1", "hash.claim", none⟩,
    ⟨"asset.readme", .asset, .draft, "snapshot.1", "hash.readme", some "README.md"⟩,
    ⟨"package.forum", .channelPackage, .draft, "snapshot.1", "hash.package", none⟩]
  edges := [⟨"asset.readme", "claim.replay", .derivedFrom⟩, ⟨"package.forum", "asset.readme", .contains⟩]

def sampleRelationNode (nodeId : String) (type : RelationNodeType) : RelationNode :=
  ⟨nodeId, type, "candidate.1", "snapshot.1", "version.1", "hash.relation", .draft⟩

def sampleRelation : AssetRelation where
  assetId := "asset.readme"
  audienceIds := ["audience.operators"]
  channelIds := ["channel.forum"]
  locale := .en
  capability := .draft
  versionId := "version.1"
  boundaryIds := ["limitation.local"]
  sourceNodeIds := ["claim.replay"]
  sourceNodeHashes := [("claim.replay", "hash.claim")]
  transform := ⟨"producer.local", "1", "none"⟩
  reviewIds := ["review.local-content-boundary-v1"]
  scopeClaimIds := ["claim.replay"]

def sampleOverlay : ContentGraphV3 where
  graphId := "graph.1"
  sourceGraph := ⟨"registries/content-graph.json", .v2,
    "sha256:0000000000000000000000000000000000000000000000000000000000000000"⟩
  candidate := ⟨"candidate.1", "snapshot.1", "version.1", "0.1.0", .draft⟩
  allowedTransformProducers := ["producer.local"]
  nodes := [sampleRelationNode "limitation.local" .limitation,
    sampleRelationNode "audience.operators" .audienceProfile,
    sampleRelationNode "channel.forum" .channel, sampleRelationNode "version.1" .version]
  claimLimitations := [⟨"claim.replay", ["limitation.local"]⟩]
  assetRelations := [sampleRelation]
  localizationPairs := []

theorem sampleOverlay_valid : ∃ result,
    validateContentGraphV3 sampleOverlay sampleSource none = .ok result :=
  exists_ok (by decide +kernel)

/-- The relation names the node as a source, a boundary limitation, a channel or an audience. -/
def AssetRelation.Names (graph : ContentGraphV3) (relation : AssetRelation) (nodeId : String) :
    Prop :=
  nodeId ∈ relation.sourceNodeIds ∨ relation.Binds graph nodeId ∨
    (nodeId ∈ graph.idsOfType .audienceProfile ∧ nodeId ∈ relation.audienceIds)

/-- `affected_artifacts` returns the artifacts that edges lead to from the changed nodes. -/
def ArtifactsExact (source : ContentGraph) : Prop :=
  ∀ changed, changed ≠ [] → (∀ nodeId ∈ changed, nodeId ∈ source.ids) →
    ∃ impact, affectedArtifacts source changed = .ok impact ∧
      ∀ nodeId, nodeId ∈ impact.affectedNodeIds ↔ nodeId ∉ changed ∧ source.Artifact nodeId ∧
        ∃ start ∈ changed, source.Reaches start nodeId

/-- Nothing is missing from the impact of the changed nodes. -/
structure Complete (graph : ContentGraphV3) (source : ContentGraph) (changed : List String)
    (impact : Impact) : Prop where
  named : ∀ relation ∈ graph.assetRelations, relation.assetId ∉ changed →
    (∃ nodeId ∈ changed, relation.Names graph nodeId) → relation.assetId ∈ impact.affectedNodeIds
  closed : ∀ nodeId ∈ source.ids, nodeId ∈ impact.affectedNodeIds ∨ nodeId ∈ changed →
    ∀ further, affectedArtifacts source [nodeId] = .ok further →
      ∀ reached ∈ further.affectedNodeIds, reached ∉ changed → reached ∈ impact.affectedNodeIds
  union : ∀ other both, ChangeSet graph source other →
    (∀ nodeId, nodeId ∈ both ↔ nodeId ∈ changed ∨ nodeId ∈ other) →
    ∃ otherImpact bothImpact, affectedArtifactsV3 graph source other = .ok otherImpact ∧
      affectedArtifactsV3 graph source both = .ok bothImpact ∧
      ∀ nodeId, nodeId ∈ bothImpact.affectedNodeIds ↔ nodeId ∉ both ∧
        (nodeId ∈ impact.affectedNodeIds ∨ nodeId ∈ otherImpact.affectedNodeIds)

/-- Both functions return everything that a change of the nodes makes stale. -/
def ImpactComplete (graph : ContentGraphV3) (source : ContentGraph) (changed : List String) :
    Prop :=
  ArtifactsExact source ∧
    ∃ impact, affectedArtifactsV3 graph source changed = .ok impact ∧
      Complete graph source changed impact

structure NoBlindSpot (graph : ContentGraphV3) (source : ContentGraph) (changed : Set String) :
    Prop where
  /-- No rule looks at the audiences of a relation. -/
  audience : ∀ relation ∈ graph.assetRelations, relation.assetId ∉ changed →
    (∃ nodeId ∈ changed, nodeId ∈ graph.idsOfType .audienceProfile ∧
      nodeId ∈ relation.audienceIds) → Invalidated graph source changed relation.assetId
  /-- What an asset implements is a source of it, but the edge is searched the other way. -/
  implemented : ∀ relation ∈ graph.assetRelations, relation.assetId ∉ changed →
    (∃ nodeId ∈ changed, ⟨relation.assetId, nodeId, .implements⟩ ∈ source.edges) →
      Invalidated graph source changed relation.assetId
  /-- The search does not go on from an asset that its limitation or channel invalidates. -/
  behind : ∀ assetId, assetId ∉ changed → Bound graph changed assetId →
    ∀ nodeId, nodeId ∉ changed → source.Artifact nodeId → source.Reaches assetId nodeId →
      Invalidated graph source changed nodeId

section

variable {graph : ContentGraphV3} {source : ContentGraph} {changed : Set String}

theorem invalidated_union (other : Set String) (nodeId : String) :
    Invalidated graph source (changed ∪ other) nodeId ↔
      Invalidated graph source changed nodeId ∨ Invalidated graph source other nodeId := by
  have hstarts : ∀ start, Starts graph source (changed ∪ other) start ↔
      Starts graph source changed start ∨ Starts graph source other start := by
    intro start
    simp only [Starts, Set.mem_union, or_and_right, exists_or]
    exact or_or_or_comm
  have hbound : Bound graph (changed ∪ other) nodeId ↔
      Bound graph changed nodeId ∨ Bound graph other nodeId := by
    simp only [Bound, Set.mem_union, or_and_right, exists_or, and_or_left]
  simp only [Invalidated, hstarts, hbound, or_and_right, exists_or, and_or_left]
  exact or_or_or_comm

theorem EdgeType.backward_of_derivation {type : EdgeType} (h : type.derivation = true)
    (hne : type ≠ .implements) : type.forward = false := by
  cases type
  case derivedFrom => rfl
  case explains => rfl
  case implements => exact absurd rfl hne
  all_goals cases h

theorem Overlays.invalidated_of_source (h : Overlays graph source)
    (hmem : relation ∈ graph.assetRelations) (hchanged : nodeId ∈ changed)
    (hsource : nodeId ∈ relation.sourceNodeIds) :
    Invalidated graph source changed relation.assetId ∨
      ⟨relation.assetId, nodeId, .implements⟩ ∈ source.edges := by
  obtain ⟨limits, hsound⟩ := h.relations relation hmem
  rw [hsound.sources, mem_assetSources] at hsource
  obtain ⟨edge, hedge, hderivation, hfrom, hto⟩ := hsource
  obtain ⟨fromId, toId, type⟩ := edge
  subst hfrom
  subst hto
  by_cases htype : type = .implements
  · subst htype
    exact .inr hedge
  · have hbackward := EdgeType.backward_of_derivation hderivation htype
    have hedge' : source.Invalidates toId relation.assetId :=
      ⟨_, hedge, by simp [ContentEdge.dependency, hbackward]⟩
    exact .inl (.inl ⟨h.artifact_asset hmem, toId,
      .inl ⟨hchanged, (h.wellFormed.endpoints _ hedge).2.1⟩,
      Relation.ReflTransGen.single hedge'⟩)

theorem closed_of_noBlindSpot (hsees : NoBlindSpot graph source changed)
    (hfrom : nodeId ∈ source.ids)
    (hstart : (nodeId ∉ changed ∧ Invalidated graph source changed nodeId) ∨ nodeId ∈ changed)
    (hartifact : source.Artifact reached) (hreach : source.Reaches nodeId reached)
    (hnot : reached ∉ changed) : Invalidated graph source changed reached := by
  rcases hstart with ⟨hkept, ⟨-, start, hstarts, hfound⟩ | hbound⟩ | hchanged
  · exact .inl ⟨hartifact, start, hstarts, hfound.trans hreach⟩
  · exact hsees.behind nodeId hkept hbound reached hnot hartifact hreach
  · exact .inl ⟨hartifact, nodeId, .inl ⟨hchanged, hfrom⟩, hreach⟩

end

section

variable {graph : ContentGraphV3} {source : ContentGraph} {changed : List String}

theorem named_of_noBlindSpot (h : Overlays graph source)
    (hsees : NoBlindSpot graph source {x | x ∈ changed}) {impact : Impact}
    (hmem : ∀ nodeId, nodeId ∈ impact.affectedNodeIds ↔ nodeId ∉ changed ∧
      Invalidated graph source {x | x ∈ changed} nodeId)
    (hrelation : relation ∈ graph.assetRelations) (hnot : relation.assetId ∉ changed)
    (hnames : ∃ nodeId ∈ changed, relation.Names graph nodeId) :
    relation.assetId ∈ impact.affectedNodeIds := by
  obtain ⟨nodeId, hchanged, hnames⟩ := hnames
  refine (hmem _).mpr ⟨hnot, ?_⟩
  rcases hnames with hsource | hbinds | ⟨haudience, hlisted⟩
  · have hsearch : nodeId ∈ {x | x ∈ changed} := hchanged
    rcases h.invalidated_of_source hrelation hsearch hsource with hfound | hedge
    · exact hfound
    · exact hsees.implemented relation hrelation hnot ⟨nodeId, hchanged, hedge⟩
  · exact .inr ⟨relation, hrelation, rfl, nodeId, hchanged, hbinds⟩
  · exact hsees.audience relation hrelation hnot ⟨nodeId, hchanged, haudience, hlisted⟩

theorem noBlindSpot_of_complete (h : Overlays graph source)
    (hmem : ∀ nodeId, nodeId ∈ impact.affectedNodeIds ↔ nodeId ∉ changed ∧
      Invalidated graph source {x | x ∈ changed} nodeId)
    (hcomplete : Complete graph source changed impact) :
    NoBlindSpot graph source {x | x ∈ changed} := by
  refine ⟨fun relation hrelation hnot haudience => ?_, fun relation hrelation hnot himplements => ?_,
    fun assetId hnot hbound nodeId hkept hartifact hreach => ?_⟩
  · obtain ⟨nodeId, hchanged, hlisted⟩ := haudience
    exact ((hmem _).mp (hcomplete.named relation hrelation hnot
      ⟨nodeId, hchanged, .inr (.inr hlisted)⟩)).2
  · obtain ⟨nodeId, hchanged, hedge⟩ := himplements
    obtain ⟨limits, hsound⟩ := h.relations relation hrelation
    have hsource : nodeId ∈ relation.sourceNodeIds := by
      rw [hsound.sources, mem_assetSources]
      exact ⟨_, hedge, rfl, rfl, rfl⟩
    exact ((hmem _).mp (hcomplete.named relation hrelation hnot
      ⟨nodeId, hchanged, .inl hsource⟩)).2
  · have haffected := (hmem assetId).mpr ⟨hnot, .inr hbound⟩
    by_cases heq : nodeId = assetId
    · subst heq
      exact .inr hbound
    · obtain ⟨relation, hrelation, rfl, -⟩ := hbound
      have hasset := (h.artifact_asset hrelation).mem_ids
      obtain ⟨further, hfurther, hreached⟩ := affectedArtifacts_ok h.wellFormed
        (cons_ne_nil relation.assetId []) (by simpa using hasset)
      have hin : nodeId ∈ further.affectedNodeIds :=
        (hreached nodeId).mpr ⟨by simpa using heq, hartifact, _, mem_singleton_self _, hreach⟩
      exact ((hmem nodeId).mp (hcomplete.closed _ hasset (.inl haffected) further hfurther nodeId
        hin hkept)).2

/-- Content impact is complete exactly for the change sets without a blind spot: every asset that
binds a changed audience or implements a changed node, and all that is downstream of an asset
bound to a changed limitation or channel, has to be reached by another rule. -/
theorem impactComplete_iff {result : GraphV3Verification}
    (hvalid : validateContentGraphV3 graph source none = .ok result)
    (hchanged : ChangeSet graph source changed) :
    ImpactComplete graph source changed ↔ NoBlindSpot graph source {x | x ∈ changed} := by
  have h := overlays_of_ok hvalid
  obtain ⟨impact, himpact, hmem⟩ := affectedArtifactsV3_ok hvalid hchanged
  constructor
  · intro hcomplete
    obtain ⟨-, found, hfound, hcomplete⟩ := hcomplete
    rw [himpact] at hfound
    cases hfound
    exact noBlindSpot_of_complete h hmem hcomplete
  · intro hsees
    refine ⟨fun changed hne hknown => affectedArtifacts_ok h.wellFormed hne hknown, impact, himpact,
      fun relation hrelation hnot hnames =>
        named_of_noBlindSpot h hsees hmem hrelation hnot hnames, ?_, ?_⟩
    · intro nodeId hfrom hstart further hfurther reached hreached hnot
      rw [hmem] at hstart ⊢
      obtain ⟨found, hfound, hfurtherMem⟩ := affectedArtifacts_ok h.wellFormed
        (cons_ne_nil nodeId []) (by simpa using hfrom)
      rw [hfurther] at hfound
      cases hfound
      obtain ⟨-, hartifact, start, hstartMem, hreach⟩ := (hfurtherMem reached).mp hreached
      rw [mem_singleton.mp hstartMem] at hreach
      exact ⟨hnot, closed_of_noBlindSpot hsees hfrom hstart hartifact hreach hnot⟩
    · intro other both hother hboth
      obtain ⟨otherImpact, hotherImpact, hotherMem⟩ := affectedArtifactsV3_ok hvalid hother
      have hbothSet : ChangeSet graph source both := by
        refine ⟨fun hnil => ?_, fun nodeId hin => ?_⟩
        · obtain ⟨first, hfirst⟩ := exists_mem_of_ne_nil changed hchanged.nonempty
          have hin := (hboth first).mpr (Or.inl hfirst)
          rw [hnil] at hin
          cases hin
        · exact ((hboth nodeId).mp hin).elim (hchanged.known nodeId) (hother.known nodeId)
      obtain ⟨bothImpact, hbothImpact, hbothMem⟩ := affectedArtifactsV3_ok hvalid hbothSet
      refine ⟨otherImpact, bothImpact, hotherImpact, hbothImpact, fun nodeId => ?_⟩
      have hunion : {x | x ∈ both} = {x | x ∈ changed} ∪ {x | x ∈ other} := Set.ext hboth
      rw [hbothMem, hmem, hotherMem, hunion, invalidated_union, hboth, not_or]
      tauto

end

/-- A change of the claim reaches the readme and its package. -/
theorem claim_change_complete : ImpactComplete sampleOverlay sampleSource ["claim.replay"] := by
  obtain ⟨result, hvalid⟩ := sampleOverlay_valid
  refine (impactComplete_iff hvalid ⟨by decide, by decide +kernel⟩).mpr ⟨?_, ?_, ?_⟩
  · intro relation _ _ haudience
    exact absurd haudience (by simp [ContentGraphV3.idsOfType, sampleOverlay, sampleRelationNode])
  · intro relation _ _ himplements
    exact absurd himplements (by simp [sampleSource])
  · intro assetId _ hbound
    refine absurd hbound ?_
    simp [Bound, AssetRelation.Binds, ContentGraphV3.idsOfType, sampleOverlay, sampleRelationNode]

/-- The readme is written for an audience; a change of that audience affects nothing. -/
theorem audience_change_unseen : ChangeSet sampleOverlay sampleSource ["audience.operators"] ∧
    ¬ ImpactComplete sampleOverlay sampleSource ["audience.operators"] := by
  refine ⟨⟨by decide, by decide +kernel⟩, fun h => ?_⟩
  obtain ⟨-, impact, himpact, hcomplete⟩ := h
  have hnothing : (affectedArtifactsV3 sampleOverlay sampleSource ["audience.operators"]).map
      Impact.affectedNodeIds = .ok [] := by decide +kernel
  rw [himpact] at hnothing
  have hempty : impact.affectedNodeIds = [] := Except.ok.inj hnothing
  have hreadme := hcomplete.named sampleRelation (by decide +kernel) (by decide +kernel)
    ⟨"audience.operators", mem_singleton_self _, Or.inr (Or.inr (by decide +kernel))⟩
  rw [hempty] at hreadme
  cases hreadme

/-- The package that contains the readme is lost where only the readme's channel changes. -/
example : (affectedArtifactsV3 sampleOverlay sampleSource ["channel.forum"]).map
    Impact.affectedNodeIds = .ok ["asset.readme"] := by decide +kernel

end Flowness.OssHarness
