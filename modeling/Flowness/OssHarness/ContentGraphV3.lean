import Flowness.OssHarness.ContentGraph

/-!
`validate_content_graph_v3`: a private overlay over one exact V2 graph, which binds its claims to
limitations and its assets to sources, limitations, audiences and channels.
-/

namespace Flowness.OssHarness

open Library

inductive RelationNodeType where
  | limitation
  | audienceProfile
  | channel
  | version
deriving DecidableEq, Repr

/-- `_ALLOWED_CAPABILITIES`. -/
inductive GraphCapability where
  | draft
  | manualPublishPack
  | analyticsOnly
  | notApplicable
deriving DecidableEq, Repr

/-- `_ALLOWED_LOCALES`. -/
inductive Locale where
  | en
  | zhCN
  | notApplicable
deriving DecidableEq, Repr

inductive PairStatus where
  | unreviewed
  | reviewed
deriving DecidableEq, Repr

structure SourceGraphRef where
  sourcePath : String
  schemaVersion : GraphVersion
  contentHash : String
deriving DecidableEq, Repr

structure GraphCandidate where
  candidateId : String
  snapshotId : String
  versionId : String
  semanticVersion : String
  capability : GraphCapability
deriving DecidableEq, Repr

structure RelationNode where
  nodeId : String
  type : RelationNodeType
  candidateId : String
  snapshotId : String
  versionId : String
  contentHash : String
  capability : GraphCapability
deriving DecidableEq, Repr

structure ClaimLimitation where
  claimId : String
  limitationIds : List String
deriving DecidableEq, Repr

structure Transform where
  producerId : String
  templateVersion : String
  modelId : String
deriving DecidableEq, Repr

structure AssetRelation where
  assetId : String
  audienceIds : List String
  channelIds : List String
  locale : Locale
  capability : GraphCapability
  versionId : String
  boundaryIds : List String
  sourceNodeIds : List String
  sourceNodeHashes : Dict String String
  transform : Transform
  reviewIds : List String
  /-- `scope["claim_ids"]`. -/
  scopeClaimIds : List String
deriving DecidableEq, Repr

structure LocalizationPair where
  pairId : String
  assetIds : List String
  status : PairStatus
  reviewIds : List String
deriving DecidableEq, Repr

structure ContentGraphV3 where
  graphId : String
  sourceGraph : SourceGraphRef
  candidate : GraphCandidate
  allowedTransformProducers : List String
  nodes : List RelationNode
  claimLimitations : List ClaimLimitation
  assetRelations : List AssetRelation
  localizationPairs : List LocalizationPair
deriving DecidableEq, Repr

def uniqueIds (ids : List String) : Bool := ids.all nonEmpty && decide ids.Nodup

/-- The schema's `id_list`. -/
def isIdList (ids : List String) : Bool := !ids.isEmpty && uniqueIds ids

def SourceGraphRef.schema (ref : SourceGraphRef) : Bool :=
  nonEmpty ref.sourcePath && ref.schemaVersion == .v2 && hasSha256Pattern ref.contentHash.toList

def GraphCandidate.schema (candidate : GraphCandidate) : Bool :=
  [candidate.candidateId, candidate.snapshotId, candidate.versionId,
    candidate.semanticVersion].all nonEmpty && candidate.capability == .draft

def RelationNode.schema (node : RelationNode) : Bool :=
  [node.nodeId, node.candidateId, node.snapshotId, node.versionId, node.contentHash].all nonEmpty

def ClaimLimitation.schema (item : ClaimLimitation) : Bool :=
  nonEmpty item.claimId && isIdList item.limitationIds

def AssetRelation.schema (relation : AssetRelation) : Bool :=
  nonEmpty relation.assetId && nonEmpty relation.versionId &&
    [relation.audienceIds, relation.channelIds, relation.boundaryIds, relation.sourceNodeIds,
      relation.reviewIds, relation.scopeClaimIds].all isIdList &&
    relation.sourceNodeHashes.all (fun entry => nonEmpty entry.2) &&
    [relation.transform.producerId, relation.transform.templateVersion,
      relation.transform.modelId].all nonEmpty

def LocalizationPair.schema (pair : LocalizationPair) : Bool :=
  nonEmpty pair.pairId && pair.assetIds.length == 2 && uniqueIds pair.assetIds &&
    uniqueIds pair.reviewIds

def ContentGraphV3.schema (graph : ContentGraphV3) : Bool :=
  nonEmpty graph.graphId && graph.sourceGraph.schema && graph.candidate.schema &&
    isIdList graph.allowedTransformProducers &&
    decide (4 ≤ graph.nodes.length) && graph.nodes.all RelationNode.schema &&
    !graph.claimLimitations.isEmpty && graph.claimLimitations.all ClaimLimitation.schema &&
    !graph.assetRelations.isEmpty && graph.assetRelations.all AssetRelation.schema &&
    graph.localizationPairs.all LocalizationPair.schema

def notApplicable : String := "NotApplicable"

def sameSet (ids others : List String) : Bool := ids.all others.contains && others.all ids.contains

def asNonemptyUniqueStrings (value : List String) (error : GraphError) :
    Except GraphError (List String) := do
  require (!value.isEmpty && value.all nonEmpty) error
  require (decide value.Nodup) error
  return value

def assertNotApplicableOrKnown (values known : List String) (error : GraphError) :
    Except GraphError (List String) := do
  let result ← asNonemptyUniqueStrings values error
  require (result == [notApplicable] ||
    (!result.contains notApplicable && result.all known.contains)) error
  return result

def ContentGraph.idsOfType (graph : ContentGraph) (type : NodeType) : List String :=
  (graph.nodes.filter fun node => node.type == type).map ContentNode.nodeId

def ContentGraphV3.idsOfType (graph : ContentGraphV3) (type : RelationNodeType) : List String :=
  (graph.nodes.filter fun node => node.type == type).map RelationNode.nodeId

/-- `_DERIVATION_EDGE_TYPES`. -/
def EdgeType.derivation : EdgeType → Bool
  | .derivedFrom | .explains | .implements => true
  | _ => false

/-- `result.setdefault(edge["from_id"], []).append(edge["to_id"])` over the kept edges. -/
def ContentGraph.targets (v2 : ContentGraph) (kept : EdgeType → Bool) : Dict String (List String) :=
  ((v2.edges.filter fun edge => kept edge.type).map fun edge => (edge.fromId, edge.toId)).foldl
    (fun (d : Dict String (List String)) entry => d.appendAt entry.1 entry.2) []

/-- `_v2_asset_sources(v2).get(node_id, [])`. -/
def ContentGraph.assetSources (v2 : ContentGraph) (nodeId : String) : List String :=
  ((v2.targets EdgeType.derivation).getList nodeId).insertionSort (· ≤ ·)

/-- The edges that `_reachable_claims` follows. -/
def EdgeType.traced : EdgeType → Bool
  | .derivedFrom | .explains | .implements | .supports | .disproves => true
  | .limits | .tests | .replays | .exercises => true
  | _ => false

def ContentGraph.reachableClaims (v2 : ContentGraph) (sourceIds : List String) : List String :=
  let nextNodes := v2.targets EdgeType.traced
  (Worklist.closure (fun current => sortedSet (nextNodes.getList current)) v2.nodeMap.keys
    sourceIds).filter fun current =>
      (v2.nodeMap.get current).any fun node => node.type == .claim

def checkSourceGraphBinding (v3 : ContentGraphV3) (v2 : ContentGraph)
    (sourceHash : Option String) : Except GraphError Unit := do
  require (v3.sourceGraph.schemaVersion == v2.schemaVersion) .v3SourceVersionMismatch
  require (sourceHash.all fun hash => v3.sourceGraph.contentHash == hash) .v3SourceHashMismatch
  require (v2.schemaVersion == .v2) .v3SourceRequiresV2

def RelationNode.ofCandidate (candidate : GraphCandidate) (node : RelationNode) : Bool :=
  node.candidateId == candidate.candidateId && node.snapshotId == candidate.snapshotId &&
    node.versionId == candidate.versionId

def validateClaimLimitation (graph : ContentGraphV3) (source : ContentGraph)
    (found : Dict String (List String)) (item : ClaimLimitation) :
    Except GraphError (Dict String (List String)) := do
  require (!found.contains item.claimId && (source.idsOfType .claim).contains item.claimId)
    .v3ClaimLimitationInvalid
  let limitationIds ← assertNotApplicableOrKnown item.limitationIds (graph.idsOfType .limitation)
    .v3ClaimLimitationInvalid
  require (limitationIds != [notApplicable]) .v3ClaimLimitationInvalid
  return found.set item.claimId limitationIds

def validateScope (source : ContentGraph) (claimLimitations : Dict String (List String))
    (relation : AssetRelation) (sources boundaries : List String) : Except GraphError Unit := do
  let reachable := source.reachableClaims sources
  let declaredClaims ← assertNotApplicableOrKnown relation.scopeClaimIds (source.idsOfType .claim)
    .v3ScopeInvalid
  require (if declaredClaims == [notApplicable] then reachable.isEmpty
    else sameSet declaredClaims reachable) .v3ScopeInvalid
  let inherited := reachable.flatMap claimLimitations.getList
  require (inherited.isEmpty || sameSet boundaries inherited) .v3LimitationOmitted
  require (!inherited.isEmpty || boundaries != [notApplicable]) .v3AssetBoundaryInvalid

def validateAssetRelation (graph : ContentGraphV3) (source : ContentGraph)
    (claimLimitations : Dict String (List String)) (found : Dict String AssetRelation)
    (relation : AssetRelation) : Except GraphError (Dict String AssetRelation) := do
  require (!found.contains relation.assetId && (source.idsOfType .asset).contains relation.assetId)
    .v3AssetRelationInvalid
  require (relation.versionId == graph.candidate.versionId) .v3AssetRelationInvalid
  let _ ← assertNotApplicableOrKnown relation.audienceIds (graph.idsOfType .audienceProfile)
    .v3AssetAudienceInvalid
  let _ ← assertNotApplicableOrKnown relation.channelIds (graph.idsOfType .channel)
    .v3AssetChannelInvalid
  let boundaries ← assertNotApplicableOrKnown relation.boundaryIds (graph.idsOfType .limitation)
    .v3AssetBoundaryInvalid
  let sources ← asNonemptyUniqueStrings relation.sourceNodeIds .v3AssetSourceInvalid
  require (sources == source.assetSources relation.assetId) .v3AssetSourceInvalid
  require (sameSet relation.sourceNodeHashes.keys sources) .v3AssetSourceHashInvalid
  require (sources.all fun nodeId => relation.sourceNodeHashes.get nodeId ==
    (source.nodeMap.get nodeId).map ContentNode.contentHash) .v3AssetSourceHashInvalid
  require (graph.allowedTransformProducers.contains relation.transform.producerId)
    .v3TransformProducerInvalid
  require (nonEmpty relation.transform.templateVersion && nonEmpty relation.transform.modelId)
    .v3TransformInvalid
  let reviewIds ← asNonemptyUniqueStrings relation.reviewIds .v3ReviewInvalid
  require (reviewIds.contains "review.local-content-boundary-v1") .v3ReviewInvalid
  validateScope source claimLimitations relation sources boundaries
  return found.set relation.assetId relation

def validateLocalizationPair (source : ContentGraph) (seenPairAssets : List String)
    (pair : LocalizationPair) : Except GraphError (List String) := do
  require (pair.assetIds.all (source.idsOfType .asset).contains && pair.assetIds.dedup.length == 2)
    .v3LocalizationInvalid
  require (pair.assetIds.all fun asset => !seenPairAssets.contains asset) .v3LocalizationInvalid
  require (pair.status != .reviewed || !pair.reviewIds.isEmpty) .v3ParityReviewInvalid
  require (pair.status != .unreviewed || pair.reviewIds.isEmpty) .v3ParityReviewInvalid
  return seenPairAssets ++ pair.assetIds

structure GraphV3Verification where
  schemaVersion : String
  candidateId : String
  versionId : String
  assetRelationCount : Nat
  claimLimitationCount : Nat
  localizationPairCount : Nat
  boundary : String
deriving DecidableEq, Repr

/-- The part of `validate_content_graph_v3` that looks at the nodes of both layers. -/
def validateLayerNodes (graph : ContentGraphV3) (source : ContentGraph) :
    Except GraphError Unit := do
  let candidate := graph.candidate
  require (candidate.capability == .draft) .v3CandidateCapabilityInvalid
  require (source.nodes.all fun node => node.snapshotId == candidate.snapshotId)
    .v3SourceSnapshotMismatch
  require (decide (graph.nodes.map RelationNode.nodeId).Nodup) .v3DuplicateNode
  require (graph.nodes.all (RelationNode.ofCandidate candidate)) .v3NodeCandidateMismatch
  require (sameSet (graph.idsOfType .version) [candidate.versionId] &&
    !(graph.idsOfType .limitation).isEmpty && !(graph.idsOfType .audienceProfile).isEmpty &&
    !(graph.idsOfType .channel).isEmpty) .v3RelationNodesIncomplete
  require (graph.nodes.all fun node => node.type != .channel || node.capability == .draft)
    .v3ChannelCapabilityInvalid

def validateContentGraphV3 (graph : ContentGraphV3) (source : ContentGraph)
    (sourceHash : Option String) : Except GraphError GraphV3Verification := do
  require graph.schema .v3Schema
  validateGraph source
  checkSourceGraphBinding graph source sourceHash
  validateLayerNodes graph source
  let claimLimitations ← graph.claimLimitations.foldlM (validateClaimLimitation graph source) []
  require (sameSet claimLimitations.keys (source.idsOfType .claim)) .v3ClaimLimitationInvalid
  let assetRelations ←
    graph.assetRelations.foldlM (validateAssetRelation graph source claimLimitations) []
  require (sameSet assetRelations.keys (source.idsOfType .asset)) .v3AssetRelationIncomplete
  require (decide (graph.localizationPairs.map LocalizationPair.pairId).Nodup)
    .v3LocalizationDuplicate
  let _ ← graph.localizationPairs.foldlM (validateLocalizationPair source) []
  return {
    schemaVersion := "content-graph-v3-verification/v1"
    candidateId := graph.candidate.candidateId
    versionId := graph.candidate.versionId
    assetRelationCount := assetRelations.length
    claimLimitationCount := claimLimitations.length
    localizationPairCount := graph.localizationPairs.length
    boundary := "private staging verification only; this result cannot publish, approve, or " ++
      "authorize a channel package." }

/-- What `_assert_not_applicable_or_known` lets pass. -/
def NotApplicableOrKnown (values known : List String) : Prop :=
  isIdList values = true ∧
    (values = [notApplicable] ∨ (notApplicable ∉ values ∧ ∀ value ∈ values, value ∈ known))

theorem asNonemptyUniqueStrings_ok {value result : List String} :
    asNonemptyUniqueStrings value error = .ok result ↔ isIdList value = true ∧ result = value := by
  simp only [asNonemptyUniqueStrings, bind_ok, require_ok, isIdList, uniqueIds, Bool.and_eq_true]
  constructor
  · intro h
    obtain ⟨-, ⟨hne, hall⟩, -, hnodup, hresult⟩ := h
    cases hresult
    exact ⟨⟨hne, hall, hnodup⟩, rfl⟩
  · intro h
    obtain ⟨⟨hne, hall, hnodup⟩, hresult⟩ := h
    exact ⟨(), ⟨hne, hall⟩, (), hnodup, by rw [hresult]; rfl⟩

theorem assertNotApplicableOrKnown_ok {values known result : List String} :
    assertNotApplicableOrKnown values known error = .ok result ↔
      NotApplicableOrKnown values known ∧ result = values := by
  simp only [assertNotApplicableOrKnown, bind_ok, asNonemptyUniqueStrings_ok, require_ok,
    NotApplicableOrKnown, Bool.or_eq_true, beq_iff_eq, Bool.and_eq_true, Bool.not_eq_true',
    ← Bool.not_eq_true, List.contains_iff_mem, List.all_eq_true]
  constructor
  · intro h
    obtain ⟨found, ⟨hids, rfl⟩, -, hknown, hresult⟩ := h
    cases hresult
    exact ⟨⟨hids, hknown⟩, rfl⟩
  · intro h
    obtain ⟨⟨hids, hknown⟩, hresult⟩ := h
    exact ⟨values, ⟨hids, rfl⟩, (), hknown, by rw [hresult]; rfl⟩

/-- The checks of one entry of `claim_limitations` alone. -/
structure ClaimLimitation.Sound (graph : ContentGraphV3) (source : ContentGraph)
    (item : ClaimLimitation) : Prop where
  claim : item.claimId ∈ source.idsOfType .claim
  known : NotApplicableOrKnown item.limitationIds (graph.idsOfType .limitation)
  limited : item.limitationIds ≠ [notApplicable]

structure AssetRelation.Sound (graph : ContentGraphV3) (source : ContentGraph)
    (claimLimitations : Dict String (List String)) (relation : AssetRelation) : Prop where
  asset : relation.assetId ∈ source.idsOfType .asset
  version : relation.versionId = graph.candidate.versionId
  audiences : NotApplicableOrKnown relation.audienceIds (graph.idsOfType .audienceProfile)
  channels : NotApplicableOrKnown relation.channelIds (graph.idsOfType .channel)
  boundaries : NotApplicableOrKnown relation.boundaryIds (graph.idsOfType .limitation)
  sourceIds : isIdList relation.sourceNodeIds = true
  sources : relation.sourceNodeIds = source.assetSources relation.assetId
  hashes : sameSet relation.sourceNodeHashes.keys relation.sourceNodeIds = true ∧
    ∀ nodeId ∈ relation.sourceNodeIds, relation.sourceNodeHashes.get nodeId =
      (source.nodeMap.get nodeId).map ContentNode.contentHash
  producer : relation.transform.producerId ∈ graph.allowedTransformProducers
  transform : nonEmpty relation.transform.templateVersion = true ∧
    nonEmpty relation.transform.modelId = true
  reviews : isIdList relation.reviewIds = true ∧
    "review.local-content-boundary-v1" ∈ relation.reviewIds
  scope : validateScope source claimLimitations relation relation.sourceNodeIds
    relation.boundaryIds = .ok ()

section

variable {graph : ContentGraphV3} {source : ContentGraph}

theorem validateClaimLimitation_ok : validateClaimLimitation graph source found item = .ok after ↔
      item.Sound graph source ∧ item.claimId ∉ found.keys ∧
        after = found.set item.claimId item.limitationIds := by
  simp only [validateClaimLimitation, bind_ok, require_ok, assertNotApplicableOrKnown_ok,
    Bool.and_eq_true, Bool.not_eq_true', ← Bool.not_eq_true, Dict.contains_iff,
    List.contains_iff_mem, bne_iff_ne]
  constructor
  · intro h
    obtain ⟨-, ⟨hfresh, hclaim⟩, ids, ⟨hknown, rfl⟩, -, hlimited, hafter⟩ := h
    cases hafter
    exact ⟨⟨hclaim, hknown, hlimited⟩, hfresh, rfl⟩
  · intro h
    obtain ⟨hsound, hfresh, hafter⟩ := h
    exact ⟨(), ⟨hfresh, hsound.claim⟩, _, ⟨hsound.known, rfl⟩, (), hsound.limited,
      by rw [hafter]; rfl⟩

theorem validateAssetRelation_ok :
    validateAssetRelation graph source claimLimitations found relation = .ok after ↔
      relation.Sound graph source claimLimitations ∧ relation.assetId ∉ found.keys ∧
        after = found.set relation.assetId relation := by
  simp only [validateAssetRelation, bind_ok, require_ok, assertNotApplicableOrKnown_ok,
    asNonemptyUniqueStrings_ok, Bool.and_eq_true, Bool.not_eq_true', ← Bool.not_eq_true,
    Dict.contains_iff, List.contains_iff_mem, beq_iff_eq, List.all_eq_true]
  constructor
  · intro h
    obtain ⟨-, ⟨hfresh, hasset⟩, -, hversion, -, ⟨haudiences, -⟩, -, ⟨hchannels, -⟩, -,
      ⟨hboundaries, rfl⟩, -, ⟨hids, rfl⟩, -, hsources, -, hkeys, -, hhashes, -, hproducer, -,
      htransform, -, ⟨hreviews, rfl⟩, -, hreview, done, hscope, hafter⟩ := h
    cases hafter
    exact ⟨⟨hasset, hversion, haudiences, hchannels, hboundaries, hids, hsources,
      ⟨hkeys, hhashes⟩, hproducer, htransform, ⟨hreviews, hreview⟩, hscope⟩, hfresh, rfl⟩
  · intro h
    obtain ⟨hsound, hfresh, hafter⟩ := h
    exact ⟨(), ⟨hfresh, hsound.asset⟩, (), hsound.version, _, ⟨hsound.audiences, rfl⟩, _,
      ⟨hsound.channels, rfl⟩, _, ⟨hsound.boundaries, rfl⟩, _, ⟨hsound.sourceIds, rfl⟩, (),
      hsound.sources, (), hsound.hashes.1, (), hsound.hashes.2, (), hsound.producer, (),
      hsound.transform, _, ⟨hsound.reviews.1, rfl⟩, (), hsound.reviews.2, (), hsound.scope,
      by rw [hafter]; rfl⟩

theorem mem_targets : target ∈ (source.targets kept).getList nodeId ↔
      ∃ edge ∈ source.edges, kept edge.type = true ∧ edge.fromId = nodeId ∧ edge.toId = target := by
  rw [ContentGraph.targets, Dict.mem_getList_foldl]
  simp [Dict.getList, and_assoc]

theorem mem_assetSources : nodeId ∈ source.assetSources assetId ↔ ∃ edge ∈ source.edges,
      edge.type.derivation = true ∧ edge.fromId = assetId ∧ edge.toId = nodeId := by
  rw [ContentGraph.assetSources, List.mem_insertionSort, mem_targets]

theorem ContentGraph.mem_idsOfType : nodeId ∈ source.idsOfType type ↔
      ∃ node ∈ source.nodes, node.nodeId = nodeId ∧ node.type = type := by
  simp only [ContentGraph.idsOfType, List.mem_map, List.mem_filter, beq_iff_eq]
  constructor
  · intro h
    obtain ⟨node, ⟨hmem, htype⟩, hid⟩ := h
    exact ⟨node, hmem, hid, htype⟩
  · intro h
    obtain ⟨node, hmem, hid, htype⟩ := h
    exact ⟨node, ⟨hmem, htype⟩, hid⟩

/-- What every graph that `validate_content_graph_v3` accepts satisfies. -/
structure Overlays (graph : ContentGraphV3) (source : ContentGraph) : Prop where
  schema : graph.schema = true
  wellFormed : WellFormed source
  nodesDistinct : (graph.nodes.map RelationNode.nodeId).Nodup
  limitations : ∀ item ∈ graph.claimLimitations, item.Sound graph source
  limitationsDistinct : (graph.claimLimitations.map ClaimLimitation.claimId).Nodup
  relations : ∀ relation ∈ graph.assetRelations, ∃ claimLimitations,
    relation.Sound graph source claimLimitations
  relationsDistinct : (graph.assetRelations.map AssetRelation.assetId).Nodup

section

variable {sourceHash : Option String} {result : GraphV3Verification}
    (h : validateContentGraphV3 graph source sourceHash = .ok result)
include h

theorem overlays_of_ok : Overlays graph source := by
  simp only [validateContentGraphV3, bind_ok, require_ok,
    foldlM_set_ok ClaimLimitation.claimId ClaimLimitation.limitationIds
      (ClaimLimitation.Sound graph source) fun _ _ _ => validateClaimLimitation_ok] at h
  obtain ⟨-, hschema, accepted, hsource, -, -, checked, hlayers, limits, ⟨hlimits, hlimitsDistinct, -⟩, -, -,
    relations, hrelations, -⟩ := h
  obtain ⟨hrelations, hrelationsDistinct, -⟩ := (foldlM_set_ok AssetRelation.assetId id
    (AssetRelation.Sound graph source limits) fun _ _ _ => validateAssetRelation_ok).mp hrelations
  simp only [validateLayerNodes, bind_ok, require_ok, decide_eq_true_eq] at hlayers
  obtain ⟨-, -, -, -, -, hdistinct, -⟩ := hlayers
  exact ⟨hschema, validateGraph_ok.mp hsource, hdistinct, hlimits, hlimitsDistinct,
    fun relation hmem => ⟨limits, hrelations relation hmem⟩, hrelationsDistinct⟩

theorem validateContentGraphV3_none : validateContentGraphV3 graph source none = .ok result := by
  unfold validateContentGraphV3 at h ⊢
  simp only [bind_ok] at h ⊢
  obtain ⟨a, hschema, b, hsource, c, hbinding, hrest⟩ := h
  refine ⟨a, hschema, b, hsource, (), ?_, hrest⟩
  simp only [checkSourceGraphBinding, bind_ok, require_ok] at hbinding ⊢
  obtain ⟨-, hversion, -, -, hv2⟩ := hbinding
  exact ⟨(), hversion, (), rfl, hv2⟩

end

end

end Flowness.OssHarness
