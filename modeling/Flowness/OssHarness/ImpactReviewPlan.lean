import Flowness.OssHarness.ContentImpact

/-!
`build_content_impact_review_plan`: the review work that the difference of two revisions of a
content graph asks for. The digests are parameters.
-/

namespace Flowness.OssHarness

open Library

structure GraphRef where
  path : String
  graphHash : String
  named : path ≠ ""
deriving DecidableEq, Repr

inductive GraphFile where
  | source (ref : GraphRef) (graph : ContentGraph)
  | overlay (ref : GraphRef) (graph : ContentGraphV3) (sourceHash : String) (source : ContentGraph)
deriving DecidableEq, Repr

structure GraphIdentity where
  graphPath : String
  graphSchemaVersion : String
  graphId : String
  candidateId : String
  snapshotId : String
  versionId : String
  graphHash : String
  sourceGraphHash : String
deriving DecidableEq, Repr

inductive LayerNode where
  | content (node : ContentNode)
  | relation (node : RelationNode)
deriving DecidableEq, Repr

def LayerNode.nodeId : LayerNode → String
  | .content node => node.nodeId
  | .relation node => node.nodeId

def LayerNode.isClaim : LayerNode → Bool
  | .content node => node.type == .claim
  | .relation _ => false

def LayerNode.isAsset : LayerNode → Bool
  | .content node => node.type == .asset
  | .relation _ => false

/-- The type is `channel_package` or `channel`. -/
def LayerNode.isChannel : LayerNode → Bool
  | .content node => node.type == .channelPackage
  | .relation node => node.type == .channel

structure PreparedGraph where
  overlay : Option ContentGraphV3
  source : ContentGraph
  identity : GraphIdentity
deriving DecidableEq, Repr

def singleSnapshot (graph : ContentGraph) : Except GraphError String :=
  match (graph.nodes.map ContentNode.snapshotId).dedup with
  | [snapshotId] => .ok snapshotId
  | _ => .error .planV2SnapshotMismatch

/-- `_prepare_graph` of a file that could be read. -/
def prepareGraph : GraphFile → Except GraphError PreparedGraph
  | .source ref graph => do
    require (graph.schemaVersion == .v2) .planGraphVersionInvalid
    validateGraph graph
    let snapshotId ← singleSnapshot graph
    return {
      overlay := none
      source := graph
      identity := {
        graphPath := ref.path
        graphSchemaVersion := "content-graph/v2"
        graphId := "v2:" ++ snapshotId
        candidateId := "v2-migrated:" ++ snapshotId
        snapshotId
        versionId := "v2-migrated"
        graphHash := ref.graphHash
        sourceGraphHash := ref.graphHash } }
  | .overlay ref graph sourceHash source => do
    require (nonEmpty graph.sourceGraph.sourcePath) .planSourcePathInvalid
    let _ ← validateContentGraphV3 graph source (some sourceHash)
    return {
      overlay := some graph
      source
      identity := {
        graphPath := ref.path
        graphSchemaVersion := "content-graph/v3"
        graphId := graph.graphId
        candidateId := graph.candidate.candidateId
        snapshotId := graph.candidate.snapshotId
        versionId := graph.candidate.versionId
        graphHash := ref.graphHash
        sourceGraphHash := sourceHash } }

def requireSameCandidate (predecessor current : PreparedGraph) : Except GraphError Unit := do
  require (predecessor.overlay.isSome == current.overlay.isSome) .planCrossCandidateMismatch
  require (predecessor.identity.candidateId == current.identity.candidateId &&
    predecessor.identity.snapshotId == current.identity.snapshotId &&
    predecessor.identity.versionId == current.identity.versionId) .planCrossCandidateMismatch

def addRelationNode (nodes : Dict String LayerNode) (node : RelationNode) :
    Except GraphError (Dict String LayerNode) := do
  require (!nodes.contains node.nodeId) .planNodeLayerCollision
  return nodes.set node.nodeId (.relation node)

def PreparedGraph.relationNodes (prepared : PreparedGraph) : List RelationNode :=
  (prepared.overlay.map ContentGraphV3.nodes).getD []

def PreparedGraph.nodes (prepared : PreparedGraph) : Except GraphError (Dict String LayerNode) :=
  prepared.relationNodes.foldlM addRelationNode
    (Dict.indexBy LayerNode.nodeId (prepared.source.nodes.map LayerNode.content))

def PreparedGraph.relations (prepared : PreparedGraph) : List AssetRelation :=
  (prepared.overlay.map ContentGraphV3.assetRelations).getD []

def PreparedGraph.assetRelations (prepared : PreparedGraph) : Dict String AssetRelation :=
  Dict.indexBy AssetRelation.assetId prepared.relations

structure Changes where
  addedNodeIds : List String
  removedNodeIds : List String
  changedNodeIds : List String
  changedAssetRelationIds : List String
deriving DecidableEq, Repr

def AssetRelation.same (relation other : AssetRelation) : Bool :=
  decide ({ relation with sourceNodeHashes := [] } = { other with sourceNodeHashes := [] }) &&
    (relation.sourceNodeHashes.keys ++ other.sourceNodeHashes.keys).all fun nodeId =>
      relation.sourceNodeHashes.get nodeId == other.sourceNodeHashes.get nodeId

/-- `old_relations.get(asset_id) != new_relations.get(asset_id)`. -/
def relationsDiffer : Option AssetRelation → Option AssetRelation → Bool
  | none, none => false
  | some relation, some other => !relation.same other
  | _, _ => true

/-- `_changes`; `fingerprint` is `_node_fingerprint`. -/
def changesBetween (fingerprint : LayerNode → String) (oldNodes newNodes : Dict String LayerNode)
    (oldRelations newRelations : Dict String AssetRelation) : Changes where
  addedNodeIds := sortedSet (newNodes.keys.filter fun nodeId => !oldNodes.contains nodeId)
  removedNodeIds := sortedSet (oldNodes.keys.filter fun nodeId => !newNodes.contains nodeId)
  changedNodeIds := sortedSet (oldNodes.keys.filter fun nodeId => newNodes.contains nodeId &&
    (oldNodes.get nodeId).map fingerprint != (newNodes.get nodeId).map fingerprint)
  changedAssetRelationIds := sortedSet ((oldRelations.keys ++ newRelations.keys).filter fun assetId =>
    relationsDiffer (oldRelations.get assetId) (newRelations.get assetId))

/-- `_impact`. -/
def impactOf (prepared : PreparedGraph) (changedIds : List String) :
    Except GraphError (List String) :=
  if changedIds.isEmpty then .ok []
  else match prepared.overlay with
    | some graph =>
      (affectedArtifactsV3 graph prepared.source changedIds).map Impact.affectedNodeIds
    | none => (affectedArtifacts prepared.source changedIds).map Impact.affectedNodeIds

/-- `_channel_ids`. -/
def channelIdsOf (prepared : PreparedGraph) (nodes : Dict String LayerNode)
    (assetIds affectedNodes : List String) : List String :=
  (affectedNodes.filter fun nodeId => (nodes.get nodeId).any LayerNode.isChannel) ++
    ((prepared.assetRelations.filter fun entry => assetIds.contains entry.1).flatMap fun entry =>
      entry.2.channelIds)

inductive ObligationKind where
  | revalidateClaim
  | reviewAsset
  | reassembleChannelPackage
  | reviewPredecessorRemoval
deriving DecidableEq, Repr

structure ReviewObligation where
  obligationId : String
  kind : ObligationKind
  targetId : String
  triggerIds : List String
  requiredState : NodeState
deriving DecidableEq, Repr

structure Ripple where
  currentAffectedNodeIds : List String
  predecessorAffectedNodeIds : List String
  reviewAssetIds : List String
  invalidatedChannelPackageIds : List String
deriving DecidableEq, Repr

structure UnsignedPlan where
  predecessor : GraphIdentity
  current : GraphIdentity
  changes : Changes
  ripple : Ripple
  reviewObligations : List ReviewObligation
deriving DecidableEq, Repr

structure ReviewPlan extends UnsignedPlan where
  schemaVersion : String
  planId : String
  authorization : String
  boundary : String
  planHash : String
deriving DecidableEq, Repr

/-- `canonical_hash` of a node, of the identity of a plan without its algorithm, and of a plan. -/
structure PlanHashes where
  node : LayerNode → String
  identity : UnsignedPlan → String
  plan : String → UnsignedPlan → String

def ObligationKind.obligation (kind : ObligationKind) (label : String) (triggers : List String)
    (targetId : String) : ReviewObligation where
  obligationId := label ++ ":" ++ targetId
  kind
  targetId
  triggerIds := triggers
  requiredState := .evidenceBound

/-- `_obligations`. -/
def obligationsOf (currentNodes : Dict String LayerNode)
    (reviewAssets currentAffected predecessorAffected channels triggers : List String) :
    List ReviewObligation :=
  ((sortedSet currentAffected).filter fun nodeId =>
      (currentNodes.get nodeId).any LayerNode.isClaim).map
    (ObligationKind.revalidateClaim.obligation "revalidate-claim" triggers) ++
  (sortedSet reviewAssets).map (ObligationKind.reviewAsset.obligation "review-asset" triggers) ++
  (sortedSet channels).map
    (ObligationKind.reassembleChannelPackage.obligation "reassemble-channel" triggers) ++
  (sortedSet (predecessorAffected.filter fun nodeId => !currentNodes.contains nodeId)).map
    (ObligationKind.reviewPredecessorRemoval.obligation "review-predecessor-removal" triggers)

def noPublishBoundary : String :=
  "local review planning only; this plan cannot publish, unpublish, schedule, send, approve, or " ++
    "mutate source evidence or channel material."

def GraphIdentity.schema (identity : GraphIdentity) : Bool :=
  [identity.graphPath, identity.graphId, identity.candidateId, identity.snapshotId,
    identity.versionId].all nonEmpty

def ReviewObligation.schema (obligation : ReviewObligation) : Bool :=
  nonEmpty obligation.obligationId && nonEmpty obligation.targetId &&
    uniqueIds obligation.triggerIds

/-- `content-impact-review-plan.schema.json`, which is read last. -/
def UnsignedPlan.schema (plan : UnsignedPlan) : Bool :=
  plan.predecessor.schema && plan.current.schema &&
    [plan.changes.addedNodeIds, plan.changes.removedNodeIds, plan.changes.changedNodeIds,
      plan.changes.changedAssetRelationIds, plan.ripple.currentAffectedNodeIds,
      plan.ripple.predecessorAffectedNodeIds, plan.ripple.reviewAssetIds,
      plan.ripple.invalidatedChannelPackageIds].all uniqueIds &&
    plan.reviewObligations.all ReviewObligation.schema

/-- `current_changed`, and `predecessor_changed` below. -/
def Changes.current (changes : Changes) : List String :=
  changes.addedNodeIds ++ changes.changedNodeIds

def Changes.predecessor (changes : Changes) : List String :=
  changes.removedNodeIds ++ changes.changedNodeIds

/-- The nodes that differ: `current_changed + changes["removed_node_ids"]`. -/
def Changes.nodeIds (changes : Changes) : List String := changes.current ++ changes.removedNodeIds

/-- `triggers`, in order but with every repetition. -/
def triggersOf (changes : Changes) : List String :=
  (changes.nodeIds ++ changes.changedAssetRelationIds.map ("asset_relation:" ++ ·)).insertionSort
    (· ≤ ·)

def assetIn (nodes : Dict String LayerNode) (nodeId : String) : Bool :=
  (nodes.get nodeId).any LayerNode.isAsset

/-- `current_assets`: the assets under review. -/
def currentAssetsOf (newNodes : Dict String LayerNode) (changes : Changes)
    (currentAffected : List String) : List String :=
  (currentAffected ++ changes.current ++ changes.changedAssetRelationIds).filter (assetIn newNodes)

/-- `channels`, from both revisions. -/
def channelsOf (predecessor current : PreparedGraph) (oldNodes newNodes : Dict String LayerNode)
    (changes : Changes) (currentAffected predecessorAffected : List String) : List String :=
  channelIdsOf current newNodes (currentAssetsOf newNodes changes currentAffected)
    (currentAffected ++ changes.current) ++
  channelIdsOf predecessor oldNodes (predecessorAffected.filter (assetIn oldNodes))
    (predecessorAffected ++ changes.predecessor)

/-- `unsigned` without its constants. -/
def unsignedPlan (predecessor current : PreparedGraph) (oldNodes newNodes : Dict String LayerNode)
    (changes : Changes) (currentAffected predecessorAffected : List String) : UnsignedPlan :=
  let currentAssets := currentAssetsOf newNodes changes currentAffected
  let channels := channelsOf predecessor current oldNodes newNodes changes currentAffected
    predecessorAffected
  { predecessor := predecessor.identity
    current := current.identity
    changes
    ripple := {
      currentAffectedNodeIds := sortedSet currentAffected
      predecessorAffectedNodeIds := sortedSet predecessorAffected
      reviewAssetIds := sortedSet currentAssets
      invalidatedChannelPackageIds := sortedSet channels }
    reviewObligations := obligationsOf newNodes currentAssets currentAffected predecessorAffected
      channels (triggersOf changes) }

def deriveUnsignedPlan (fingerprint : LayerNode → String) (predecessor current : PreparedGraph) :
    Except GraphError UnsignedPlan := do
  let oldNodes ← predecessor.nodes
  let newNodes ← current.nodes
  let changes := changesBetween fingerprint oldNodes newNodes predecessor.assetRelations
    current.assetRelations
  let currentAffected ← impactOf current changes.current
  let predecessorAffected ← impactOf predecessor changes.predecessor
  return unsignedPlan predecessor current oldNodes newNodes changes currentAffected
    predecessorAffected

def buildContentImpactReviewPlan (hashes : PlanHashes) (predecessorGraph currentGraph : GraphFile) :
    Except GraphError ReviewPlan := do
  let predecessor ← prepareGraph predecessorGraph
  let current ← prepareGraph currentGraph
  requireSameCandidate predecessor current
  let unsigned ← deriveUnsignedPlan hashes.node predecessor current
  let planId := "content-impact-review-" ++ ((hashes.identity unsigned).take 24).toString
  require unsigned.schema .planSchema
  return { unsigned with
    schemaVersion := "content-impact-review-plan/v1"
    planId
    authorization := "local_review_only"
    boundary := noPublishBoundary
    planHash := hashes.plan planId unsigned }

def PreparedGraph.layerNodes (prepared : PreparedGraph) : List LayerNode :=
  prepared.source.nodes.map LayerNode.content ++ prepared.relationNodes.map LayerNode.relation

def PreparedGraph.ids (prepared : PreparedGraph) : List String :=
  prepared.layerNodes.map LayerNode.nodeId

/-- What `_prepare_graph` has made sure of. -/
structure PreparedGraph.Valid (prepared : PreparedGraph) : Prop where
  wellFormed : WellFormed prepared.source
  overlay : ∀ graph, prepared.overlay = some graph →
    ∃ result, validateContentGraphV3 graph prepared.source none = .ok result
  identity : prepared.identity.schema = nonEmpty prepared.identity.snapshotId

section

variable {prepared : PreparedGraph}

theorem nonEmpty_append (hlabel : label ≠ "") (text : String) :
    nonEmpty (label ++ text) = true := by
  simp [nonEmpty, hlabel]

theorem valid_of_prepareGraph (h : prepareGraph file = .ok prepared) : prepared.Valid := by
  cases file with
  | source ref graph =>
    simp only [prepareGraph, bind_ok] at h
    obtain ⟨-, -, accepted, hgraph, snapshotId, -, h⟩ := h
    cases h
    refine ⟨validateGraph_ok.mp hgraph, fun _ hnone => (by cases hnone), ?_⟩
    have hpath : nonEmpty ref.path = true := by simpa [nonEmpty] using ref.named
    have hgraph := nonEmpty_append (by decide : "v2:" ≠ "") snapshotId
    have hcandidate := nonEmpty_append (by decide : "v2-migrated:" ≠ "") snapshotId
    have hversion : nonEmpty "v2-migrated" = true := by decide
    simp [GraphIdentity.schema, hpath, hgraph, hcandidate, hversion]
  | overlay ref graph sourceHash source =>
    simp only [prepareGraph, bind_ok] at h
    obtain ⟨-, -, result, hvalid, h⟩ := h
    cases h
    have hschema := (overlays_of_ok hvalid).schema
    have hpath : nonEmpty ref.path = true := by simpa [nonEmpty] using ref.named
    refine ⟨(overlays_of_ok hvalid).wellFormed, fun _ hsome => ?_, ?_⟩
    · cases hsome
      exact ⟨result, validateContentGraphV3_none hvalid⟩
    · simp only [ContentGraphV3.schema, GraphCandidate.schema, List.all_cons, Bool.and_eq_true] at hschema
      simp [GraphIdentity.schema, hpath, hschema]

theorem ids_eq : prepared.ids =
    prepared.source.ids ++ prepared.relationNodes.map RelationNode.nodeId := by
  rw [PreparedGraph.ids, PreparedGraph.layerNodes, List.map_append, List.map_map, List.map_map]
  rfl

theorem indexBy_layerNodes : Dict.indexBy LayerNode.nodeId prepared.layerNodes =
    prepared.relationNodes.foldl (fun d node => d.set node.nodeId (.relation node))
      (Dict.indexBy LayerNode.nodeId (prepared.source.nodes.map LayerNode.content)) := by
  rw [PreparedGraph.layerNodes, Dict.indexBy, List.foldl_append, List.foldl_map]
  rfl

theorem addRelationNode_ok : addRelationNode nodes node = .ok after ↔
      True ∧ node.nodeId ∉ nodes.keys ∧ after = nodes.set node.nodeId (.relation node) := by
  simp only [addRelationNode, bind_ok, require_ok, Bool.not_eq_true', ← Bool.not_eq_true,
    Dict.contains_iff, exists_const, true_and]
  refine and_congr_right fun _ => ?_
  constructor
  · intro h
    cases h
    rfl
  · intro h
    rw [h]
    rfl

theorem PreparedGraph.Valid.nodes_ok (h : prepared.Valid) {nodes : Dict String LayerNode} :
    prepared.nodes = .ok nodes ↔ prepared.ids.Nodup ∧
      nodes = Dict.indexBy LayerNode.nodeId prepared.layerNodes := by
  have hcontent : (prepared.source.nodes.map LayerNode.content).map LayerNode.nodeId =
      prepared.source.ids := by
    rw [List.map_map]
    rfl
  rw [PreparedGraph.nodes, foldlM_set_ok RelationNode.nodeId LayerNode.relation (fun _ => True)
    fun _ _ _ => addRelationNode_ok, ← indexBy_layerNodes, ids_eq, List.nodup_append']
  simp only [Dict.mem_keys_indexBy, hcontent]
  constructor
  · intro hnodes
    obtain ⟨-, hnodup, hapart, hnodes⟩ := hnodes
    exact ⟨⟨h.wellFormed.distinct, hnodup, fun nodeId hsource hrelation =>
      hapart nodeId hrelation hsource⟩, hnodes⟩
  · intro hnodes
    obtain ⟨⟨-, hnodup, hapart⟩, hnodes⟩ := hnodes
    exact ⟨fun _ _ => trivial, hnodup, fun nodeId hrelation hsource => hapart hsource hrelation,
      hnodes⟩

end

end Flowness.OssHarness
