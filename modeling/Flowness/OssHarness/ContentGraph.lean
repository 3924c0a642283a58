import Flowness.Library.SortedSet
import Flowness.Library.Worklist
import Flowness.OssHarness.WorkCard
import Mathlib.Data.String.Basic

/-!
The content graph and `affected_artifacts`. An edge is written the way an author thinks of it; for
the search it is turned so that it leads from a node to what a change of that node invalidates.
-/

namespace Flowness.OssHarness

open Library Dict

/-- The codes of the `ValidationError`s that content graphs and their review plans raise. -/
inductive GraphError where
  | nodeInvalid
  | nodeIdInvalid
  | edgeInvalid
  | claimWithoutEvidence
  | changeSetInvalid
  | v3Schema
  | v3SourceVersionMismatch
  | v3SourceHashMismatch
  | v3SourceRequiresV2
  | v3CandidateCapabilityInvalid
  | v3SourceSnapshotMismatch
  | v3DuplicateNode
  | v3NodeCandidateMismatch
  | v3RelationNodesIncomplete
  | v3ChannelCapabilityInvalid
  | v3ClaimLimitationInvalid
  | v3AssetRelationInvalid
  | v3AssetAudienceInvalid
  | v3AssetChannelInvalid
  | v3AssetBoundaryInvalid
  | v3AssetSourceInvalid
  | v3AssetSourceHashInvalid
  | v3TransformProducerInvalid
  | v3TransformInvalid
  | v3ReviewInvalid
  | v3ScopeInvalid
  | v3LimitationOmitted
  | v3AssetRelationIncomplete
  | v3LocalizationDuplicate
  | v3LocalizationInvalid
  | v3ParityReviewInvalid
  | v3ChangeSetInvalid
  | planGraphVersionInvalid
  | planSourcePathInvalid
  | planV2SnapshotMismatch
  | planNodeLayerCollision
  | planCrossCandidateMismatch
  | planSchema
deriving DecidableEq, Repr

inductive GraphVersion where
  | v1
  | v2
deriving DecidableEq, Repr

/-- `NODE_TYPES`. -/
inductive NodeType where
  | claim
  | mechanism
  | evidence
  | module_
  | diagram
  | case_
  | benchmark
  | demo
  | section_
  | asset
  | channelPackage
deriving DecidableEq, Repr

/-- `NODE_STATES`. -/
inductive NodeState where
  | draft
  | evidenceBound
  | juryAccepted
  | staged
  | ownerApproved
  | published
  | withdrawn
  | superseded
deriving DecidableEq, Repr

/-- `EDGE_TYPES`. -/
inductive EdgeType where
  | supports
  | disproves
  | limits
  | implements
  | dependsOn
  | depicts
  | exercises
  | tests
  | replays
  | explains
  | derivedFrom
  | contains
  | localizedAs
  | supersedes
deriving DecidableEq, Repr

structure ContentNode where
  nodeId : String
  type : NodeType
  state : NodeState
  snapshotId : String
  contentHash : String
  sourcePath : Option String
deriving DecidableEq, Repr

structure ContentEdge where
  fromId : String
  toId : String
  type : EdgeType
deriving DecidableEq, Repr

structure ContentGraph where
  schemaVersion : GraphVersion
  nodes : List ContentNode
  edges : List ContentEdge
deriving DecidableEq, Repr

/-- `FORWARD`; the other edge types are those of `REVERSE`. -/
def EdgeType.forward : EdgeType → Bool
  | .supports | .disproves | .limits | .implements | .dependsOn => true
  | .exercises | .tests | .replays | .supersedes => true
  | .depicts | .explains | .derivedFrom | .contains | .localizedAs => false

/-- The types of the nodes that `affected_artifacts` returns. -/
def NodeType.isArtifact : NodeType → Bool
  | .claim | .diagram | .case_ | .benchmark | .demo | .section_ | .asset | .channelPackage => true
  | .mechanism | .evidence | .module_ => false

def ContentNode.expectsSourcePath (version : GraphVersion) (node : ContentNode) : Bool :=
  version == .v2 && node.type == .asset

def validateNode (version : GraphVersion) (nodes : Dict String ContentNode) (node : ContentNode) :
    Except GraphError (Dict String ContentNode) := do
  require (node.sourcePath.isSome == node.expectsSourcePath version) .nodeInvalid
  require (node.nodeId != "" && !nodes.contains node.nodeId) .nodeIdInvalid
  require (node.sourcePath != some "") .nodeInvalid
  return nodes.set node.nodeId node

def validateEdge (nodes : Dict String ContentNode) (seenEdges : List ContentEdge)
    (edge : ContentEdge) : Except GraphError (List ContentEdge) := do
  require (nodes.contains edge.fromId && nodes.contains edge.toId && edge.fromId != edge.toId &&
    !seenEdges.contains edge) .edgeInvalid
  return seenEdges ++ [edge]

def ContentNode.promotable (node : ContentNode) : Bool :=
  node.type == .claim && !(node.state matches .draft | .withdrawn | .superseded)

def ContentGraph.evidenced (graph : ContentGraph) (nodes : Dict String ContentNode)
    (node : ContentNode) : Bool :=
  graph.edges.any fun edge => edge.toId == node.nodeId &&
    (edge.type matches .supports | .limits | .disproves) &&
    (nodes.get edge.fromId).any fun source => source.type == .evidence

def validateGraph (graph : ContentGraph) : Except GraphError Unit := do
  let nodes ← graph.nodes.foldlM (validateNode graph.schemaVersion) []
  let _ ← graph.edges.foldlM (validateEdge nodes) []
  require (nodes.all fun entry => !entry.2.promotable || graph.evidenced nodes entry.2)
    .claimWithoutEvidence

/-- `{node["node_id"]: node for node in graph["nodes"]}`. -/
def ContentGraph.nodeMap (graph : ContentGraph) : Dict String ContentNode :=
  Dict.indexBy ContentNode.nodeId graph.nodes

def ContentEdge.dependency (edge : ContentEdge) : String × String :=
  if edge.type.forward then (edge.fromId, edge.toId) else (edge.toId, edge.fromId)

def ContentGraph.neighbors (graph : ContentGraph) : Dict String (List String) :=
  (graph.edges.map ContentEdge.dependency).foldl (fun d entry => d.appendAt entry.1 entry.2)
    (graph.nodeMap.keys.foldl (fun d nodeId => Dict.set d nodeId []) [])

structure Impact where
  schemaVersion : String
  changedNodeIds : List String
  affectedNodeIds : List String
  requiredState : NodeState
  boundary : String
deriving DecidableEq, Repr

def artifactIn (nodes : Dict String ContentNode) (nodeId : String) : Bool :=
  (nodes.get nodeId).any fun node => node.type.isArtifact

/-- `visited` when the queue is empty. -/
def ContentGraph.visited (graph : ContentGraph) (changedNodeIds : List String) : List String :=
  Worklist.closure (fun current => sortedSet (graph.neighbors.getList current)) graph.nodeMap.keys
    changedNodeIds

def affectedArtifacts (graph : ContentGraph) (changedNodeIds : List String) :
    Except GraphError Impact := do
  validateGraph graph
  let nodes := graph.nodeMap
  require (!changedNodeIds.isEmpty && changedNodeIds.all nodes.contains) .changeSetInvalid
  return {
    schemaVersion := "content-impact/v1"
    changedNodeIds := sortedSet changedNodeIds
    affectedNodeIds := sortedSet ((graph.visited changedNodeIds).filter fun nodeId =>
      !changedNodeIds.contains nodeId && artifactIn nodes nodeId)
    requiredState := .evidenceBound
    boundary := "impact analysis identifies review work; it does not publish, unpublish, or " ++
      "alter source evidence." }

def ContentGraph.ids (graph : ContentGraph) : List String := graph.nodes.map ContentNode.nodeId

/-- The checks that `validate_graph` makes of one node alone. -/
structure ContentNode.Shaped (version : GraphVersion) (node : ContentNode) : Prop where
  named : node.nodeId ≠ ""
  expected : node.sourcePath.isSome = node.expectsSourcePath version
  sourcePath : node.sourcePath ≠ some ""

/-- Every check of `validate_graph` holds. -/
structure WellFormed (graph : ContentGraph) : Prop where
  distinct : graph.ids.Nodup
  shaped : ∀ node ∈ graph.nodes, node.Shaped graph.schemaVersion
  endpoints : ∀ edge ∈ graph.edges,
    edge.fromId ∈ graph.ids ∧ edge.toId ∈ graph.ids ∧ edge.fromId ≠ edge.toId
  edgesDistinct : graph.edges.Nodup
  evidenced : ∀ node ∈ graph.nodes, node.promotable = true → ∃ edge ∈ graph.edges,
    edge.toId = node.nodeId ∧ (edge.type matches .supports | .limits | .disproves) = true ∧
      ∃ source ∈ graph.nodes, source.nodeId = edge.fromId ∧ source.type = .evidence

variable {node : ContentNode} {nodes : Dict String ContentNode}

theorem validateNode_ok : validateNode version nodes node = .ok after ↔
      node.Shaped version ∧ node.nodeId ∉ nodes.keys ∧ after = nodes.set node.nodeId node := by
  simp only [validateNode, bind_ok, require_ok, beq_iff_eq, Bool.and_eq_true, bne_iff_ne,
    Bool.not_eq_true', ← Bool.not_eq_true, contains_iff]
  constructor
  · intro h
    obtain ⟨-, hexpected, -, ⟨hname, hfresh⟩, -, hpath, hafter⟩ := h
    cases hafter
    exact ⟨⟨hname, hexpected, hpath⟩, hfresh, rfl⟩
  · intro h
    obtain ⟨⟨hname, hexpected, hpath⟩, hfresh, hafter⟩ := h
    exact ⟨(), hexpected, (), ⟨hname, hfresh⟩, (), hpath, by rw [hafter]; rfl⟩

theorem foldlM_validateNode_ok {version : GraphVersion} {items : List ContentNode}
    {after : Dict String ContentNode} :
    items.foldlM (validateNode version) nodes = .ok after ↔
      (∀ node ∈ items, node.Shaped version) ∧ (items.map ContentNode.nodeId).Nodup ∧
      (∀ nodeId ∈ items.map ContentNode.nodeId, nodeId ∉ nodes.keys) ∧
      after = items.foldl (fun d item => d.set item.nodeId item) nodes :=
  foldlM_set_ok ContentNode.nodeId id (ContentNode.Shaped version) fun _ _ _ => validateNode_ok

theorem validateEdge_ok : validateEdge nodes seenEdges edge = .ok after ↔
      (edge.fromId ∈ nodes.keys ∧ edge.toId ∈ nodes.keys ∧ edge.fromId ≠ edge.toId) ∧
      edge ∉ seenEdges ∧ after = seenEdges ++ [edge] := by
  simp only [validateEdge, bind_ok, require_ok, Bool.and_eq_true, bne_iff_ne, Bool.not_eq_true',
    ← Bool.not_eq_true, contains_iff, List.contains_iff_mem]
  constructor
  · intro h
    obtain ⟨-, ⟨⟨⟨hfrom, hto⟩, hloop⟩, hfresh⟩, hafter⟩ := h
    cases hafter
    exact ⟨⟨hfrom, hto, hloop⟩, hfresh, rfl⟩
  · intro h
    obtain ⟨⟨hfrom, hto, hloop⟩, hfresh, hafter⟩ := h
    exact ⟨(), ⟨⟨⟨hfrom, hto⟩, hloop⟩, hfresh⟩, by rw [hafter]; rfl⟩

theorem foldlM_validateEdge_ok {edges seenEdges after : List ContentEdge} :
    edges.foldlM (validateEdge nodes) seenEdges = .ok after ↔
      (∀ edge ∈ edges,
        edge.fromId ∈ nodes.keys ∧ edge.toId ∈ nodes.keys ∧ edge.fromId ≠ edge.toId) ∧
      edges.Nodup ∧ (∀ edge ∈ edges, edge ∉ seenEdges) ∧ after = seenEdges ++ edges := by
  induction edges generalizing seenEdges with
  | nil =>
    constructor
    · intro h
      cases h
      simp
    · intro h
      rw [h.2.2.2, List.append_nil]
      rfl
  | cons edge edges ih =>
    simp only [List.foldlM_cons, bind_ok, validateEdge_ok, ih, List.forall_mem_cons,
      List.nodup_cons]
    constructor
    · intro h
      obtain ⟨middle, ⟨hedge, hfresh, rfl⟩, hedges, hnodup, hapart, hafter⟩ := h
      simp only [List.mem_append, List.mem_singleton, not_or] at hapart
      exact ⟨⟨hedge, hedges⟩, ⟨fun hmem => (hapart _ hmem).2 rfl, hnodup⟩,
        ⟨hfresh, fun other hmem => (hapart other hmem).1⟩, by simpa using hafter⟩
    · intro h
      obtain ⟨⟨hedge, hedges⟩, ⟨hnew, hnodup⟩, ⟨hfresh, hapart⟩, hafter⟩ := h
      refine ⟨_, ⟨hedge, hfresh, rfl⟩, hedges, hnodup, ?_, by simpa using hafter⟩
      intro other hmem
      rw [List.mem_append, List.mem_singleton, not_or]
      exact ⟨hapart other hmem, fun heq => hnew (heq ▸ hmem)⟩

section

variable {graph : ContentGraph}

variable {nodeId : String}

theorem mem_keys_nodeMap :
    nodeId ∈ graph.nodeMap.keys ↔ nodeId ∈ graph.ids :=
  mem_keys_indexBy

theorem get_nodeMap (h : graph.ids.Nodup) :
    graph.nodeMap.get nodeId = some node ↔ node ∈ graph.nodes ∧ node.nodeId = nodeId :=
  get_indexBy h

theorem any_get_nodeMap (h : graph.ids.Nodup) : (graph.nodeMap.get nodeId).any p = true ↔
      ∃ node ∈ graph.nodes, node.nodeId = nodeId ∧ p node = true := by
  rw [Option.any_eq_true]
  constructor
  · intro hany
    obtain ⟨node, hget, hp⟩ := hany
    obtain ⟨hmem, hid⟩ := (get_nodeMap h).mp hget
    exact ⟨node, hmem, hid, hp⟩
  · intro hnode
    obtain ⟨node, hmem, hid, hp⟩ := hnode
    exact ⟨node, (get_nodeMap h).mpr ⟨hmem, hid⟩, hp⟩

theorem evidenced_iff (h : graph.ids.Nodup) :
    graph.evidenced graph.nodeMap node = true ↔ ∃ edge ∈ graph.edges,
      edge.toId = node.nodeId ∧ (edge.type matches .supports | .limits | .disproves) = true ∧
        ∃ source ∈ graph.nodes, source.nodeId = edge.fromId ∧ source.type = .evidence := by
  simp only [ContentGraph.evidenced, List.any_eq_true, Bool.and_eq_true, beq_iff_eq,
    any_get_nodeMap h, and_assoc]

theorem validateGraph_ok : validateGraph graph = .ok () ↔ WellFormed graph := by
  simp only [validateGraph, bind_ok, foldlM_validateNode_ok, foldlM_validateEdge_ok, require_ok,
    List.all_eq_true, Bool.or_eq_true, Bool.not_eq_true', ← Bool.not_eq_true]
  constructor
  · intro h
    obtain ⟨nodes, ⟨hnodes, hdistinct, -, hmap⟩, -, ⟨hedges, hnodup, -, -⟩, hclaims⟩ := h
    cases hmap
    refine ⟨hdistinct, hnodes, fun edge hedge => ?_, hnodup, fun node hnode hpromotable => ?_⟩
    · obtain ⟨hfrom, hto, hloop⟩ := hedges edge hedge
      exact ⟨mem_keys_nodeMap.mp hfrom, mem_keys_nodeMap.mp hto, hloop⟩
    · have hentry : (node.nodeId, node) ∈ graph.nodeMap :=
        mem_of_get ((get_nodeMap hdistinct).mpr ⟨hnode, rfl⟩)
      exact (evidenced_iff hdistinct).mp ((hclaims _ hentry).resolve_left (not_not_intro hpromotable))
  · intro h
    refine ⟨graph.nodeMap, ⟨h.shaped, h.distinct, fun _ _ => List.not_mem_nil, rfl⟩,
      graph.edges, ⟨fun edge hedge => ?_, h.edgesDistinct, fun _ _ => List.not_mem_nil, rfl⟩,
      fun entry hentry => ?_⟩
    · obtain ⟨hfrom, hto, hloop⟩ := h.endpoints edge hedge
      exact ⟨mem_keys_nodeMap.mpr hfrom, mem_keys_nodeMap.mpr hto, hloop⟩
    · have hnode := ((get_nodeMap h.distinct).mp
        ((mem_iff_get (nodup_keys_indexBy _ _)).mp hentry)).1
      by_cases hpromotable : entry.2.promotable = true
      · exact .inr ((evidenced_iff h.distinct).mpr (h.evidenced entry.2 hnode hpromotable))
      · exact .inl hpromotable

/-- A change of `source` invalidates `dependent`: the dependency direction of an edge. -/
def ContentGraph.Invalidates (graph : ContentGraph) (source dependent : String) : Prop :=
  ∃ edge ∈ graph.edges, edge.dependency = (source, dependent)

def ContentGraph.Reaches (graph : ContentGraph) : String → String → Prop :=
  Relation.ReflTransGen graph.Invalidates

def ContentGraph.Artifact (graph : ContentGraph) (nodeId : String) : Prop :=
  ∃ node ∈ graph.nodes, node.nodeId = nodeId ∧ node.type.isArtifact = true

theorem ContentGraph.Artifact.mem_ids (h : graph.Artifact nodeId) : nodeId ∈ graph.ids := by
  obtain ⟨node, hmem, rfl, -⟩ := h
  exact List.mem_map_of_mem hmem

theorem mem_neighbors :
    dependent ∈ graph.neighbors.getList nodeId ↔ graph.Invalidates nodeId dependent := by
  rw [ContentGraph.neighbors, mem_getList_foldl, getList_foldl_set_nil]
  simp [ContentGraph.Invalidates]

theorem WellFormed.invalidates_mem (h : WellFormed graph)
    (hedge : graph.Invalidates nodeId dependent) : dependent ∈ graph.ids := by
  obtain ⟨edge, hmem, heq⟩ := hedge
  obtain ⟨hfrom, hto, -⟩ := h.endpoints edge hmem
  unfold ContentEdge.dependency at heq
  split at heq
  · cases heq
    exact hto
  · cases heq
    exact hfrom

theorem WellFormed.mem_visited (h : WellFormed graph)
    (hchanged : ∀ nodeId ∈ changed, nodeId ∈ graph.ids) :
    nodeId ∈ graph.visited changed ↔ ∃ source ∈ changed, graph.Reaches source nodeId := by
  have hnext : ∀ a b, b ∈ sortedSet (graph.neighbors.getList a) ↔ graph.Invalidates a b := by
    intro a b
    rw [mem_sortedSet, mem_neighbors]
  rw [ContentGraph.visited, Worklist.mem_closure]
  · simp only [hnext]
    rfl
  · exact fun seed hseed => mem_keys_nodeMap.mpr (hchanged seed hseed)
  · exact fun a _ b hb => mem_keys_nodeMap.mpr (h.invalidates_mem ((hnext a b).mp hb))

theorem affectedArtifacts_ok (h : WellFormed graph) (hne : changed ≠ [])
    (hchanged : ∀ nodeId ∈ changed, nodeId ∈ graph.ids) :
    ∃ impact, affectedArtifacts graph changed = .ok impact ∧
      ∀ nodeId, nodeId ∈ impact.affectedNodeIds ↔ nodeId ∉ changed ∧ graph.Artifact nodeId ∧
        ∃ source ∈ changed, graph.Reaches source nodeId := by
  have hknown : (!changed.isEmpty && changed.all graph.nodeMap.contains) = true := by
    simpa [List.isEmpty_iff, hne, contains_iff, mem_keys_nodeMap] using hchanged
  have hreturn : (affectedArtifacts graph changed).isOk = true := by
    simp only [affectedArtifacts, validateGraph_ok.mpr h, hknown]
    rfl
  obtain ⟨impact, himpact⟩ := exists_ok hreturn
  refine ⟨impact, himpact, fun nodeId => ?_⟩
  simp only [affectedArtifacts, bind_ok] at himpact
  obtain ⟨-, -, -, -, himpact⟩ := himpact
  cases himpact
  simp only [mem_sortedSet, List.mem_filter, Bool.and_eq_true, Bool.not_eq_true',
    ← Bool.not_eq_true, List.contains_iff_mem, h.mem_visited hchanged, artifactIn,
    any_get_nodeMap h.distinct]
  exact and_rotate

end

end Flowness.OssHarness
