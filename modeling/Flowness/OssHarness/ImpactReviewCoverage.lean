import Flowness.OssHarness.ImpactReviewPlan

/-!
Which nodes the obligations of an impact review plan are about, and the differences between two
revisions that lead to none.
-/

namespace Flowness.OssHarness

open List Library Dict

/-! ### What the plan notices -/

/-- A node of the graph has the identifier and the property. -/
def PreparedGraph.Has (prepared : PreparedGraph) (p : LayerNode → Bool) (nodeId : String) : Prop :=
  ∃ node ∈ prepared.layerNodes, node.nodeId = nodeId ∧ p node = true

def PreparedGraph.Lists (prepared : PreparedGraph) (assetId channelId : String) : Prop :=
  ∃ relation ∈ prepared.relations, relation.assetId = assetId ∧ channelId ∈ relation.channelIds

def Rewritten (fingerprint : LayerNode → String) (predecessor current : PreparedGraph)
    (nodeId : String) : Prop :=
  ∃ old ∈ predecessor.layerNodes, ∃ new ∈ current.layerNodes,
    old.nodeId = nodeId ∧ new.nodeId = nodeId ∧ fingerprint old ≠ fingerprint new

/-- The nodes added or rewritten in `current`; with the revisions exchanged, those removed from or
rewritten after it. -/
def freshIds (fingerprint : LayerNode → String) (predecessor current : PreparedGraph) :
    Set String :=
  {nodeId | (nodeId ∈ current.ids ∧ nodeId ∉ predecessor.ids) ∨
    Rewritten fingerprint predecessor current nodeId}

/-- The artifacts that a change of the nodes invalidates in the graph. -/
def PreparedGraph.Downstream (prepared : PreparedGraph) (changed : Set String) (nodeId : String) :
    Prop :=
  nodeId ∉ changed ∧ match prepared.overlay with
    | some graph => Invalidated graph prepared.source changed nodeId
    | none => prepared.source.Artifact nodeId ∧ ∃ start ∈ changed, prepared.source.Reaches start nodeId

def RelationDiffers (predecessor current : PreparedGraph) (assetId : String) : Prop :=
  relationsDiffer (predecessor.assetRelations.get assetId) (current.assetRelations.get assetId) = true

/-- A claim of the current revision, itself unchanged, downstream of a fresh node. -/
def RevalidatedClaim (fingerprint : LayerNode → String) (predecessor current : PreparedGraph)
    (nodeId : String) : Prop :=
  current.Has LayerNode.isClaim nodeId ∧
    current.Downstream (freshIds fingerprint predecessor current) nodeId

/-- An asset of the current revision that is fresh, downstream of a fresh node, or bound otherwise. -/
def ReviewedAsset (fingerprint : LayerNode → String) (predecessor current : PreparedGraph)
    (nodeId : String) : Prop :=
  current.Has LayerNode.isAsset nodeId ∧
    (current.Downstream (freshIds fingerprint predecessor current) nodeId ∨
      nodeId ∈ freshIds fingerprint predecessor current ∨
      RelationDiffers predecessor current nodeId)

/-- A channel that is fresh or downstream of a fresh node, or that a reviewed asset goes to; in the
earlier revision the assets are only those downstream of a removed or rewritten node. -/
def ReassembledChannel (fingerprint : LayerNode → String) (predecessor current : PreparedGraph)
    (nodeId : String) : Prop :=
  (current.Has LayerNode.isChannel nodeId ∧
    (current.Downstream (freshIds fingerprint predecessor current) nodeId ∨
      nodeId ∈ freshIds fingerprint predecessor current)) ∨
  (∃ assetId, ReviewedAsset fingerprint predecessor current assetId ∧
    current.Lists assetId nodeId) ∨
  (predecessor.Has LayerNode.isChannel nodeId ∧
    (predecessor.Downstream (freshIds fingerprint current predecessor) nodeId ∨
      nodeId ∈ freshIds fingerprint current predecessor)) ∨
  ∃ assetId, predecessor.Has LayerNode.isAsset assetId ∧
    predecessor.Downstream (freshIds fingerprint current predecessor) assetId ∧
    predecessor.Lists assetId nodeId

def Noticed (fingerprint : LayerNode → String) (predecessor current : PreparedGraph)
    (nodeId : String) : Prop :=
  RevalidatedClaim fingerprint predecessor current nodeId ∨
    ReviewedAsset fingerprint predecessor current nodeId ∨
    ReassembledChannel fingerprint predecessor current nodeId

/-! ### Reading a prepared graph -/

section

variable {prepared : PreparedGraph} {nodeId : String}

theorem any_get_layerNodes (h : prepared.ids.Nodup) :
    ((Dict.indexBy LayerNode.nodeId prepared.layerNodes).get nodeId).any p = true ↔
      prepared.Has p nodeId := by
  rw [Option.any_eq_true]
  simp only [get_indexBy h, PreparedGraph.Has, and_assoc]

theorem contains_layerNodes :
    (Dict.indexBy LayerNode.nodeId prepared.layerNodes).contains nodeId = true ↔
      nodeId ∈ prepared.ids := by
  rw [Dict.contains_iff, Dict.mem_keys_indexBy, PreparedGraph.ids]

theorem PreparedGraph.Valid.relationsDistinct (h : prepared.Valid) :
    (prepared.relations.map AssetRelation.assetId).Nodup := by
  unfold PreparedGraph.relations
  cases hoverlay : prepared.overlay with
  | none => exact nodup_nil
  | some graph =>
    obtain ⟨result, hresult⟩ := h.overlay graph hoverlay
    exact (overlays_of_ok hresult).relationsDistinct

theorem Downstream.mem_ids (h : prepared.Valid) (hdown : prepared.Downstream changed nodeId) :
    nodeId ∈ prepared.source.ids := by
  obtain ⟨-, hdown⟩ := hdown
  cases hoverlay : prepared.overlay with
  | none =>
    rw [hoverlay] at hdown
    exact hdown.1.mem_ids
  | some graph =>
    rw [hoverlay] at hdown
    obtain ⟨result, hresult⟩ := h.overlay graph hoverlay
    rcases hdown with ⟨hartifact, -⟩ | ⟨relation, hmem, rfl, -⟩
    · exact hartifact.mem_ids
    · exact ((overlays_of_ok hresult).artifact_asset hmem).mem_ids

theorem not_downstream_empty : ¬ prepared.Downstream ∅ nodeId := by
  intro h
  obtain ⟨-, h⟩ := h
  cases hoverlay : prepared.overlay with
  | none =>
    rw [hoverlay] at h
    obtain ⟨-, start, hstart, -⟩ := h
    cases hstart
  | some graph =>
    rw [hoverlay] at h
    rcases h with ⟨-, start, ⟨hstart, -⟩ | ⟨limitation, hlimitation, -⟩, -⟩ |
      ⟨relation, -, -, bound, hbound, -⟩
    · cases hstart
    · cases hlimitation
    · cases hbound

theorem impactOf_ok (h : prepared.Valid) (hchanged : ∀ nodeId ∈ changed, nodeId ∈ prepared.ids) :
    ∃ affected, impactOf prepared changed = .ok affected ∧
      ∀ nodeId, nodeId ∈ affected ↔ prepared.Downstream {x | x ∈ changed} nodeId := by
  by_cases hempty : changed = []
  · subst hempty
    have hnone : {x : String | x ∈ ([] : List String)} = ∅ := by
      ext x
      simp
    refine ⟨[], rfl, fun nodeId => ?_⟩
    rw [hnone]
    exact iff_of_false not_mem_nil not_downstream_empty
  · rw [ids_eq] at hchanged
    unfold impactOf PreparedGraph.Downstream PreparedGraph.relationNodes at *
    rw [if_neg (by simpa [List.isEmpty_iff] using hempty)]
    cases hoverlay : prepared.overlay with
    | none =>
      rw [hoverlay] at hchanged
      obtain ⟨impact, himpact, hmem⟩ := affectedArtifacts_ok h.wellFormed hempty
        (by simpa using hchanged)
      exact ⟨impact.affectedNodeIds, by rw [himpact]; rfl, hmem⟩
    | some graph =>
      rw [hoverlay] at hchanged
      obtain ⟨result, hresult⟩ := h.overlay graph hoverlay
      obtain ⟨impact, himpact, hmem⟩ := affectedArtifactsV3_ok hresult
        ⟨hempty, by simpa using hchanged⟩
      exact ⟨impact.affectedNodeIds, by simp only [himpact]; rfl, hmem⟩

end

/-! ### The changes -/

section

variable {fingerprint : LayerNode → String} {predecessor current : PreparedGraph} {nodeId : String}

/-- `_changes` of the two revisions. -/
def PreparedGraph.changesTo (predecessor current : PreparedGraph)
    (fingerprint : LayerNode → String) : Changes :=
  changesBetween fingerprint (Dict.indexBy LayerNode.nodeId predecessor.layerNodes)
    (Dict.indexBy LayerNode.nodeId current.layerNodes) predecessor.assetRelations
    current.assetRelations

theorem rewritten_comm : Rewritten fingerprint current predecessor nodeId ↔
    Rewritten fingerprint predecessor current nodeId := by
  constructor
  · intro h
    obtain ⟨new, hnew, old, hold, hnewId, holdId, hne⟩ := h
    exact ⟨old, hold, new, hnew, holdId, hnewId, hne.symm⟩
  · intro h
    obtain ⟨old, hold, new, hnew, holdId, hnewId, hne⟩ := h
    exact ⟨new, hnew, old, hold, hnewId, holdId, hne.symm⟩

theorem mem_addedNodeIds : nodeId ∈ (predecessor.changesTo current fingerprint).addedNodeIds ↔
    nodeId ∈ current.ids ∧ nodeId ∉ predecessor.ids := by
  rw [PreparedGraph.changesTo, changesBetween, mem_sortedSet, mem_filter, mem_keys_indexBy,
    Bool.not_eq_true', ← Bool.not_eq_true, contains_layerNodes]
  rfl

theorem mem_removedNodeIds : nodeId ∈ (predecessor.changesTo current fingerprint).removedNodeIds ↔
    nodeId ∈ predecessor.ids ∧ nodeId ∉ current.ids := by
  rw [PreparedGraph.changesTo, changesBetween, mem_sortedSet, mem_filter, mem_keys_indexBy,
    Bool.not_eq_true', ← Bool.not_eq_true, contains_layerNodes]
  rfl

theorem mem_changedNodeIds (hold : predecessor.ids.Nodup) (hnew : current.ids.Nodup) :
    nodeId ∈ (predecessor.changesTo current fingerprint).changedNodeIds ↔
      Rewritten fingerprint predecessor current nodeId := by
  rw [PreparedGraph.changesTo, changesBetween, mem_sortedSet, mem_filter, Bool.and_eq_true,
    contains_layerNodes, mem_keys_indexBy, bne_iff_ne]
  constructor
  · intro h
    obtain ⟨hpredecessor, hcurrent, hne⟩ := h
    obtain ⟨old, holdMem, holdId⟩ := mem_map.mp hpredecessor
    obtain ⟨new, hnewMem, hnewId⟩ := mem_map.mp hcurrent
    rw [(get_indexBy hold).mpr ⟨holdMem, holdId⟩,
      (get_indexBy hnew).mpr ⟨hnewMem, hnewId⟩] at hne
    exact ⟨old, holdMem, new, hnewMem, holdId, hnewId, fun heq => hne (congrArg some heq)⟩
  · intro h
    obtain ⟨old, holdMem, new, hnewMem, holdId, hnewId, hne⟩ := h
    rw [(get_indexBy hold).mpr ⟨holdMem, holdId⟩,
      (get_indexBy hnew).mpr ⟨hnewMem, hnewId⟩]
    exact ⟨mem_map.mpr ⟨old, holdMem, holdId⟩, mem_map.mpr ⟨new, hnewMem, hnewId⟩,
      fun heq => hne (Option.some.inj heq)⟩

theorem mem_changedAssetRelationIds :
    nodeId ∈ (predecessor.changesTo current fingerprint).changedAssetRelationIds ↔
      RelationDiffers predecessor current nodeId := by
  rw [PreparedGraph.changesTo, changesBetween, mem_sortedSet, mem_filter, RelationDiffers,
    mem_append]
  refine ⟨And.right, fun h => ⟨?_, h⟩⟩
  by_contra hnone
  rw [not_or, ← get_eq_none_iff, ← get_eq_none_iff] at hnone
  rw [hnone.1, hnone.2] at h
  cases h

theorem mem_current (hold : predecessor.ids.Nodup) (hnew : current.ids.Nodup) :
    nodeId ∈ (predecessor.changesTo current fingerprint).current ↔
      nodeId ∈ freshIds fingerprint predecessor current := by
  rw [Changes.current, mem_append, mem_addedNodeIds, mem_changedNodeIds hold hnew]
  rfl

theorem mem_predecessor (hold : predecessor.ids.Nodup) (hnew : current.ids.Nodup) :
    nodeId ∈ (predecessor.changesTo current fingerprint).predecessor ↔
      nodeId ∈ freshIds fingerprint current predecessor := by
  rw [Changes.predecessor, mem_append, mem_removedNodeIds, mem_changedNodeIds hold hnew,
    ← rewritten_comm]
  rfl

theorem freshIds_subset (h : nodeId ∈ freshIds fingerprint predecessor current) :
    nodeId ∈ current.ids := by
  rcases h with ⟨hmem, -⟩ | ⟨old, -, new, hnew, -, hid, -⟩
  · exact hmem
  · exact mem_map.mpr ⟨new, hnew, hid⟩

end

/-! ### The targets -/

variable {currentAffected predecessorAffected : List String}

section

variable {fingerprint : LayerNode → String} {predecessor current prepared : PreparedGraph}
  {nodeId : String}

theorem targeted_iff :
    (∃ obligation ∈ obligationsOf nodes reviewAssets currentAffected predecessorAffected channels
      triggers, obligation.targetId = nodeId) ↔
      (nodeId ∈ currentAffected ∧ (nodes.get nodeId).any LayerNode.isClaim = true) ∨
      nodeId ∈ reviewAssets ∨ nodeId ∈ channels ∨
      (nodeId ∈ predecessorAffected ∧ nodes.contains nodeId = false) := by
  simp [obligationsOf, ObligationKind.obligation, or_and_right, exists_or]

theorem mem_channelIdsOf (h : prepared.Valid) (hids : prepared.ids.Nodup) :
    nodeId ∈ channelIdsOf prepared (Dict.indexBy LayerNode.nodeId prepared.layerNodes) assetIds
        affected ↔
      (nodeId ∈ affected ∧ prepared.Has LayerNode.isChannel nodeId) ∨
        ∃ assetId ∈ assetIds, prepared.Lists assetId nodeId := by
  have hentry : ∀ entry, entry ∈ prepared.assetRelations ↔
      entry.2 ∈ prepared.relations ∧ entry.2.assetId = entry.1 := by
    intro entry
    rw [← get_indexBy h.relationsDistinct]
    exact mem_iff_get (nodup_keys_indexBy _ _)
  rw [channelIdsOf, mem_append, mem_filter, any_get_layerNodes hids, mem_flatMap]
  refine or_congr_right ?_
  simp only [mem_filter, contains_iff_mem, hentry]
  constructor
  · intro hlisted
    obtain ⟨entry, ⟨⟨hmem, hid⟩, hasset⟩, hchannel⟩ := hlisted
    exact ⟨entry.1, hasset, entry.2, hmem, hid, hchannel⟩
  · intro hlisted
    obtain ⟨assetId, hasset, relation, hmem, hid, hchannel⟩ := hlisted
    exact ⟨(assetId, relation), ⟨⟨hmem, hid⟩, hasset⟩, hchannel⟩

def PreparedGraph.planTo (predecessor current : PreparedGraph) (fingerprint : LayerNode → String)
    (currentAffected predecessorAffected : List String) : UnsignedPlan :=
  unsignedPlan predecessor current (Dict.indexBy LayerNode.nodeId predecessor.layerNodes)
    (Dict.indexBy LayerNode.nodeId current.layerNodes) (predecessor.changesTo current fingerprint)
    currentAffected predecessorAffected

theorem deriveUnsignedPlan_ok (hp : predecessor.Valid) (hc : current.Valid) :
    deriveUnsignedPlan fingerprint predecessor current = .ok plan ↔
      predecessor.ids.Nodup ∧ current.ids.Nodup ∧ ∃ currentAffected predecessorAffected,
        impactOf current (predecessor.changesTo current fingerprint).current =
          .ok currentAffected ∧
        impactOf predecessor (predecessor.changesTo current fingerprint).predecessor =
          .ok predecessorAffected ∧
        plan = predecessor.planTo current fingerprint currentAffected predecessorAffected := by
  simp only [deriveUnsignedPlan, bind_ok, hp.nodes_ok, hc.nodes_ok]
  constructor
  · intro h
    obtain ⟨-, ⟨hold, rfl⟩, -, ⟨hnew, rfl⟩, currentAffected, hcurrent, predecessorAffected,
      hpredecessor, hplan⟩ := h
    cases hplan
    exact ⟨hold, hnew, currentAffected, predecessorAffected, hcurrent, hpredecessor, rfl⟩
  · intro h
    obtain ⟨hold, hnew, currentAffected, predecessorAffected, hcurrent, hpredecessor, hplan⟩ := h
    exact ⟨_, ⟨hold, rfl⟩, _, ⟨hnew, rfl⟩, currentAffected, hcurrent, predecessorAffected,
      hpredecessor, by rw [hplan]; rfl⟩

/-- The impact of either revision is what is downstream of its own changed nodes. -/
structure Affects (fingerprint : LayerNode → String) (predecessor current : PreparedGraph)
    (currentAffected predecessorAffected : List String) : Prop where
  after : ∀ nodeId, nodeId ∈ currentAffected ↔
    current.Downstream (freshIds fingerprint predecessor current) nodeId
  before : ∀ nodeId, nodeId ∈ predecessorAffected ↔
    predecessor.Downstream (freshIds fingerprint current predecessor) nodeId

theorem impacts_ok (hp : predecessor.Valid) (hc : current.Valid) (hold : predecessor.ids.Nodup)
    (hnew : current.ids.Nodup) : ∃ currentAffected predecessorAffected,
      impactOf current (predecessor.changesTo current fingerprint).current =
        .ok currentAffected ∧
      impactOf predecessor (predecessor.changesTo current fingerprint).predecessor =
        .ok predecessorAffected ∧
      Affects fingerprint predecessor current currentAffected predecessorAffected := by
  have hcurrent : {x | x ∈ (predecessor.changesTo current fingerprint).current} =
      freshIds fingerprint predecessor current := Set.ext fun _ => mem_current hold hnew
  have hpredecessor : {x | x ∈ (predecessor.changesTo current fingerprint).predecessor} =
      freshIds fingerprint current predecessor := Set.ext fun _ => mem_predecessor hold hnew
  obtain ⟨currentAffected, hcurrentAffected, hafter⟩ := impactOf_ok hc
    fun nodeId hmem => freshIds_subset ((mem_current hold hnew).mp hmem)
  obtain ⟨predecessorAffected, hpredecessorAffected, hbefore⟩ := impactOf_ok hp
    fun nodeId hmem => freshIds_subset ((mem_predecessor hold hnew).mp hmem)
  rw [hcurrent] at hafter
  rw [hpredecessor] at hbefore
  exact ⟨currentAffected, predecessorAffected, hcurrentAffected, hpredecessorAffected, hafter,
    hbefore⟩

theorem mem_currentAssetsOf (hold : predecessor.ids.Nodup) (hnew : current.ids.Nodup)
    (h : Affects fingerprint predecessor current currentAffected predecessorAffected) :
    nodeId ∈ currentAssetsOf (Dict.indexBy LayerNode.nodeId current.layerNodes)
        (predecessor.changesTo current fingerprint) currentAffected ↔
      ReviewedAsset fingerprint predecessor current nodeId := by
  rw [currentAssetsOf, mem_filter, mem_append, mem_append, h.after,
    mem_current hold hnew, mem_changedAssetRelationIds, assetIn, any_get_layerNodes hnew, or_assoc,
    and_comm]
  rfl

section

variable (hp : predecessor.Valid) (hc : current.Valid) (hold : predecessor.ids.Nodup)
    (hnew : current.ids.Nodup)
    (h : Affects fingerprint predecessor current currentAffected predecessorAffected)
include hp hc hold hnew h

theorem mem_channelsOf : nodeId ∈ channelsOf predecessor current
        (Dict.indexBy LayerNode.nodeId predecessor.layerNodes)
        (Dict.indexBy LayerNode.nodeId current.layerNodes)
        (predecessor.changesTo current fingerprint) currentAffected predecessorAffected ↔
      ReassembledChannel fingerprint predecessor current nodeId := by
  rw [channelsOf, mem_append, mem_channelIdsOf hc hnew, mem_channelIdsOf hp hold, or_assoc]
  simp only [mem_append, mem_filter, mem_currentAssetsOf hold hnew h, h.after, h.before,
    assetIn, mem_current hold hnew, mem_predecessor hold hnew, any_get_layerNodes hold]
  refine or_congr and_comm (or_congr Iff.rfl (or_congr and_comm (exists_congr fun assetId => ?_)))
  rw [and_assoc, and_left_comm]

theorem targeted_planTo : (∃ obligation ∈ (predecessor.planTo current fingerprint currentAffected
      predecessorAffected).reviewObligations, obligation.targetId = nodeId) ↔
        Noticed fingerprint predecessor current nodeId := by
  have hgone : ¬ (nodeId ∈ predecessorAffected ∧
      (Dict.indexBy LayerNode.nodeId current.layerNodes).contains nodeId = false) := by
    intro hgone
    obtain ⟨haffected, hnot⟩ := hgone
    rw [h.before] at haffected
    rw [← Bool.not_eq_true, contains_layerNodes] at hnot
    refine haffected.1 (.inl ⟨?_, hnot⟩)
    rw [ids_eq, mem_append]
    exact .inl (Downstream.mem_ids hp haffected)
  rw [PreparedGraph.planTo, unsignedPlan]
  simp only [targeted_iff, hgone, or_false]
  rw [mem_currentAssetsOf hold hnew h, mem_channelsOf hp hc hold hnew h, h.after,
    any_get_layerNodes hnew, and_comm]
  rfl

end

end

/-! ### When the plan is accepted -/

/-- No node that differs is called what the trigger of a differing relation is called. -/
def TriggersApart (fingerprint : LayerNode → String) (predecessor current : PreparedGraph) : Prop :=
  ∀ assetId, RelationDiffers predecessor current assetId →
    "asset_relation:" ++ assetId ∉ freshIds fingerprint predecessor current ∧
    "asset_relation:" ++ assetId ∉ freshIds fingerprint current predecessor

section

variable {fingerprint : LayerNode → String} {predecessor current prepared : PreparedGraph}
  {nodeId : String}

theorem uniqueIds_iff :
    uniqueIds ids = true ↔ (∀ nodeId ∈ ids, nonEmpty nodeId = true) ∧ ids.Nodup := by
  rw [uniqueIds, Bool.and_eq_true, all_eq_true, decide_eq_true_eq]

theorem uniqueIds_sortedSet (h : ∀ nodeId ∈ ids, nonEmpty nodeId = true) :
    uniqueIds (sortedSet ids) = true := by
  rw [uniqueIds_iff]
  exact ⟨fun nodeId hmem => h nodeId (mem_sortedSet.mp hmem), nodup_sortedSet ids⟩

theorem PreparedGraph.Valid.named (h : prepared.Valid) (hmem : nodeId ∈ prepared.ids) :
    nonEmpty nodeId = true := by
  rw [ids_eq, mem_append] at hmem
  rcases hmem with hsource | hrelation
  · obtain ⟨node, hnode, rfl⟩ := mem_map.mp hsource
    simpa [nonEmpty] using (h.wellFormed.shaped node hnode).named
  · unfold PreparedGraph.relationNodes at hrelation
    cases hoverlay : prepared.overlay with
    | none =>
      rw [hoverlay] at hrelation
      cases hrelation
    | some graph =>
      rw [hoverlay] at hrelation
      obtain ⟨node, hnode, rfl⟩ := mem_map.mp hrelation
      obtain ⟨result, hresult⟩ := h.overlay graph hoverlay
      have hschema := (overlays_of_ok hresult).schema
      simp only [ContentGraphV3.schema, Bool.and_eq_true, all_eq_true] at hschema
      obtain ⟨⟨⟨⟨⟨⟨-, hnodes⟩, -⟩, -⟩, -⟩, -⟩, -⟩ := hschema
      have hfields := hnodes node hnode
      simp only [RelationNode.schema, all_cons, Bool.and_eq_true] at hfields
      exact hfields.1

theorem PreparedGraph.Valid.sound (h : prepared.Valid) (hmem : relation ∈ prepared.relations) :
    relation.assetId ∈ prepared.source.ids ∧
      ∀ channelId ∈ relation.channelIds, nonEmpty channelId = true := by
  unfold PreparedGraph.relations at hmem
  cases hoverlay : prepared.overlay with
  | none =>
    rw [hoverlay] at hmem
    cases hmem
  | some graph =>
    rw [hoverlay] at hmem
    obtain ⟨result, hresult⟩ := h.overlay graph hoverlay
    obtain ⟨limits, hsound⟩ := (overlays_of_ok hresult).relations relation hmem
    have hchannels := hsound.channels.1
    rw [isIdList, Bool.and_eq_true, uniqueIds_iff] at hchannels
    exact ⟨((overlays_of_ok hresult).artifact_asset hmem).mem_ids, hchannels.2.1⟩

theorem source_subset (hmem : nodeId ∈ prepared.source.ids) : nodeId ∈ prepared.ids := by
  rw [ids_eq, mem_append]
  exact .inl hmem

theorem RelationDiffers.named (hp : predecessor.Valid) (hc : current.Valid)
    (h : RelationDiffers predecessor current nodeId) : nonEmpty nodeId = true := by
  have hmem : nodeId ∈ predecessor.relations.map AssetRelation.assetId ∨
      nodeId ∈ current.relations.map AssetRelation.assetId := by
    by_contra hnone
    rw [not_or, ← mem_keys_indexBy, ← mem_keys_indexBy, ← get_eq_none_iff,
      ← get_eq_none_iff] at hnone
    rw [RelationDiffers, PreparedGraph.assetRelations, PreparedGraph.assetRelations, hnone.1,
      hnone.2] at h
    cases h
  rcases hmem with hmem | hmem
  · obtain ⟨relation, hrelation, rfl⟩ := mem_map.mp hmem
    exact hp.named (source_subset (hp.sound hrelation).1)
  · obtain ⟨relation, hrelation, rfl⟩ := mem_map.mp hmem
    exact hc.named (source_subset (hc.sound hrelation).1)

theorem PreparedGraph.Has.mem_ids (h : prepared.Has p nodeId) : nodeId ∈ prepared.ids := by
  obtain ⟨node, hmem, rfl, -⟩ := h
  exact mem_map_of_mem hmem

theorem PreparedGraph.Lists.named (h : prepared.Valid) (hlists : prepared.Lists assetId nodeId) :
    nonEmpty nodeId = true := by
  obtain ⟨relation, hmem, -, hchannel⟩ := hlists
  exact (h.sound hmem).2 nodeId hchannel

theorem ReassembledChannel.named (hp : predecessor.Valid) (hc : current.Valid)
    (h : ReassembledChannel fingerprint predecessor current nodeId) : nonEmpty nodeId = true := by
  rcases h with ⟨hhas, -⟩ | ⟨assetId, -, hlists⟩ | ⟨hhas, -⟩ | ⟨assetId, -, -, hlists⟩
  · exact hc.named hhas.mem_ids
  · exact hlists.named hc
  · exact hp.named hhas.mem_ids
  · exact hlists.named hp

theorem Noticed.named (hp : predecessor.Valid) (hc : current.Valid)
    (h : Noticed fingerprint predecessor current nodeId) : nonEmpty nodeId = true := by
  rcases h with ⟨hhas, -⟩ | ⟨hhas, -⟩ | hchannel
  · exact hc.named hhas.mem_ids
  · exact hc.named hhas.mem_ids
  · exact hchannel.named hp hc

theorem mem_nodeIds (hold : predecessor.ids.Nodup) (hnew : current.ids.Nodup) :
    nodeId ∈ (predecessor.changesTo current fingerprint).nodeIds ↔
      nodeId ∈ freshIds fingerprint predecessor current ∨
        nodeId ∈ freshIds fingerprint current predecessor := by
  rw [← mem_current hold hnew, ← mem_predecessor hold hnew, Changes.nodeIds, Changes.current,
    Changes.predecessor]
  simp only [mem_append]
  tauto

theorem nodup_nodeIds (hold : predecessor.ids.Nodup) (hnew : current.ids.Nodup) :
    (predecessor.changesTo current fingerprint).nodeIds.Nodup := by
  have hrewritten : ∀ nodeId, nodeId ∈ (predecessor.changesTo current fingerprint).changedNodeIds →
      nodeId ∈ predecessor.ids ∧ nodeId ∈ current.ids := by
    intro nodeId hmem
    rw [mem_changedNodeIds hold hnew] at hmem
    exact ⟨freshIds_subset (.inr (rewritten_comm.mpr hmem)), freshIds_subset (.inr hmem)⟩
  rw [Changes.nodeIds, Changes.current, nodup_append', nodup_append']
  refine ⟨⟨nodup_sortedSet _, nodup_sortedSet _, ?_⟩, nodup_sortedSet _, ?_⟩
  · intro nodeId hadded hchanged
    exact (mem_addedNodeIds.mp hadded).2 (hrewritten nodeId hchanged).1
  · intro nodeId hfront hremoved
    have hgone := (mem_removedNodeIds.mp hremoved).2
    rcases mem_append.mp hfront with hadded | hchanged
    · exact hgone (mem_addedNodeIds.mp hadded).1
    · exact hgone (hrewritten nodeId hchanged).2

theorem uniqueIds_triggersOf (hp : predecessor.Valid) (hc : current.Valid)
    (hold : predecessor.ids.Nodup) (hnew : current.ids.Nodup) :
    uniqueIds (triggersOf (predecessor.changesTo current fingerprint)) = true ↔
      TriggersApart fingerprint predecessor current := by
  have hinjective : Function.Injective ("asset_relation:" ++ · : String → String) :=
    fun a b hab => (String.append_right_inj _).mp hab
  have hlabels : (((predecessor.changesTo current fingerprint).changedAssetRelationIds).map
      ("asset_relation:" ++ ·)).Nodup :=
    (nodup_map_iff hinjective).mpr (nodup_sortedSet _)
  rw [uniqueIds_iff, triggersOf, (perm_insertionSort _ _).nodup_iff,
    nodup_append']
  simp only [mem_insertionSort]
  constructor
  · intro h assetId hdiffers
    have hlabel : "asset_relation:" ++ assetId ∈
        ((predecessor.changesTo current fingerprint).changedAssetRelationIds).map
          ("asset_relation:" ++ ·) :=
      mem_map_of_mem (mem_changedAssetRelationIds.mpr hdiffers)
    have hnot := fun hmem => h.2.2.2 hmem hlabel
    rw [mem_nodeIds hold hnew] at hnot
    exact not_or.mp hnot
  · intro h
    refine ⟨fun trigger hmem => ?_, nodup_nodeIds hold hnew, hlabels, fun trigger hmem hlabel => ?_⟩
    · rcases mem_append.mp hmem with hnode | hlabel
      · rcases (mem_nodeIds hold hnew).mp hnode with hfresh | hstale
        · exact hc.named (freshIds_subset hfresh)
        · exact hp.named (freshIds_subset hstale)
      · obtain ⟨assetId, -, rfl⟩ := mem_map.mp hlabel
        exact nonEmpty_append (by decide) assetId
    · obtain ⟨assetId, hdiffers, rfl⟩ := mem_map.mp hlabel
      have hapart := h assetId (mem_changedAssetRelationIds.mp hdiffers)
      rcases (mem_nodeIds hold hnew).mp hmem with hfresh | hstale
      · exact hapart.1 hfresh
      · exact hapart.2 hstale

theorem obligationsOf_labelled
    (h : obligation ∈ obligationsOf nodes reviewAssets currentAffected predecessorAffected channels
      triggers) : nonEmpty obligation.obligationId = true ∧ obligation.triggerIds = triggers := by
  simp only [obligationsOf, mem_append, mem_map, ObligationKind.obligation] at h
  rcases h with ((⟨targetId, -, rfl⟩ | ⟨targetId, -, rfl⟩) | ⟨targetId, -, rfl⟩) |
    ⟨targetId, -, rfl⟩
  all_goals
    refine ⟨?_, rfl⟩
    rw [String.append_assoc]
    exact nonEmpty_append (by decide) _

section

variable (hp : predecessor.Valid) (hc : current.Valid) (hold : predecessor.ids.Nodup)
    (hnew : current.ids.Nodup)
    (h : Affects fingerprint predecessor current currentAffected predecessorAffected)
include hp hc hold hnew h

theorem idLists_planTo : [(predecessor.changesTo current fingerprint).addedNodeIds,
      (predecessor.changesTo current fingerprint).removedNodeIds,
      (predecessor.changesTo current fingerprint).changedNodeIds,
      (predecessor.changesTo current fingerprint).changedAssetRelationIds,
      sortedSet currentAffected, sortedSet predecessorAffected,
      sortedSet (currentAssetsOf (Dict.indexBy LayerNode.nodeId current.layerNodes)
        (predecessor.changesTo current fingerprint) currentAffected),
      sortedSet (channelsOf predecessor current
        (Dict.indexBy LayerNode.nodeId predecessor.layerNodes)
        (Dict.indexBy LayerNode.nodeId current.layerNodes)
        (predecessor.changesTo current fingerprint) currentAffected
        predecessorAffected)].all uniqueIds = true := by
  simp only [all_cons, all_nil, Bool.and_eq_true, and_true]
  refine ⟨?_, ?_, ?_, ?_, ?_, ?_, ?_, ?_⟩
  · exact uniqueIds_iff.mpr ⟨fun _ hmem => hc.named (mem_addedNodeIds.mp hmem).1, nodup_sortedSet _⟩
  · exact uniqueIds_iff.mpr
      ⟨fun _ hmem => hp.named (mem_removedNodeIds.mp hmem).1, nodup_sortedSet _⟩
  · exact uniqueIds_iff.mpr ⟨fun _ hmem => hc.named
      (freshIds_subset (.inr ((mem_changedNodeIds hold hnew).mp hmem))), nodup_sortedSet _⟩
  · exact uniqueIds_iff.mpr ⟨fun _ hmem =>
      RelationDiffers.named hp hc (mem_changedAssetRelationIds.mp hmem), nodup_sortedSet _⟩
  · exact uniqueIds_sortedSet fun nodeId hmem =>
      hc.named (source_subset (Downstream.mem_ids hc ((h.after nodeId).mp hmem)))
  · exact uniqueIds_sortedSet fun nodeId hmem =>
      hp.named (source_subset (Downstream.mem_ids hp ((h.before nodeId).mp hmem)))
  · exact uniqueIds_sortedSet fun nodeId hmem =>
      hc.named ((mem_currentAssetsOf hold hnew h).mp hmem).1.mem_ids
  · exact uniqueIds_sortedSet fun nodeId hmem =>
      ((mem_channelsOf hp hc hold hnew h).mp hmem).named hp hc

theorem schema_planTo :
    (predecessor.planTo current fingerprint currentAffected predecessorAffected).schema = true ↔
      nonEmpty predecessor.identity.snapshotId = true ∧
      nonEmpty current.identity.snapshotId = true ∧
      ((∃ nodeId, Noticed fingerprint predecessor current nodeId) →
        TriggersApart fingerprint predecessor current) := by
  have htargets : ∀ nodeId, (∃ obligation ∈ (predecessor.planTo current fingerprint currentAffected
      predecessorAffected).reviewObligations, obligation.targetId = nodeId) ↔
        Noticed fingerprint predecessor current nodeId :=
    fun nodeId => targeted_planTo hp hc hold hnew h
  have hlabelled : ∀ obligation ∈ (predecessor.planTo current fingerprint currentAffected
      predecessorAffected).reviewObligations, nonEmpty obligation.obligationId = true ∧
        obligation.triggerIds = triggersOf (predecessor.changesTo current fingerprint) :=
    fun obligation => obligationsOf_labelled
  rw [UnsignedPlan.schema, Bool.and_eq_true, Bool.and_eq_true, Bool.and_eq_true, and_assoc,
    and_assoc]
  refine and_congr (Eq.to_iff (congrArg (· = true) hp.identity))
    (and_congr (Eq.to_iff (congrArg (· = true) hc.identity)) ?_)
  constructor
  · intro hschema hsome
    obtain ⟨nodeId, hnoticed⟩ := hsome
    obtain ⟨obligation, hmem, -⟩ := (htargets nodeId).mpr hnoticed
    have hobligation := all_eq_true.mp hschema.2 obligation hmem
    rw [ReviewObligation.schema, Bool.and_eq_true, (hlabelled obligation hmem).2] at hobligation
    exact (uniqueIds_triggersOf hp hc hold hnew).mp hobligation.2
  · intro hapart
    refine ⟨idLists_planTo hp hc hold hnew h, all_eq_true.mpr fun obligation hmem => ?_⟩
    have hnoticed := (htargets obligation.targetId).mp ⟨obligation, hmem, rfl⟩
    rw [ReviewObligation.schema, (hlabelled obligation hmem).1, hnoticed.named hp hc,
      (hlabelled obligation hmem).2]
    exact (uniqueIds_triggersOf hp hc hold hnew).mpr (hapart ⟨_, hnoticed⟩)

end

end

/-! ### Differences without an obligation -/

/-- A change of the first node has to be reviewed in the second: the dependency direction of the V2
graph, and the channels that the relation of an asset lists. -/
def PreparedGraph.Feeds (prepared : PreparedGraph) (source dependent : String) : Prop :=
  prepared.source.Invalidates source dependent ∨ prepared.Lists source dependent

def PreparedGraph.upstream (prepared : PreparedGraph) (nodeId : String) : Set LayerNode :=
  {node | node ∈ prepared.layerNodes ∧ Relation.TransGen prepared.Feeds node.nodeId nodeId}

def PreparedGraph.limitationsOf (prepared : PreparedGraph) (nodeId : String) : Set LayerNode :=
  {node | ∃ graph, prepared.overlay = some graph ∧ ∃ limitation ∈ graph.nodes,
    limitation.type = .limitation ∧ node = .relation limitation ∧
    ((∃ item ∈ graph.claimLimitations,
        item.claimId = nodeId ∧ limitation.nodeId ∈ item.limitationIds) ∨
      ∃ relation ∈ graph.assetRelations,
        relation.assetId = nodeId ∧ limitation.nodeId ∈ relation.boundaryIds)}

/-- The upstream nodes, the limitations or the relation of the node differ. -/
def Touched (predecessor current : PreparedGraph) (nodeId : String) : Prop :=
  predecessor.upstream nodeId ≠ current.upstream nodeId ∨
    predecessor.limitationsOf nodeId ≠ current.limitationsOf nodeId ∨
    RelationDiffers predecessor current nodeId

def Watched (predecessor current : PreparedGraph) (nodeId : String) : Prop :=
  let watched (node : LayerNode) := node.isClaim || node.isAsset || node.isChannel
  predecessor.Has watched nodeId ∨ current.Has watched nodeId

def PreparedGraph.claimLimitations (prepared : PreparedGraph) : List ClaimLimitation :=
  (prepared.overlay.map ContentGraphV3.claimLimitations).getD []

/-- The revisions differ in a node, a V2 edge, a claim limitation or an asset relation. -/
def Differ (predecessor current : PreparedGraph) : Prop :=
  (∃ node, ¬ (node ∈ predecessor.layerNodes ↔ node ∈ current.layerNodes)) ∨
    (∃ edge, ¬ (edge ∈ predecessor.source.edges ↔ edge ∈ current.source.edges)) ∨
    (∃ item, ¬ (item ∈ predecessor.claimLimitations ↔ item ∈ current.claimLimitations)) ∨
    ∃ assetId, RelationDiffers predecessor current assetId

/-- Some obligation is about each claim, asset and channel that the difference touches. -/
def Covers (predecessor current : PreparedGraph) (obligations : List ReviewObligation) : Prop :=
  ∀ nodeId, Watched predecessor current nodeId → Touched predecessor current nodeId →
    ∃ obligation ∈ obligations, obligation.targetId = nodeId

/-- For two valid revisions of one candidate that differ, a plan is built, and its obligations cover
the difference. -/
def MissesNoChange (hashes : PlanHashes) (predecessorGraph currentGraph : GraphFile) : Prop :=
  ∀ predecessor current, prepareGraph predecessorGraph = .ok predecessor →
    prepareGraph currentGraph = .ok current → requireSameCandidate predecessor current = .ok () →
    Differ predecessor current →
    ∃ plan, buildContentImpactReviewPlan hashes predecessorGraph currentGraph = .ok plan ∧
      Covers predecessor current plan.reviewObligations

/-- The plan can be built, and all that the difference touches shows in the records of nodes and
relations: an edge, a claim limitation and a removed node are no reason of their own. -/
structure PlanSees (fingerprint : LayerNode → String) (predecessor current : PreparedGraph) :
    Prop where
  /-- No layer takes an identifier of the other. -/
  layersApart : predecessor.ids.Nodup ∧ current.ids.Nodup
  snapshot : nonEmpty predecessor.identity.snapshotId = true ∧
    nonEmpty current.identity.snapshotId = true
  triggersApart : (∃ nodeId, Noticed fingerprint predecessor current nodeId) →
    TriggersApart fingerprint predecessor current
  noticed : ∀ nodeId, Watched predecessor current nodeId → Touched predecessor current nodeId →
    Noticed fingerprint predecessor current nodeId

section

variable {hashes : PlanHashes} {predecessorGraph currentGraph : GraphFile}
  {fingerprint : LayerNode → String} {predecessor current : PreparedGraph} {nodeId : String}

theorem build_ok (Good : List ReviewObligation → Prop) (hp : prepareGraph predecessorGraph = .ok predecessor)
    (hc : prepareGraph currentGraph = .ok current)
    (hsame : requireSameCandidate predecessor current = .ok ()) :
    (∃ plan, buildContentImpactReviewPlan hashes predecessorGraph currentGraph = .ok plan ∧
      Good plan.reviewObligations) ↔
      ∃ unsigned, deriveUnsignedPlan hashes.node predecessor current = .ok unsigned ∧
        unsigned.schema = true ∧ Good unsigned.reviewObligations := by
  simp only [buildContentImpactReviewPlan, bind_ok, require_ok]
  constructor
  · intro h
    obtain ⟨plan, ⟨found, hfound, other, hother, -, -, unsigned, hderive, -, hschema, hplan⟩,
      hgood⟩ := h
    rw [hp] at hfound
    rw [hc] at hother
    cases hfound
    cases hother
    cases hplan
    exact ⟨unsigned, hderive, hschema, hgood⟩
  · intro h
    obtain ⟨unsigned, hderive, hschema, hgood⟩ := h
    exact ⟨_, ⟨predecessor, hp, current, hc, (), hsame, unsigned, hderive, (), hschema, rfl⟩, hgood⟩

section

variable (hp : predecessor.Valid) (hc : current.Valid) (hold : predecessor.ids.Nodup)
    (hnew : current.ids.Nodup)
include hp hc hold hnew

theorem derived_spec :
    ∃ unsigned, deriveUnsignedPlan fingerprint predecessor current = .ok unsigned ∧
      (unsigned.schema = true ↔ nonEmpty predecessor.identity.snapshotId = true ∧
        nonEmpty current.identity.snapshotId = true ∧
        ((∃ nodeId, Noticed fingerprint predecessor current nodeId) →
          TriggersApart fingerprint predecessor current)) ∧
      ∀ nodeId, (∃ obligation ∈ unsigned.reviewObligations, obligation.targetId = nodeId) ↔
        Noticed fingerprint predecessor current nodeId := by
  obtain ⟨currentAffected, predecessorAffected, hcurrent, hpredecessor, haffects⟩ :=
    impacts_ok hp hc hold hnew
  exact ⟨_, (deriveUnsignedPlan_ok hp hc).mpr
    ⟨hold, hnew, currentAffected, predecessorAffected, hcurrent, hpredecessor, rfl⟩,
    schema_planTo hp hc hold hnew haffects, fun nodeId => targeted_planTo hp hc hold hnew haffects⟩

end

/-- The plan misses no change exactly where it sees the difference: where it can be built, and
every claim, asset and channel that the difference touches is noticed through the records of the
nodes and of the relations. -/
theorem missesNoChange_iff (hashes : PlanHashes) (predecessorGraph currentGraph : GraphFile) :
    MissesNoChange hashes predecessorGraph currentGraph ↔
      ∀ predecessor current, prepareGraph predecessorGraph = .ok predecessor →
        prepareGraph currentGraph = .ok current →
        requireSameCandidate predecessor current = .ok () → Differ predecessor current →
        PlanSees hashes.node predecessor current := by
  refine forall₂_congr fun predecessor current => forall₄_congr fun hp hc hsame _ => ?_
  have hpv := valid_of_prepareGraph hp
  have hcv := valid_of_prepareGraph hc
  rw [build_ok (Covers predecessor current) hp hc hsame]
  constructor
  · intro h
    obtain ⟨unsigned, hderive, hschema, hcovers⟩ := h
    obtain ⟨hold, hnew, -⟩ := (deriveUnsignedPlan_ok hpv hcv).mp hderive
    obtain ⟨found, hfound, hschemaFound, htargets⟩ := derived_spec hpv hcv hold hnew
    rw [hderive] at hfound
    cases hfound
    obtain ⟨hpredecessor, hcurrent, happart⟩ := hschemaFound.mp hschema
    exact ⟨⟨hold, hnew⟩, ⟨hpredecessor, hcurrent⟩, happart,
      fun nodeId hwatched htouched => (htargets nodeId).mp (hcovers nodeId hwatched htouched)⟩
  · intro h
    obtain ⟨unsigned, hderive, hschema, htargets⟩ :=
      derived_spec hpv hcv h.layersApart.1 h.layersApart.2
    exact ⟨unsigned, hderive, hschema.mpr ⟨h.snapshot.1, h.snapshot.2, h.triggersApart⟩,
      fun nodeId hwatched htouched => (htargets nodeId).mpr (h.noticed nodeId hwatched htouched)⟩

end

/-! ### A readme that is no longer derived from its claim -/

def idHashes : PlanHashes := ⟨LayerNode.nodeId, fun _ => "plan", fun _ _ => "sha256:plan"⟩

def derivedGraph : GraphFile :=
  .source ⟨"graphs/before.json", "sha256:before", by decide⟩ sampleSource

def underivedGraph : GraphFile :=
  .source ⟨"graphs/after.json", "sha256:after", by decide⟩
    { sampleSource with edges := [⟨"package.forum", "asset.readme", .contains⟩] }

def preparedOf (path hash : String) (edges : List ContentEdge) : PreparedGraph where
  overlay := none
  source := { sampleSource with edges }
  identity := ⟨path, "content-graph/v2", "v2:snapshot.1", "v2-migrated:snapshot.1", "snapshot.1",
    "v2-migrated", hash, hash⟩

/-- The claim is no longer upstream of the readme, and the plan has no obligation at all. -/
theorem removed_edge_missed : ¬ MissesNoChange idHashes derivedGraph underivedGraph := by
  intro h
  let edge : ContentEdge := ⟨"asset.readme", "claim.replay", .derivedFrom⟩
  let before := preparedOf "graphs/before.json" "sha256:before" sampleSource.edges
  let after := preparedOf "graphs/after.json" "sha256:after"
    [⟨"package.forum", "asset.readme", .contains⟩]
  have hdiffer : Differ before after := Or.inr (Or.inl ⟨edge, by decide +kernel⟩)
  obtain ⟨plan, hplan, hcovers⟩ := h before after (by decide +kernel) (by decide +kernel)
    (by decide +kernel) hdiffer
  have hnothing : (buildContentImpactReviewPlan idHashes derivedGraph underivedGraph).map
      (fun plan => plan.reviewObligations) = .ok [] := by decide +kernel
  rw [hplan] at hnothing
  have hempty : plan.reviewObligations = [] := Except.ok.inj hnothing
  have hbefore : Relation.TransGen before.Feeds "claim.replay" "asset.readme" :=
    Relation.TransGen.single (Or.inl ⟨edge, by decide +kernel, rfl⟩)
  have hafter : ¬ Relation.TransGen after.Feeds "claim.replay" "asset.readme" := by
    intro hpath
    obtain ⟨next, hnext, -⟩ := Relation.TransGen.head'_iff.mp hpath
    rcases hnext with ⟨found, hfound, heq⟩ | ⟨relation, hrelation, -⟩
    · rw [mem_singleton.mp hfound] at heq
      simp [ContentEdge.dependency, EdgeType.forward] at heq
    · cases hrelation
  have htouched : Touched before after "asset.readme" := by
    refine Or.inl fun heq => hafter ?_
    have hupstream : LayerNode.content ⟨"claim.replay", .claim, .draft, "snapshot.1", "hash.claim",
        none⟩ ∈ before.upstream "asset.readme" := ⟨by decide +kernel, hbefore⟩
    rw [heq] at hupstream
    exact hupstream.2
  obtain ⟨obligation, hmem, -⟩ := hcovers "asset.readme" (Or.inl ⟨LayerNode.content
    ⟨"asset.readme", .asset, .draft, "snapshot.1", "hash.readme", some "README.md"⟩,
    by decide +kernel, rfl, rfl⟩) htouched
  rw [hempty] at hmem
  cases hmem

end Flowness.OssHarness
