import Flowness.Library.QueueSearch
import Flowness.Library.SortedSet
import Flowness.Projection.ImpactGraph
import Mathlib.Data.Prod.Lex
import Mathlib.Data.String.Basic

/-!
What a freeze or a fix records of its downstream: a slice of the impact graph is taken from one
concept after the other, and each entity keeps the first slice that reaches it.
-/

namespace Flowness.Projection

open List Library Library.LevelSearch

def defaultSliceEdgeTypes : List String := ["dependency", "reference"]

def maxDepthCap : Int := 5

def clampDepth (depth : Int) : Int := max 0 (min maxDepthCap depth)

/-- The id of an edge, else one made of its ends and its type. -/
def edgeLabel (edge : ImpactEdge) (edgeType : String) : String :=
  if edge.edgeId ≠ "" then edge.edgeId
  else edge.source ++ "->" ++ edge.target ++ ":" ++ edgeType

/-- A neighbour, and the id and the type of the edge to it. -/
abbrev Adjacent := String × String × String

def adjacentEntry (edgeTypes : List String) (reverse : Bool) (edge : ImpactEdge) :
    Option (String × Adjacent) :=
  match edge.edgeType with
  | .str edgeType =>
    if edge.kind = .concept ∧ edgeType ∈ edgeTypes ∧ edge.source ≠ "" ∧ edge.target ≠ "" then
      let label := edgeLabel edge edgeType
      some (if reverse then (edge.target, edge.source, label, edgeType)
        else (edge.source, edge.target, label, edgeType))
    else none
  | _ => none

def filteredAdjacency (edges : List ImpactEdge) (edgeTypes : List String) (reverse : Bool) :
    Dict String (List Adjacent) :=
  (edges.filterMap (adjacentEntry edgeTypes reverse)).foldl
    (fun adjacency entry => adjacency.appendAt entry.1 entry.2) []

structure SliceEntityResult where
  entityId : String
  entityType : String := "concept"
  depth : Nat
  path : List String
  edgeTypesTraversed : List String

/-- `_bfs` over one adjacency, with fuel for every edge. -/
def sliceFrom (edges : List ImpactEdge) (start : String)
    (adjacency : Dict String (List Adjacent)) (depth : Nat) : List SliceEntityResult :=
  (QueueSearch.bfs adjacency.getList depth (edges.length + 1) start).map fun hit =>
    { entityId := hit.node
      depth := hit.depth
      path := hit.path.map Prod.fst
      edgeTypesTraversed := hit.path.map Prod.snd }

def forwardSlice (edges : List ImpactEdge) (start : String) (maxDepth : Int)
    (edgeTypes : List String) : List SliceEntityResult :=
  sliceFrom edges start (filteredAdjacency edges edgeTypes false) (clampDepth maxDepth).toNat

structure DownstreamEntity where
  entityId : String
  entityType : String
  depth : Nat
  path : List String
deriving DecidableEq

/-- One hit of a slice; `seen` holds the ids of what is collected. -/
def collectHit (members : List String) (collected : List DownstreamEntity)
    (hit : SliceEntityResult) : List DownstreamEntity :=
  if hit.depth < 1 ∨ hit.entityId ∈ members ∨
      hit.entityId ∈ collected.map DownstreamEntity.entityId then collected
  else collected ++ [⟨hit.entityId, hit.entityType, hit.depth, hit.path⟩]

def collectSlices (edges : List ImpactEdge) (members scanned : List String) :
    List DownstreamEntity :=
  scanned.foldl (fun collected conceptId =>
    (forwardSlice edges conceptId 5 defaultSliceEdgeTypes).foldl (collectHit members) collected) []

def downstreamEntities (edges : List ImpactEdge) (members : List String) : List DownstreamEntity :=
  (collectSlices edges members (sortedSet members)).insertionSort
    fun a b => toLex (a.depth, a.entityId) ≤ toLex (b.depth, b.entityId)

structure DownstreamEvidence where
  scannedConcepts : List String
  downstreamEntities : List DownstreamEntity
  projectionWatermark : Int

def ciaDownstreamScan (edges : List ImpactEdge) (cursor : Int) (thisBatchConcepts : List String) :
    DownstreamEvidence where
  scannedConcepts := sortedSet thisBatchConcepts
  downstreamEntities := downstreamEntities edges thisBatchConcepts
  projectionWatermark := max 0 (cursor - 1)

structure CascadeEvidence (σ : Type) extends DownstreamEvidence where
  stateMachineChecks : List σ

/-- The state machine of a declared change is checked by `stateMachineCheck`. -/
def ciaCascadeScan {γ σ : Type} (stateMachineCheck : γ → σ) (edges : List ImpactEdge) (cursor : Int)
    (changedConcepts : List String) (stateChanges : List γ) : CascadeEvidence σ where
  scannedConcepts := sortedSet changedConcepts
  downstreamEntities := downstreamEntities edges changedConcepts
  projectionWatermark := max 0 (cursor - 1)
  stateMachineChecks := stateChanges.map stateMachineCheck

/-- A concept edge of a default slice type, under the id it is recorded with. -/
def SliceEdge (edges : List ImpactEdge) (y x label : String) : Prop :=
  ∃ edge ∈ edges, ∃ edgeType ∈ defaultSliceEdgeTypes, edge.kind = .concept ∧
    edge.edgeType = .str edgeType ∧ edge.source = y ∧ edge.target = x ∧ y ≠ "" ∧ x ≠ "" ∧
    label = edgeLabel edge edgeType

def SliceStep (edges : List ImpactEdge) (y x : String) : Prop := ∃ label, SliceEdge edges y x label

/-- Recorded edge ids that lead from the start to an entity. -/
inductive EdgePath (edges : List ImpactEdge) (start : String) : List String → String → Prop
  | start : EdgePath edges start [] start
  | snoc {path : List String} {y x label : String} (way : EdgePath edges start path y)
      (edge : SliceEdge edges y x label) : EdgePath edges start (path ++ [label]) x

variable {edges : List ImpactEdge} {start x y : String}

theorem mem_filteredAdjacency :
    adjacent ∈ (filteredAdjacency edges defaultSliceEdgeTypes false).getList y ↔
      ∃ edge ∈ edges, adjacentEntry defaultSliceEdgeTypes false edge = some (y, adjacent) := by
  rw [filteredAdjacency, Dict.mem_getList_foldl]
  simp [Dict.getList]

theorem sliceEdge_iff : SliceEdge edges y x label ↔
    ∃ edgeType, (x, label, edgeType) ∈
      (filteredAdjacency edges defaultSliceEdgeTypes false).getList y := by
  simp only [mem_filteredAdjacency]
  unfold adjacentEntry
  constructor
  · rintro ⟨edge, hedge, edgeType, htype, hkind, hjson, rfl, rfl, hy, hx, rfl⟩
    exact ⟨edgeType, edge, hedge, by simp [hjson, hkind, htype, hy, hx]⟩
  · rintro ⟨edgeType, edge, hedge, hentry⟩
    split at hentry
    next hjson =>
      simp only [Bool.false_eq_true, ↓reduceIte] at hentry
      split_ifs at hentry with hkept
      obtain ⟨hkind, htype, hy, hx⟩ := hkept
      cases hentry
      exact ⟨edge, hedge, _, htype, hkind, hjson, rfl, rfl, hy, hx, rfl⟩
    next => cases hentry

theorem sliceStep_iff : SliceStep edges y x ↔
    x ∈ QueueSearch.nodesAfter (filteredAdjacency edges defaultSliceEdgeTypes false).getList y := by
  unfold SliceStep QueueSearch.nodesAfter
  simp [sliceEdge_iff]

theorem EdgePath.of_leads
    (h : QueueSearch.Leads (filteredAdjacency edges defaultSliceEdgeTypes false).getList start path
      x) : EdgePath edges start (path.map Prod.fst) x := by
  induction h with
  | start => exact .start
  | snoc _ edge ih =>
    rw [map_append]
    exact ih.snoc (sliceEdge_iff.mpr ⟨_, edge⟩)

/-- One slice: each entity within five edges once, with its distance and a path to it. -/
theorem forwardSlice_exact (edges : List ImpactEdge) (start : String) :
    (∀ hit ∈ forwardSlice edges start 5 defaultSliceEdgeTypes, 1 ≤ hit.depth ∧ hit.depth ≤ 5 ∧
        EdgePath edges start hit.path hit.entityId ∧ hit.path.length = hit.depth ∧
        AtDistance (SliceStep edges) start hit.depth hit.entityId) ∧
      ∀ x n, 1 ≤ n → n ≤ 5 → Way (SliceStep edges) start n x → x ≠ start →
        x ∈ (forwardSlice edges start 5 defaultSliceEdgeTypes).map SliceEntityResult.entityId := by
  have htargets : ∀ y, ∀ edge ∈ (filteredAdjacency edges defaultSliceEdgeTypes false).getList y,
      edge.1 ∈ edges.map ImpactEdge.target := by
    rintro y ⟨x, label, edgeType⟩ hedge
    obtain ⟨edge, hmem, -, -, -, -, -, rfl, -⟩ := sliceEdge_iff.mpr ⟨edgeType, hedge⟩
    exact mem_map_of_mem hmem
  have hstep : (fun y x => x ∈ QueueSearch.nodesAfter
      (filteredAdjacency edges defaultSliceEdgeTypes false).getList y) = SliceStep edges := by
    funext y x
    exact propext sliceStep_iff.symm
  obtain ⟨-, hhits, hall⟩ := QueueSearch.bfs_exact htargets
    (show (edges.map ImpactEdge.target).length < edges.length + 1 by simp) 5 start
  rw [hstep] at hhits hall
  constructor
  · intro hit hhit
    obtain ⟨found, hfound, rfl⟩ := mem_map.mp hhit
    obtain ⟨m, hpos, hle, hreaches, hat⟩ := hhits found hfound
    rw [← hreaches.depth] at hpos hle hat
    refine ⟨hpos, hle, EdgePath.of_leads hreaches.way, ?_, hat⟩
    rw [length_map, hreaches.length, hreaches.depth]
  · intro x n hpos hle hway hne
    obtain ⟨m, hm, hat⟩ := hway.atDistance
    have hzero : m ≠ 0 := by
      rintro rfl
      exact hne (atDistance_zero.mp hat)
    obtain ⟨found, hfound, rfl⟩ := mem_map.mp (hall x m (by omega) (by omega) hat)
    exact mem_map.mpr ⟨_, mem_map_of_mem hfound, rfl⟩

/-- Within five edges of a concept. -/
def Near (edges : List ImpactEdge) (conceptId x : String) : Prop :=
  ∃ n, 1 ≤ n ∧ n ≤ 5 ∧ Way (SliceStep edges) conceptId n x

/-- An entity under the first of the concepts that is near it. -/
structure FirstReached (edges : List ImpactEdge) (scanned : List String)
    (entry : DownstreamEntity) : Prop where
  reached : ∃ conceptId ∈ scanned, EdgePath edges conceptId entry.path entry.entityId ∧
    entry.path.length = entry.depth ∧ 1 ≤ entry.depth ∧ entry.depth ≤ 5 ∧
    AtDistance (SliceStep edges) conceptId entry.depth entry.entityId ∧
    ∀ earlier ∈ scanned, earlier < conceptId → ¬Near edges earlier entry.entityId

structure Collected (edges : List ImpactEdge) (members scanned : List String)
    (collected : List DownstreamEntity) : Prop where
  nodup : (collected.map DownstreamEntity.entityId).Nodup
  outside : ∀ entry ∈ collected, entry.entityId ∉ members
  first : ∀ entry ∈ collected, FirstReached edges scanned entry
  all : ∀ x ∉ members, (∃ conceptId ∈ scanned, Near edges conceptId x) →
    x ∈ collected.map DownstreamEntity.entityId

theorem foldl_collectHit (members : List String) {hits : List SliceEntityResult}
    (hpos : ∀ hit ∈ hits, 1 ≤ hit.depth) {collected : List DownstreamEntity}
    (hnodup : (collected.map DownstreamEntity.entityId).Nodup) :
    let after := hits.foldl (collectHit members) collected
    (after.map DownstreamEntity.entityId).Nodup ∧ collected ⊆ after ∧
      (∀ entry ∈ after, entry ∈ collected ∨ entry.entityId ∉ members ∧
        entry.entityId ∉ collected.map DownstreamEntity.entityId ∧
        ∃ hit ∈ hits, entry = ⟨hit.entityId, hit.entityType, hit.depth, hit.path⟩) ∧
      ∀ hit ∈ hits, hit.entityId ∉ members → hit.entityId ∈ after.map DownstreamEntity.entityId := by
  induction hits using List.reverseRecOn with
  | nil => exact ⟨hnodup, fun _ h => h, fun _ h => .inl h, by simp⟩
  | append_singleton hits hit ih =>
    obtain ⟨hnodup', hkept, hfrom, hall⟩ := ih fun other h => hpos other (mem_append_left _ h)
    intro after
    have hafter : after = collectHit members (hits.foldl (collectHit members) collected) hit := by
      unfold after
      rw [foldl_append, foldl_cons, foldl_nil]
    generalize hits.foldl (collectHit members) collected = before at hnodup' hkept hfrom hall hafter
    have hfrom' : ∀ entry ∈ before, entry ∈ collected ∨ entry.entityId ∉ members ∧
        entry.entityId ∉ collected.map DownstreamEntity.entityId ∧
        ∃ other ∈ hits ++ [hit], entry = ⟨other.entityId, other.entityType, other.depth, other.path⟩ := by
      intro entry hentry
      rcases hfrom entry hentry with h | ⟨hout, hnew, other, hother, heq⟩
      · exact .inl h
      · exact .inr ⟨hout, hnew, other, mem_append_left _ hother, heq⟩
    rw [hafter]
    unfold collectHit
    split_ifs with hskip
    · refine ⟨hnodup', hkept, hfrom', ?_⟩
      intro other hother hout
      rcases mem_append.mp hother with hother | hother
      · exact hall other hother hout
      · cases mem_singleton.mp hother
        have hdepth := hpos hit (mem_append_right _ mem_cons_self)
        rcases hskip with hlow | hin | hseen
        · omega
        · exact absurd hin hout
        · exact hseen
    · push Not at hskip
      obtain ⟨-, hout, hnew⟩ := hskip
      refine ⟨?_, fun _ h => mem_append_left _ (hkept h), ?_, ?_⟩
      · rw [map_append, nodup_append]
        refine ⟨hnodup', nodup_singleton _, ?_⟩
        intro seen hseen other hother heq
        rw [heq, mem_singleton.mp hother] at hseen
        exact hnew hseen
      · intro entry hentry
        rcases mem_append.mp hentry with hentry | hentry
        · exact hfrom' entry hentry
        · cases mem_singleton.mp hentry
          refine .inr ⟨hout, ?_, hit, mem_append_right _ mem_cons_self, rfl⟩
          intro hseen
          obtain ⟨known, hknown, heq⟩ := mem_map.mp hseen
          exact hnew (mem_map.mpr ⟨known, hkept hknown, heq⟩)
      · intro other hother hout'
        rw [map_append, mem_append]
        rcases mem_append.mp hother with hother | hother
        · exact .inl (hall other hother hout')
        · cases mem_singleton.mp hother
          exact .inr mem_cons_self

theorem collected_collectSlices (members : List String) {scanned : List String}
    (hsubset : scanned ⊆ members) (hsorted : scanned.Pairwise (· < ·)) :
    Collected edges members scanned (collectSlices edges members scanned) := by
  induction scanned using List.reverseRecOn with
  | nil => exact ⟨nodup_nil, by simp [collectSlices], by simp [collectSlices], by simp⟩
  | append_singleton scanned conceptId ih =>
    rw [pairwise_append] at hsorted
    have hless : ∀ earlier ∈ scanned, earlier < conceptId := fun earlier hearlier =>
      hsorted.2.2 earlier hearlier conceptId mem_cons_self
    have hbefore := ih (fun _ h => hsubset (mem_append_left _ h)) hsorted.1
    obtain ⟨hhits, hslice⟩ := forwardSlice_exact edges conceptId
    obtain ⟨hnodup, hkept, hfrom, hall⟩ :=
      foldl_collectHit members (fun hit h => (hhits hit h).1) hbefore.nodup
    rw [collectSlices, foldl_append, foldl_cons]
    refine ⟨hnodup, ?_, ?_, ?_⟩
    · intro entry hentry
      rcases hfrom entry hentry with hold | ⟨hout, -⟩
      · exact hbefore.outside entry hold
      · exact hout
    · intro entry hentry
      rcases hfrom entry hentry with hold | ⟨hout, hnew, hit, hhit, rfl⟩
      · obtain ⟨⟨origin, horigin, hpath, hlength, hpos, hle, hat, hfirst⟩⟩ := hbefore.first entry hold
        refine ⟨origin, mem_append_left _ horigin, hpath, hlength, hpos, hle, hat, ?_⟩
        intro earlier hearlier hlt
        rcases mem_append.mp hearlier with hearlier | hearlier
        · exact hfirst earlier hearlier hlt
        · cases mem_singleton.mp hearlier
          exact absurd hlt (hless origin horigin).asymm
      · obtain ⟨hpos, hle, hpath, hlength, hat⟩ := hhits hit hhit
        refine ⟨conceptId, mem_append_right _ mem_cons_self, hpath, hlength, hpos, hle,
          hat, ?_⟩
        intro earlier hearlier hlt hnear
        rcases mem_append.mp hearlier with hearlier | hearlier
        · exact hnew (hbefore.all _ hout ⟨earlier, hearlier, hnear⟩)
        · exact absurd (mem_singleton.mp hearlier) hlt.ne
    · rintro x hout ⟨origin, horigin, n, hpos, hle, hway⟩
      rcases mem_append.mp horigin with horigin | horigin
      · exact map_subset _ hkept (hbefore.all x hout ⟨origin, horigin, n, hpos, hle, hway⟩)
      · cases mem_singleton.mp horigin
        have hne : x ≠ conceptId := by
          rintro rfl
          exact hout (hsubset (mem_append_right _ mem_cons_self))
        obtain ⟨hit, hhit, rfl⟩ := mem_map.mp (hslice x n hpos hle hway hne)
        exact hall hit hhit hout

theorem downstreamEntities_congr (h : ∀ x, x ∈ members ↔ x ∈ others) :
    downstreamEntities edges members = downstreamEntities edges others := by
  have hcollect : collectHit members = collectHit others := by
    funext collected hit
    simp only [collectHit, h]
  rw [downstreamEntities, downstreamEntities, collectSlices, collectSlices, hcollect,
    sortedSet_congr h]

theorem blastRadius_exact {γ σ : Type} (stateMachineCheck : γ → σ) (edges : List ImpactEdge)
    (cursor : Int) (members : List String) :
    let found := (ciaDownstreamScan edges cursor members).downstreamEntities
    (found.map DownstreamEntity.entityId).Nodup ∧
      (∀ x, x ∈ found.map DownstreamEntity.entityId ↔
        x ∉ members ∧ ∃ conceptId ∈ members, Near edges conceptId x) ∧
      (∀ entry ∈ found, FirstReached edges members entry) ∧
      ∀ others stateChanges, (∀ x, x ∈ members ↔ x ∈ others) →
        (ciaCascadeScan stateMachineCheck edges cursor others stateChanges).downstreamEntities =
          found := by
  intro found
  have hsorted : (sortedSet members).Pairwise (· < ·) :=
    ((pairwise_sortedSet members).and (nodup_sortedSet members)).imp fun h => lt_of_le_of_ne h.1 h.2
  have hcollected : Collected edges members (sortedSet members)
      (collectSlices edges members (sortedSet members)) :=
    collected_collectSlices members (fun _ h => mem_sortedSet.mp h) hsorted
  have hperm : found.Perm (collectSlices edges members (sortedSet members)) :=
    perm_insertionSort _ _
  refine ⟨?_, ?_, ?_, ?_⟩
  · exact (hperm.map _).nodup_iff.mpr hcollected.nodup
  · intro x
    rw [(hperm.map _).mem_iff]
    constructor
    · intro hx
      obtain ⟨entry, hentry, rfl⟩ := mem_map.mp hx
      obtain ⟨⟨origin, horigin, -, -, hpos, hle, hat, -⟩⟩ := hcollected.first entry hentry
      exact ⟨hcollected.outside entry hentry, origin, mem_sortedSet.mp horigin, _, hpos, hle, hat.1⟩
    · rintro ⟨hout, origin, horigin, hnear⟩
      exact hcollected.all x hout ⟨origin, mem_sortedSet.mpr horigin, hnear⟩
  · intro entry hentry
    obtain ⟨⟨origin, horigin, hpath, hlength, hpos, hle, hat, hfirst⟩⟩ :=
      hcollected.first entry (hperm.subset hentry)
    exact ⟨origin, mem_sortedSet.mp horigin, hpath, hlength, hpos, hle, hat,
      fun earlier hearlier => hfirst earlier (mem_sortedSet.mpr hearlier)⟩
  · intro others stateChanges hsame
    exact (downstreamEntities_congr hsame).symm

/-- A concept next to the last of two members and two edges away from the first. -/
def forkEdges : List ImpactEdge :=
  [⟨"a", "m", .concept, .str "dependency", "e-am"⟩, ⟨"m", "t", .concept, .str "dependency", "e-mt"⟩,
    ⟨"b", "t", .concept, .str "reference", "e-bt"⟩]

theorem blastRadius_fork :
    (⟨"t", "concept", 2, ["e-am", "e-mt"]⟩ : DownstreamEntity) ∈
        (ciaDownstreamScan forkEdges 4 ["a", "b"]).downstreamEntities ∧
      Way (SliceStep forkEdges) "b" 1 "t" := by
  refine ⟨by decide +kernel, "b", rfl, "e-bt", ⟨"b", "t", .concept, .str "reference", "e-bt"⟩, ?_⟩
  exact ⟨by simp [forkEdges], "reference", by decide, rfl, rfl, rfl, rfl, by decide, by decide, rfl⟩

end Flowness.Projection
