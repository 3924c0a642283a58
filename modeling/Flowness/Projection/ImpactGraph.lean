import Flowness.Library.LevelSearch
import Flowness.Library.Since
import Flowness.Projection.TaskGraph

/-!
The impact graph, derived from the edges of the concept graph and of the task graph, and the slices
of it around one entity.
-/

namespace Flowness.Projection

open List Library Schemas Ledger

inductive ImpactKind
  | concept
  | task
deriving DecidableEq

structure ImpactEdge where
  source : String
  target : String
  kind : ImpactKind
  edgeType : Json
  edgeId : String

inductive ImpactDirection
  | forward
  | backward

def impactGraphNormalizeFlipConceptEdgeTypes : List String := ["dependency", "reference"]

def edgeEnds (source target : Json) : Option (String × String) :=
  match source.text?, target.text? with
  | some source, some target => if source ≠ "" ∧ target ≠ "" then some (source, target) else none
  | _, _ => none

def conceptImpact (edge : ConceptEdge) : Option ImpactEdge :=
  (edgeEnds edge.sourceConceptId edge.targetConceptId).map fun ends =>
    let flipped := edge.edgeType ∈ impactGraphNormalizeFlipConceptEdgeTypes.map Json.str
    { source := if flipped then ends.2 else ends.1
      target := if flipped then ends.1 else ends.2
      kind := .concept
      edgeType := edge.edgeType
      edgeId := edge.edgeId }

def taskImpact (ident : DependencyIdent) : Option ImpactEdge :=
  (edgeEnds ident.sourceTaskId ident.targetTaskId).map fun ends =>
    { source := ends.1
      target := ends.2
      kind := .task
      edgeType := ident.dependencyType
      edgeId := "task:" ++ ends.1 ++ "->" ++ ends.2 }

/-- `_recompute_impact_graph`; `is_active` is read of concept edges only. -/
def recomputeImpactGraph (concepts : ConceptGraph) (tasks : TaskGraph) : List ImpactEdge :=
  (concepts.edges.filter (·.isActive)).filterMap conceptImpact ++
    tasks.edges.filterMap fun edge => taskImpact edge.ident

def impactGraph (records : List EventRecord) : List ImpactEdge :=
  recomputeImpactGraph (conceptGraph records) (taskGraph records)

/-- `adj.get(node, [])`. -/
def impactNeighbors (edges : List ImpactEdge) (direction : ImpactDirection) (node : String) :
    List String :=
  match direction with
  | .forward => (edges.filter (·.source = node)).map ImpactEdge.target
  | .backward => (edges.filter (·.target = node)).map ImpactEdge.source

def getImpactSlice (edges : List ImpactEdge) (entityId : String) (direction : ImpactDirection)
    (depth : Int) : List String :=
  LevelSearch.within (impactNeighbors edges direction) entityId depth.toNat

def addedConceptEdge (event : EventRecord) : Option String :=
  if event.eventType = .conceptEdgeAdded then
    (Json.lookup event.payload.afterState "edge_id").text?
  else none

def removesConceptEdge (event : EventRecord) (edgeId : String) : Prop :=
  event.eventType = .conceptEdgeRemoved ∧
    Json.lookup (event.payload.getD "before_state" .null).asDict "edge_id" = .str edgeId

/-- The edge of the first event that adds its id, where no later event removes it. -/
def LiveConceptEdge (records : List EventRecord) (edge : ConceptEdge) : Prop :=
  Since records
    (fun before event => addedConceptEdge event = some edge.edgeId ∧
      edge = conceptEdge event edge.edgeId ∧
      ∀ earlier ∈ before, addedConceptEdge earlier ≠ some edge.edgeId)
    fun event => removesConceptEdge event edge.edgeId

def addsTaskEdge (event : EventRecord) (ident : DependencyIdent) : Prop :=
  event.eventType = .taskDependencyEdgeAdded ∧ dependencyIdent event.payload.afterState = ident

def removesTaskEdge (event : EventRecord) (ident : DependencyIdent) : Prop :=
  event.eventType = .taskDependencyEdgeRemoved ∧
    dependencyIdent (event.payload.getD "before_state" .null).asDict = ident

def LiveTaskEdge (records : List EventRecord) (ident : DependencyIdent) : Prop :=
  Since records (fun _ event => addsTaskEdge event ident) fun event => removesTaskEdge event ident

theorem edges_reduceConceptGraph (graph : ConceptGraph) (event : EventRecord) :
    (reduceConceptGraph graph event).edges =
      match addedConceptEdge event with
      | some edgeId =>
        if edgeId ∈ graph.edges.map ConceptEdge.edgeId then graph.edges
        else graph.edges ++ [conceptEdge event edgeId]
      | none =>
        if event.eventType = .conceptEdgeRemoved then
          graph.edges.map (ConceptEdge.deactivate
            (Json.lookup (event.payload.getD "before_state" .null).asDict "edge_id"))
        else graph.edges := by
  have hchanges : ∀ (changes : List (Dict String Json)) (graph : ConceptGraph),
      (changes.foldl (applyProposedChange event) graph).edges = graph.edges := by
    intro changes
    induction changes with
    | nil => exact fun graph => rfl
    | cons change changes ih =>
      intro graph
      rw [foldl_cons, ih]
      unfold applyProposedChange
      split
      · rfl
      · rfl
  cases htype : event.eventType
  case conceptEdgeAdded =>
    simp only [reduceConceptGraph, addedConceptEdge, htype]
    cases (Json.lookup event.payload.afterState "edge_id").text? with
    | none => rfl
    | some edgeId =>
      by_cases hknown : edgeId ∈ graph.edges.map ConceptEdge.edgeId
      · simp [hknown]
      · simp [hknown]
  case conceptGraphProposal =>
    simp only [reduceConceptGraph, addedConceptEdge, htype]
    exact hchanges _ _
  case conceptCreated =>
    simp only [reduceConceptGraph, addedConceptEdge, htype]
    split
    · split
      · rfl
      · rfl
    · rfl
  all_goals simp [reduceConceptGraph, addedConceptEdge, htype]

structure HoldsConceptEdges (records : List EventRecord) (edges : List ConceptEdge) : Prop where
  nodup : (edges.map ConceptEdge.edgeId).Nodup
  known : ∀ edgeId, edgeId ∈ edges.map ConceptEdge.edgeId ↔
    ∃ event ∈ records, addedConceptEdge event = some edgeId
  live : ∀ edge, edge ∈ edges ∧ edge.isActive = true ↔ LiveConceptEdge records edge

theorem edgeIds_deactivate (removed : Json) (edges : List ConceptEdge) :
    (edges.map (ConceptEdge.deactivate removed)).map ConceptEdge.edgeId =
      edges.map ConceptEdge.edgeId := by
  rw [map_map]
  refine map_congr_left fun edge _ => ?_
  rw [Function.comp_apply, ConceptEdge.deactivate]
  split
  · rfl
  · rfl

theorem active_deactivate {edges : List ConceptEdge} :
    edge ∈ edges.map (ConceptEdge.deactivate removed) ∧ edge.isActive = true ↔
      (edge ∈ edges ∧ edge.isActive = true) ∧ removed ≠ .str edge.edgeId := by
  constructor
  · intro h
    obtain ⟨hmem, hactive⟩ := h
    obtain ⟨before, hbefore, rfl⟩ := mem_map.mp hmem
    by_cases hid : Json.str before.edgeId = removed
    · rw [ConceptEdge.deactivate, if_pos hid] at hactive
      simp at hactive
    · rw [ConceptEdge.deactivate, if_neg hid] at hactive ⊢
      exact ⟨⟨hbefore, hactive⟩, Ne.symm hid⟩
  · intro h
    obtain ⟨⟨hmem, hactive⟩, hid⟩ := h
    exact ⟨mem_map.mpr ⟨edge, hmem, if_neg hid.symm⟩, hactive⟩

variable {ident other : DependencyIdent} {edges : List DependencyEdge} {records : List EventRecord}

theorem liveConceptEdge_snoc : LiveConceptEdge (records ++ [event]) edge ↔
      LiveConceptEdge records edge ∧ ¬removesConceptEdge event edge.edgeId ∨
        addedConceptEdge event = some edge.edgeId ∧ edge = conceptEdge event edge.edgeId ∧
          ∀ earlier ∈ records, addedConceptEdge earlier ≠ some edge.edgeId :=
  since_snoc

theorem HoldsConceptEdges.step (h : HoldsConceptEdges records graph.edges) (event : EventRecord) :
    HoldsConceptEdges (records ++ [event]) (reduceConceptGraph graph event).edges := by
  have hknown : ∀ edgeId, (∃ earlier ∈ records ++ [event], addedConceptEdge earlier = some edgeId) ↔
      edgeId ∈ graph.edges.map ConceptEdge.edgeId ∨ addedConceptEdge event = some edgeId := by
    intro edgeId
    rw [h.known]
    simp
  rw [edges_reduceConceptGraph]
  split
  next edgeId hadds =>
    have hkept : ∀ other, ¬removesConceptEdge event other := by
      intro other hremoves
      rw [addedConceptEdge, if_neg (by rw [hremoves.1]; decide)] at hadds
      contradiction
    split
    next hold =>
      refine ⟨h.nodup, fun other => ?_, fun edge => ?_⟩
      · rw [hknown, hadds]
        exact ⟨.inl, fun hother => hother.elim id fun heq => Option.some.inj heq ▸ hold⟩
      · rw [h.live, liveConceptEdge_snoc, hadds]
        refine ⟨fun hlive => .inl ⟨hlive, hkept _⟩, fun hlive => ?_⟩
        rcases hlive with ⟨hlive, -⟩ | ⟨hid, -, hfirst⟩
        · exact hlive
        · obtain ⟨earlier, hmem, hearlier⟩ := (h.known edgeId).mp hold
          exact absurd (hearlier.trans hid) (hfirst earlier hmem)
    next hnew =>
      refine ⟨?_, fun other => ?_, fun edge => ?_⟩
      · rw [map_append, nodup_append]
        refine ⟨h.nodup, nodup_singleton _, fun x hx y hy heq => ?_⟩
        rw [mem_singleton.mp hy] at heq
        have hsame : x = edgeId := heq
        exact hnew (hsame ▸ hx)
      · rw [hknown, hadds, map_append, mem_append, Option.some_inj]
        exact or_congr_right (mem_singleton.trans eq_comm)
      · rw [liveConceptEdge_snoc, ← h.live, mem_append, mem_singleton, hadds]
        constructor
        · intro hmem
          obtain ⟨hmem | rfl, hactive⟩ := hmem
          · exact .inl ⟨⟨hmem, hactive⟩, hkept _⟩
          · refine .inr ⟨rfl, rfl, fun earlier hearlier heq => hnew ?_⟩
            exact (h.known edgeId).mpr ⟨earlier, hearlier, heq⟩
        · intro hlive
          rcases hlive with ⟨⟨hmem, hactive⟩, -⟩ | ⟨hid, hedge, -⟩
          · exact ⟨.inl hmem, hactive⟩
          · cases hid
            exact ⟨.inr hedge, by rw [hedge]; rfl⟩
  next hadds =>
    have hnone : ∀ edgeId, addedConceptEdge event = some edgeId → False := by
      intro edgeId hid
      rw [hadds] at hid
      contradiction
    split
    next htype =>
      refine ⟨?_, fun other => ?_, fun edge => ?_⟩
      · rw [edgeIds_deactivate]
        exact h.nodup
      · rw [edgeIds_deactivate, hknown]
        exact ⟨.inl, fun hother => hother.resolve_right (hnone other)⟩
      · rw [active_deactivate, h.live, liveConceptEdge_snoc]
        constructor
        · intro hlive
          exact .inl ⟨hlive.1, fun hremoves => hlive.2 hremoves.2⟩
        · intro hlive
          rcases hlive with ⟨hlive, hkept⟩ | ⟨hid, -⟩
          · exact ⟨hlive, fun hremoved => hkept ⟨htype, hremoved⟩⟩
          · exact absurd hid (hnone _)
    next htype =>
      refine ⟨h.nodup, fun other => ?_, fun edge => ?_⟩
      · rw [hknown]
        exact ⟨.inl, fun hother => hother.resolve_right (hnone other)⟩
      · rw [h.live, liveConceptEdge_snoc]
        constructor
        · intro hlive
          exact .inl ⟨hlive, fun hremoves => htype hremoves.1⟩
        · intro hlive
          rcases hlive with ⟨hlive, -⟩ | ⟨hid, -⟩
          · exact hlive
          · exact absurd hid (hnone _)

theorem holdsConceptEdges (records : List EventRecord) :
    HoldsConceptEdges records (conceptGraph records).edges := by
  induction records using List.reverseRecOn with
  | nil =>
    refine ⟨nodup_nil, by simp [conceptGraph], fun edge => ?_⟩
    simp [conceptGraph, LiveConceptEdge, since_nil]
  | append_singleton records event ih =>
    rw [conceptGraph, foldl_append]
    exact ih.step event

structure HoldsTaskEdges (records : List EventRecord) (edges : List DependencyEdge) : Prop where
  nodup : (edges.map DependencyEdge.ident).Nodup
  known : ∀ ident, ident ∈ edges.map DependencyEdge.ident ↔ ∃ event ∈ records, addsTaskEdge event ident
  live : ∀ ident, (⟨ident, true⟩ : DependencyEdge) ∈ edges ↔ LiveTaskEdge records ident

theorem idents_addDependency (edges : List DependencyEdge) (ident : DependencyIdent) :
    (addDependency edges ident).map DependencyEdge.ident =
      if ident ∈ edges.map DependencyEdge.ident then edges.map DependencyEdge.ident
      else edges.map DependencyEdge.ident ++ [ident] := by
  induction edges with
  | nil => rfl
  | cons edge edges ih =>
    unfold addDependency
    split
    next heq =>
      simp [heq]
    next hne =>
      rw [map_cons, ih]
      have hmem : ident ∈ (edge :: edges).map DependencyEdge.ident ↔
          ident ∈ edges.map DependencyEdge.ident := by
        rw [map_cons, mem_cons]
        exact or_iff_right (Ne.symm hne)
      simp only [hmem]
      split
      · rfl
      · rfl

theorem active_addDependency :
    (⟨other, true⟩ : DependencyEdge) ∈ addDependency edges ident ↔
      (⟨other, true⟩ : DependencyEdge) ∈ edges ∨ other = ident := by
  induction edges with
  | nil => simp [addDependency]
  | cons edge edges ih =>
    obtain ⟨own, active⟩ := edge
    unfold addDependency
    split
    next heq =>
      subst heq
      simp only [mem_cons, DependencyEdge.mk.injEq]
      tauto
    · rw [mem_cons, ih, mem_cons]
      tauto

theorem idents_deactivate (ident : DependencyIdent) (edges : List DependencyEdge) :
    (edges.map (·.deactivate ident)).map DependencyEdge.ident = edges.map DependencyEdge.ident := by
  rw [map_map]
  refine map_congr_left fun edge _ => ?_
  rw [Function.comp_apply, DependencyEdge.deactivate]
  split
  · rfl
  · rfl

theorem active_deactivateTask :
    (⟨other, true⟩ : DependencyEdge) ∈ edges.map (·.deactivate ident) ↔
      (⟨other, true⟩ : DependencyEdge) ∈ edges ∧ ident ≠ other := by
  constructor
  · intro h
    obtain ⟨before, hbefore, heq⟩ := mem_map.mp h
    by_cases hid : before.ident = ident
    · rw [DependencyEdge.deactivate, if_pos hid] at heq
      simp at heq
    · rw [DependencyEdge.deactivate, if_neg hid] at heq
      subst heq
      exact ⟨hbefore, Ne.symm hid⟩
  · intro h
    exact mem_map.mpr ⟨_, h.1, if_neg h.2.symm⟩

theorem edges_reduceTaskGraph (graph : TaskGraph) (event : EventRecord) :
    (reduceTaskGraph graph event).edges =
      if event.eventType = .taskDependencyEdgeAdded then
        addDependency graph.edges (dependencyIdent event.payload.afterState)
      else if event.eventType = .taskDependencyEdgeRemoved then
        graph.edges.map (·.deactivate
          (dependencyIdent (event.payload.getD "before_state" .null).asDict))
      else graph.edges := by
  unfold reduceTaskGraph
  split
  next htype =>
    simp only [htype]
    split
    · split
      · rfl
      · rfl
    · rfl
  next htype =>
    simp [htype]
  next htype =>
    simp [htype]
  next hadded hremoved =>
    split
    · rfl
    · rfl

theorem HoldsTaskEdges.step (h : HoldsTaskEdges records graph.edges) (event : EventRecord) :
    HoldsTaskEdges (records ++ [event]) (reduceTaskGraph graph event).edges := by
  have hknown : ∀ ident, (∃ earlier ∈ records ++ [event], addsTaskEdge earlier ident) ↔
      ident ∈ graph.edges.map DependencyEdge.ident ∨ addsTaskEdge event ident := by
    intro ident
    rw [h.known]
    simp
  have hlive : ∀ ident, LiveTaskEdge (records ++ [event]) ident ↔
      LiveTaskEdge records ident ∧ ¬removesTaskEdge event ident ∨ addsTaskEdge event ident := fun ident =>
    since_snoc
  rw [edges_reduceTaskGraph]
  split
  next htype =>
    have hadds : ∀ ident, addsTaskEdge event ident ↔
        ident = dependencyIdent event.payload.afterState := fun ident => by
      simp [addsTaskEdge, htype, eq_comm]
    have hkept : ∀ ident, ¬removesTaskEdge event ident := fun ident hremoves =>
      absurd (htype.symm.trans hremoves.1) (by decide)
    refine ⟨?_, fun ident => ?_, fun ident => ?_⟩
    · rw [idents_addDependency]
      split
      · exact h.nodup
      next hnew =>
        rw [nodup_append]
        refine ⟨h.nodup, nodup_singleton _, fun x hx y hy heq => ?_⟩
        rw [mem_singleton.mp hy] at heq
        exact hnew (heq ▸ hx)
    · rw [hknown, hadds, idents_addDependency]
      split
      next hold =>
        exact ⟨.inl, fun hor => hor.elim id fun heq => heq ▸ hold⟩
      · rw [mem_append, mem_singleton]
    · rw [active_addDependency, h.live, hlive, hadds]
      simp [hkept]
  next hadded =>
    have hnone : ∀ ident, ¬addsTaskEdge event ident := fun ident hadds => hadded hadds.1
    split
    next htype =>
      refine ⟨?_, fun ident => ?_, fun ident => ?_⟩
      · rw [idents_deactivate]
        exact h.nodup
      · rw [idents_deactivate, hknown]
        simp [hnone]
      · rw [active_deactivateTask, h.live, hlive]
        simp [hnone, removesTaskEdge, htype]
    next hremoved =>
      refine ⟨h.nodup, fun ident => ?_, fun ident => ?_⟩
      · rw [hknown]
        simp [hnone]
      · rw [h.live, hlive]
        simp [hnone, removesTaskEdge, hremoved]

theorem holdsTaskEdges (records : List EventRecord) :
    HoldsTaskEdges records (taskGraph records).edges := by
  induction records using List.reverseRecOn with
  | nil =>
    refine ⟨nodup_nil, by simp [taskGraph], fun ident => ?_⟩
    simp [taskGraph, LiveTaskEdge, since_nil]
  | append_singleton records event ih =>
    rw [taskGraph, foldl_append]
    exact ih.step event

def LiveImpact (records : List EventRecord) (impact : ImpactEdge) : Prop :=
  (∃ edge, LiveConceptEdge records edge ∧ conceptImpact edge = some impact) ∨
    ∃ ident, LiveTaskEdge records ident ∧ taskImpact ident = some impact

def LiveStep (records : List EventRecord) (direction : ImpactDirection) (a b : String) : Prop :=
  ∃ impact, LiveImpact records impact ∧
    match direction with
    | .forward => impact.source = a ∧ impact.target = b
    | .backward => impact.target = a ∧ impact.source = b

/-- The impact graph has one edge for each live edge, and slices are cut along the live edges. -/
structure FollowsLiveEdges (records : List EventRecord) : Prop where
  edges : ∃ concepts : List ConceptEdge, ∃ tasks : List DependencyIdent,
    (concepts.map ConceptEdge.edgeId).Nodup ∧
    (∀ edge, edge ∈ concepts ↔ LiveConceptEdge records edge) ∧
    tasks.Nodup ∧ (∀ ident, ident ∈ tasks ↔ LiveTaskEdge records ident) ∧
    ((impactGraph records).map some).Perm (concepts.map conceptImpact ++ tasks.map taskImpact)
  slices : ∀ entityId direction depth,
    (getImpactSlice (impactGraph records) entityId direction depth).Nodup ∧
    entityId ∉ getImpactSlice (impactGraph records) entityId direction depth ∧
    ∀ x, x ∈ getImpactSlice (impactGraph records) entityId direction depth ↔
      ∃ n : Nat, 1 ≤ n ∧ n ≤ depth ∧ LevelSearch.AtDistance (LiveStep records direction) entityId n x

/-- Live edges have two ends, and a task edge that was removed for good has not. -/
structure EndsFollowLife (records : List EventRecord) : Prop where
  concepts : ∀ edge, LiveConceptEdge records edge →
    (edgeEnds edge.sourceConceptId edge.targetConceptId).isSome
  tasks : ∀ ident, (∃ event ∈ records, addsTaskEdge event ident) →
    ((edgeEnds ident.sourceTaskId ident.targetTaskId).isSome ↔ LiveTaskEdge records ident)

theorem eq_str_of_text? {value : Json} {text : String} (h : value.text? = some text) :
    value = .str text := by
  cases value
  case str s => rw [Option.some.inj h]
  all_goals contradiction

theorem taskImpact_inj (h : taskImpact ident = some impact)
    (hother : taskImpact other = some impact) : ident = other := by
  have hends : ∀ {source target : Json} {ends}, edgeEnds source target = some ends →
      source = .str ends.1 ∧ target = .str ends.2 := by
    intro source target ends hsome
    unfold edgeEnds at hsome
    split at hsome
    next s t hsource htarget =>
      obtain ⟨-, hpair⟩ := Option.ite_none_right_eq_some.mp hsome
      cases hpair
      exact ⟨eq_str_of_text? hsource, eq_str_of_text? htarget⟩
    · contradiction
  obtain ⟨ends, hends1, rfl⟩ := Option.map_eq_some_iff.mp h
  obtain ⟨ends', hends2, heq⟩ := Option.map_eq_some_iff.mp hother
  obtain ⟨hsource, htarget⟩ := hends hends1
  obtain ⟨hsource', htarget'⟩ := hends hends2
  obtain ⟨source, target, type⟩ := ident
  obtain ⟨source', target', type'⟩ := other
  simp_all

theorem isSome_conceptImpact (edge : ConceptEdge) :
    (conceptImpact edge).isSome = (edgeEnds edge.sourceConceptId edge.targetConceptId).isSome :=
  Option.isSome_map

theorem isSome_taskImpact (ident : DependencyIdent) :
    (taskImpact ident).isSome = (edgeEnds ident.sourceTaskId ident.targetTaskId).isSome :=
  Option.isSome_map

theorem map_some_filterMap {α β : Type} {f : α → Option β} {l : List α}
    (h : ∀ x ∈ l, (f x).isSome) : (l.filterMap f).map some = l.map f := by
  induction l with
  | nil => rfl
  | cons x l ih =>
    obtain ⟨y, hy⟩ := Option.isSome_iff_exists.mp (h x mem_cons_self)
    rw [filterMap_cons_some hy, map_cons, map_cons, hy,
      ih fun z hz => h z (mem_cons_of_mem _ hz)]

def activeIdents (edges : List DependencyEdge) : List DependencyIdent :=
  (edges.filter (·.isActive)).map DependencyEdge.ident

theorem mem_activeIdents :
    ident ∈ activeIdents edges ↔ (⟨ident, true⟩ : DependencyEdge) ∈ edges := by
  unfold activeIdents
  rw [mem_map]
  constructor
  · intro h
    obtain ⟨⟨own, active⟩, hmem, rfl⟩ := h
    obtain ⟨hmem, hactive⟩ := mem_filter.mp hmem
    dsimp only at hactive
    rwa [hactive] at hmem
  · intro h
    exact ⟨⟨ident, true⟩, mem_filter.mpr ⟨h, rfl⟩, rfl⟩

theorem EndsFollowLife.map_some (h : EndsFollowLife records) :
    (impactGraph records).map some =
      ((conceptGraph records).edges.filter (·.isActive)).map conceptImpact ++
        (activeIdents (taskGraph records).edges).map taskImpact := by
  have htasks := holdsTaskEdges records
  have hknown : ∀ edge ∈ (taskGraph records).edges, ∃ event ∈ records, addsTaskEdge event edge.ident :=
    fun edge hedge => (htasks.known edge.ident).mp (mem_map_of_mem hedge)
  have hactive : (taskGraph records).edges.filterMap (fun edge => taskImpact edge.ident) =
      (activeIdents (taskGraph records).edges).filterMap taskImpact := by
    rw [activeIdents, filterMap_map, filterMap_filter]
    refine filterMap_congr fun edge hedge => ?_
    split
    · rfl
    next hactive =>
      refine Option.not_isSome_iff_eq_none.mp fun hsome => hactive ?_
      rw [isSome_taskImpact] at hsome
      have hlive := (htasks.live _).mpr ((h.tasks _ (hknown edge hedge)).mp hsome)
      exact congrArg DependencyEdge.isActive
        (inj_on_of_nodup_map htasks.nodup hedge hlive rfl)
  rw [impactGraph, recomputeImpactGraph, map_append, hactive, map_some_filterMap,
    map_some_filterMap]
  · intro ident hident
    have hmem := mem_activeIdents.mp hident
    rw [isSome_taskImpact]
    exact (h.tasks _ (hknown _ hmem)).mpr ((htasks.live _).mp hmem)
  · intro edge hedge
    rw [isSome_conceptImpact]
    exact h.concepts edge (((holdsConceptEdges records).live edge).mp (mem_filter.mp hedge))

theorem EndsFollowLife.mem_impactGraph (h : EndsFollowLife records) (impact : ImpactEdge) :
    impact ∈ impactGraph records ↔ LiveImpact records impact := by
  have hsome : impact ∈ impactGraph records ↔ some impact ∈ (impactGraph records).map some := by
    simp
  rw [hsome, h.map_some, mem_append, mem_map, mem_map, LiveImpact]
  simp only [mem_filter, (holdsConceptEdges records).live, mem_activeIdents,
    (holdsTaskEdges records).live]

theorem mem_impactNeighbors {edges : List ImpactEdge} :
    b ∈ impactNeighbors edges direction a ↔ ∃ impact ∈ edges,
      match direction with
      | .forward => impact.source = a ∧ impact.target = b
      | .backward => impact.target = a ∧ impact.source = b := by
  cases direction
  all_goals simp [impactNeighbors, and_assoc]

/-- The impact graph and its slices follow the live edges exactly as long as every live edge has two
ends and no task edge that was removed for good has them. -/
theorem followsLiveEdges_iff (records : List EventRecord) :
    FollowsLiveEdges records ↔ EndsFollowLife records := by
  constructor
  · intro h
    obtain ⟨concepts, tasks, -, hconcepts, -, htasks, hperm⟩ := h.edges
    have hsome : ∀ impact, impact ∈ concepts.map conceptImpact ++ tasks.map taskImpact →
        ∃ edge ∈ impactGraph records, some edge = impact := fun impact hmem =>
      mem_map.mp (hperm.mem_iff.mpr hmem)
    refine ⟨fun edge hlive => ?_, fun ident hadded => ⟨fun hends => ?_, fun hlive => ?_⟩⟩
    · obtain ⟨impact, -, hedge⟩ := hsome (conceptImpact edge)
        (mem_append_left _ (mem_map_of_mem ((hconcepts edge).mpr hlive)))
      rw [← isSome_conceptImpact, ← hedge]
      rfl
    · rw [← isSome_taskImpact] at hends
      obtain ⟨impact, himpact⟩ := Option.isSome_iff_exists.mp hends
      obtain ⟨edge, hedge, hident⟩ := mem_map.mp (((holdsTaskEdges records).known ident).mpr hadded)
      have hmem : impact ∈ impactGraph records :=
        mem_append_right _ (mem_filterMap.mpr ⟨edge, hedge, by rw [hident]; exact himpact⟩)
      have hlive := hperm.mem_iff.mp (mem_map_of_mem (f := some) hmem)
      rcases mem_append.mp hlive with hconcept | htask
      · obtain ⟨concept, -, hconcept⟩ := mem_map.mp hconcept
        obtain ⟨ends, -, hends⟩ := Option.map_eq_some_iff.mp hconcept
        obtain ⟨ends', -, hends'⟩ := Option.map_eq_some_iff.mp himpact
        have hkind := congrArg ImpactEdge.kind (hends.trans hends'.symm)
        contradiction
      · obtain ⟨other, hother, heq⟩ := mem_map.mp htask
        rw [taskImpact_inj himpact heq]
        exact (htasks other).mp hother
    · obtain ⟨impact, -, hedge⟩ := hsome (taskImpact ident)
        (mem_append_right _ (mem_map_of_mem ((htasks ident).mpr hlive)))
      rw [← isSome_taskImpact, ← hedge]
      rfl
  · intro h
    refine ⟨?_, fun entityId direction depth => ?_⟩
    · refine ⟨(conceptGraph records).edges.filter (·.isActive), activeIdents (taskGraph records).edges,
        ?_, fun edge => ?_, ?_, fun ident => ?_, ?_⟩
      · exact (holdsConceptEdges records).nodup.sublist (filter_sublist.map _)
      · rw [mem_filter, (holdsConceptEdges records).live]
      · exact (holdsTaskEdges records).nodup.sublist (filter_sublist.map _)
      · rw [mem_activeIdents, (holdsTaskEdges records).live]
      · rw [h.map_some]
    · have hstep : (fun a b => b ∈ impactNeighbors (impactGraph records) direction a) =
          LiveStep records direction := by
        funext a b
        rw [mem_impactNeighbors, LiveStep]
        simp only [h.mem_impactGraph]
      refine ⟨LevelSearch.within_nodup _ _ _, LevelSearch.start_not_mem_within, fun x => ?_⟩
      rw [getImpactSlice, LevelSearch.mem_within, hstep]
      refine exists_congr fun n => and_congr_right fun hpos => and_congr_left fun _ => ?_
      omega

def taskEdgeEvent (eventType : EventType) (state : String) (sequenceNumber : Nat) : EventRecord :=
  { sampleRecord with
    eventType, sequenceNumber
    payload := ⟨[(state, .obj [("source_task_id", .str "t-1"), ("target_task_id", .str "t-2"),
      ("dependency_type", .str "hard")])], rfl⟩ }

/-- The edge of a removed dependency stays in the impact graph. -/
theorem removed_dependency_stays :
    ¬FollowsLiveEdges [taskEdgeEvent .taskDependencyEdgeAdded "after_state" 1,
      taskEdgeEvent .taskDependencyEdgeRemoved "before_state" 2] := by
  intro h
  obtain ⟨concepts, tasks, -, hconcepts, -, htasks, hperm⟩ := h.edges
  generalize hrecords : [taskEdgeEvent .taskDependencyEdgeAdded "after_state" 1,
    taskEdgeEvent .taskDependencyEdgeRemoved "before_state" 2] = records at hconcepts htasks hperm
  have hone : (impactGraph records).length = 1 := by
    rw [← hrecords]
    decide +kernel
  have hno : (conceptGraph records).edges.length = 0 := by
    rw [← hrecords]
    decide +kernel
  have hdead : ∀ edge ∈ (taskGraph records).edges, edge.isActive = false := by
    rw [← hrecords]
    decide +kernel
  have hconcepts' : concepts = [] := by
    refine eq_nil_iff_forall_not_mem.mpr fun edge hmem => ?_
    have hedge := (((holdsConceptEdges records).live edge).mpr ((hconcepts edge).mp hmem)).1
    rw [length_eq_zero_iff.mp hno] at hedge
    contradiction
  have htasks' : tasks = [] := by
    refine eq_nil_iff_forall_not_mem.mpr fun ident hmem => ?_
    have hactive := hdead _ (((holdsTaskEdges records).live ident).mpr ((htasks ident).mp hmem))
    contradiction
  have hlength := hperm.length_eq
  rw [hconcepts', htasks', length_map, hone] at hlength
  contradiction

end Flowness.Projection
