import Mathlib.Data.Finset.Card
import Mathlib.Data.List.Dedup
import Mathlib.Data.String.Basic
import Flowness.Library.StackSearch
import Flowness.Library.UnionFind

/-!
The coupling back-fill of the concept graph: association edges are oriented by creation order and
added as long as they close no cycle.
-/

namespace Flowness.Projection

open List Library Dict

section

variable {α : Type} [DecidableEq α]

/-- One edge of the loop over `edges`; an edge with an unknown end and a loop are left out. -/
def connect (parent : UnionFind.Parents α) (edge : α × α) : UnionFind.Parents α :=
  if Dict.contains parent edge.1 ∧ Dict.contains parent edge.2 ∧ edge.1 ≠ edge.2 then
    UnionFind.union parent edge.1 edge.2
  else parent

/-- `sizes[find(n)] += 1`. -/
def tally (counted : UnionFind.Parents α × Dict α Nat) (node : α) :
    UnionFind.Parents α × Dict α Nat :=
  let (root, parent) := UnionFind.find counted.1 node
  (parent, Dict.set counted.2 root ((Dict.get counted.2 root).getD 0 + 1))

def singletons (nodes : List α) : UnionFind.Parents α :=
  nodes.foldl (fun parent node => Dict.set parent node node) []

/-- `graph_connectivity`: the number of components and of isolated nodes. -/
def graphConnectivity (nodes : List α) (edges : List (α × α)) : Nat × Nat :=
  let sizes := (nodes.foldl tally (edges.foldl connect (singletons nodes), [])).2
  (sizes.length, (sizes.filter (·.2 = 1)).length)

end

section

variable {κ σ : Type} [DecidableEq κ] [LE κ] [DecidableLE κ]

/-- `(order_key(a), a) <= (order_key(b), b)`. -/
def precedes (orderKey : String → κ) (a b : String) : Bool :=
  if orderKey a = orderKey b then a ≤ b else orderKey a ≤ orderKey b

def orient (orderKey : String → κ) (a b : String) : String × String :=
  if precedes orderKey a b then (a, b) else (b, a)

def knownEdges (nodes : List String) (activeEdges : List (String × String)) :
    List (String × String) :=
  activeEdges.filter fun edge => edge.1 ∈ nodes ∧ edge.2 ∈ nodes ∧ edge.1 ≠ edge.2

/-- `adj[x]`. -/
def successors (edges : List (String × String)) (x : String) : List String :=
  (edges.filter (·.1 = x)).map Prod.snd

local instance pairLawful : LawfulBEq (String × String) := Prod.instLawfulBEq

/-- `frozenset((a, b)) in linked`. -/
def linked (edges : List (String × String)) (a b : String) : Bool :=
  (a, b) ∈ edges || (b, a) ∈ edges

def directed (added : List (String × String × σ)) : List (String × String) :=
  added.map fun edge => (edge.1, edge.2.1)

def backfillStep (nodes : List String) (active : List (String × String)) (orderKey : String → κ)
    (added : List (String × String × σ)) (association : String × String × σ) :
    List (String × String × σ) :=
  let (a, b, strength) := association
  let edges := active ++ directed added
  if a ∉ nodes ∨ b ∉ nodes ∨ a = b then added
  else if linked edges a b then added
  else
    let (u, v) := orient orderKey a b
    if StackSearch.reaches (successors edges) nodes v u then added
    else added ++ [(u, v, strength)]

def backfillCouplingEdgesIntoDag (nodes : List String) (activeEdges : List (String × String))
    (associations : List (String × String × σ)) (orderKey : String → κ) :
    List (String × String × σ) :=
  associations.foldl (backfillStep nodes (knownEdges nodes activeEdges) orderKey) []

/-- What `derive_coupling_backfill` returns, with the associations the miner found. -/
structure CouplingBackfillResult (σ : Type) where
  newEdges : List (String × String × σ)
  associationEdgeCount : Nat
  componentsBefore : Nat
  componentsAfter : Nat
  isolatedBefore : Nat
  isolatedAfter : Nat

def deriveCouplingBackfill (nodes : List String) (activeEdges : List (String × String))
    (associations : List (String × String × σ)) (orderKey : String → κ) :
    CouplingBackfillResult σ :=
  let newEdges := backfillCouplingEdgesIntoDag nodes activeEdges associations orderKey
  let before := graphConnectivity nodes activeEdges
  let after := graphConnectivity nodes (activeEdges ++ directed newEdges)
  { newEdges
    associationEdgeCount := associations.length
    componentsBefore := before.1
    componentsAfter := after.1
    isolatedBefore := before.2
    isolatedAfter := after.2 }

end

section

variable {α : Type} [DecidableEq α]

def classes (nodes : List α) (root : α → α) : Finset α := (nodes.map root).toFinset

def lonely (nodes : List α) (root : α → α) : Finset α :=
  (classes nodes root).filter fun r => (nodes.map root).count r = 1

section

variable {nodes : List α} {root after : α → α} {join : α → α}
    (h : ∀ x ∈ nodes, after x = join (root x))
include h

theorem card_classes_le : (classes nodes after).card ≤ (classes nodes root).card := by
  have himage : classes nodes after ⊆ (classes nodes root).image join := by
    intro r hr
    obtain ⟨x, hx, rfl⟩ := mem_map.mp (mem_toFinset.mp hr)
    exact Finset.mem_image.mpr ⟨root x, mem_toFinset.mpr (mem_map_of_mem hx), (h x hx).symm⟩
  exact (Finset.card_le_card himage).trans Finset.card_image_le

theorem card_lonely_le : (lonely nodes after).card ≤ (lonely nodes root).card := by
  have himage : lonely nodes after ⊆ (lonely nodes root).image join := by
    intro r hr
    obtain ⟨hclass, hcount⟩ := Finset.mem_filter.mp hr
    obtain ⟨x, hx, rfl⟩ := mem_map.mp (mem_toFinset.mp hclass)
    have hmem := mem_map_of_mem (f := root) hx
    refine Finset.mem_image.mpr ⟨root x, Finset.mem_filter.mpr ⟨mem_toFinset.mpr hmem, ?_⟩,
      (h x hx).symm⟩
    have hle : (nodes.map root).count (root x) ≤ (nodes.map after).count (after x) := by
      rw [count_eq_countP, count_eq_countP, countP_map, countP_map]
      refine countP_mono_left fun y hy hsame => ?_
      have hroot : root y = root x := by simpa using hsame
      simp [h y hy, h x hx, hroot]
    have hpos := count_pos_iff.mpr hmem
    omega
  exact (Finset.card_le_card himage).trans Finset.card_image_le

end

theorem represents_singletons (nodes : List α) :
    UnionFind.Represents (singletons nodes) id ∧ ∀ x, x ∈ Dict.keys (singletons nodes) ↔ x ∈ nodes := by
  have hgrow : ∀ (more : List α) (parent : UnionFind.Parents α), UnionFind.Represents parent id →
      UnionFind.Represents (more.foldl (fun parent node => Dict.set parent node node) parent) id ∧
        ∀ x, x ∈ Dict.keys (more.foldl (fun parent node => Dict.set parent node node) parent) ↔
          x ∈ Dict.keys parent ∨ x ∈ more := by
    intro more
    induction more with
    | nil => exact fun parent h => ⟨h, by simp⟩
    | cons node more ih =>
      intro parent h
      have hnext : UnionFind.Represents (Dict.set parent node node) id := by
        refine ⟨nodup_keys_set h.nodup _ _, fun x _ => ⟨0, rfl⟩, fun x hx => ?_⟩
        by_cases hnode : x = node
        · rw [hnode]
          exact get_set_self _ _ _
        · rw [id, get_set_of_ne _ _ hnode]
          exact h.ends x ((Dict.mem_keys_set.mp hx).resolve_left hnode)
      obtain ⟨hrepresents, hkeys⟩ := ih _ hnext
      refine ⟨hrepresents, fun x => ?_⟩
      rw [foldl_cons, hkeys, mem_keys_set, mem_cons]
      tauto
  obtain ⟨hrepresents, hkeys⟩ := hgrow nodes [] ⟨nodup_nil, by simp [Dict.keys], by simp [Dict.keys]⟩
  exact ⟨hrepresents, fun x => by rw [singletons, hkeys]; simp [Dict.keys]⟩

theorem represents_connect {root : α → α} (h : UnionFind.Represents parent root)
    (edges : List (α × α)) :
    ∃ join : α → α, UnionFind.Represents (edges.foldl connect parent) (join ∘ root) ∧
      Dict.keys (edges.foldl connect parent) = Dict.keys parent := by
  induction edges generalizing parent root with
  | nil => exact ⟨id, h, rfl⟩
  | cons edge edges ih =>
    rw [foldl_cons]
    unfold connect
    split
    next hknown =>
      have hmem : ∀ x, Dict.contains parent x = true → x ∈ Dict.keys parent := fun x hx =>
        mem_keys_of_get (Option.isSome_iff_exists.mp hx).choose_spec
      obtain ⟨hunion, hkeys⟩ := h.union (hmem _ hknown.1) (hmem _ hknown.2.1)
      obtain ⟨join, hrepresents, hsame⟩ := ih hunion
      refine ⟨join ∘ fun r => if r = root edge.1 then root edge.2 else r, ?_, hsame.trans hkeys⟩
      exact hrepresents
    · exact ih h

theorem tally_spec {root : α → α} (nodes : List α) {parent : UnionFind.Parents α} {sizes : Dict α Nat}
    {seen : List α} (h : UnionFind.Represents parent root) (hnodes : ∀ x ∈ nodes, x ∈ Dict.keys parent)
    (hnodup : (Dict.keys sizes).Nodup) (hkeys : ∀ r, r ∈ Dict.keys sizes ↔ r ∈ seen.map root)
    (hsizes : ∀ r, (Dict.get sizes r).getD 0 = (seen.map root).count r) :
    (Dict.keys (nodes.foldl tally (parent, sizes)).2).Nodup ∧
      (∀ r, r ∈ Dict.keys (nodes.foldl tally (parent, sizes)).2 ↔ r ∈ (seen ++ nodes).map root) ∧
      ∀ r, (Dict.get (nodes.foldl tally (parent, sizes)).2 r).getD 0 =
        ((seen ++ nodes).map root).count r := by
  induction nodes generalizing parent sizes seen with
  | nil =>
    rw [append_nil]
    exact ⟨hnodup, hkeys, hsizes⟩
  | cons node nodes ih =>
    obtain ⟨hfind, hrepresents, hsame⟩ := h.find (hnodes node mem_cons_self)
    have htally : tally (parent, sizes) node = ((UnionFind.find parent node).2,
        Dict.set sizes (root node) ((Dict.get sizes (root node)).getD 0 + 1)) := by
      rw [← hfind]
      rfl
    have hsplit : seen ++ node :: nodes = seen ++ [node] ++ nodes := by simp
    rw [foldl_cons, htally, hsplit]
    refine ih hrepresents ?_ (nodup_keys_set hnodup _ _) ?_ ?_
    · intro x hx
      rw [hsame]
      exact hnodes x (mem_cons_of_mem _ hx)
    · intro r
      rw [mem_keys_set, hkeys, map_append]
      simp [or_comm]
    · intro r
      by_cases hr : r = root node
      · rw [hr, get_set_self, Option.getD_some, hsizes]
        simp
      · rw [get_set_of_ne _ _ hr, hsizes]
        simp [Ne.symm hr]

theorem graphConnectivity_eq {nodes : List α} {edges : List (α × α)} {root : α → α}
    (h : UnionFind.Represents (edges.foldl connect (singletons nodes)) root)
    (hkeys : ∀ x ∈ nodes, x ∈ Dict.keys (edges.foldl connect (singletons nodes))) :
    graphConnectivity nodes edges = ((classes nodes root).card, (lonely nodes root).card) := by
  obtain ⟨hnodup, hclasses, hsizes⟩ := @tally_spec _ _ root nodes _ [] [] h hkeys nodup_nil
    (by simp [Dict.keys]) (by simp)
  rw [nil_append] at hclasses hsizes
  unfold graphConnectivity
  generalize (nodes.foldl tally (edges.foldl connect (singletons nodes), [])).2 = sizes at *
  have hone : ∀ entry ∈ sizes, (nodes.map root).count entry.1 = entry.2 := by
    intro entry hentry
    rw [← hsizes, (mem_iff_get hnodup).mp hentry, Option.getD_some]
  refine Prod.ext ?_ ?_
  · have hsame : (Dict.keys sizes).toFinset = classes nodes root := by
      ext r
      rw [mem_toFinset, hclasses, classes, mem_toFinset]
    rw [← hsame, toFinset_card_of_nodup hnodup]
    exact (length_map _).symm
  · have hkept : (Dict.keys (sizes.filter (·.2 = 1))).toFinset = lonely nodes root := by
      ext r
      rw [mem_toFinset, lonely, Finset.mem_filter, classes, mem_toFinset, ← hclasses]
      constructor
      · intro hr
        obtain ⟨entry, hentry, rfl⟩ := mem_map.mp hr
        obtain ⟨hmem, hsize⟩ := mem_filter.mp hentry
        refine ⟨mem_map_of_mem hmem, ?_⟩
        rw [hone entry hmem]
        simpa using hsize
      · rintro ⟨hr, hcount⟩
        obtain ⟨entry, hmem, rfl⟩ := mem_map.mp hr
        refine mem_map_of_mem (mem_filter.mpr ⟨hmem, ?_⟩)
        rw [← hone entry hmem, hcount]
        rfl
    have hdistinct : (Dict.keys (sizes.filter (·.2 = 1))).Nodup :=
      hnodup.sublist (filter_sublist.map Prod.fst)
    rw [← hkept, toFinset_card_of_nodup hdistinct]
    exact (length_map _).symm

theorem graphConnectivity_append_le (nodes : List α) (edges more : List (α × α)) :
    (graphConnectivity nodes (edges ++ more)).1 ≤ (graphConnectivity nodes edges).1 ∧
      (graphConnectivity nodes (edges ++ more)).2 ≤ (graphConnectivity nodes edges).2 := by
  obtain ⟨hsingle, hnodes⟩ := represents_singletons nodes
  obtain ⟨first, hfirst, hkeys⟩ := represents_connect hsingle edges
  obtain ⟨second, hsecond, hkeys'⟩ := represents_connect hfirst more
  rw [← foldl_append] at hsecond hkeys'
  rw [graphConnectivity_eq hfirst fun x hx => by rw [hkeys]; exact (hnodes x).mpr hx,
    graphConnectivity_eq hsecond fun x hx => by rw [hkeys', hkeys]; exact (hnodes x).mpr hx]
  exact ⟨@card_classes_le _ _ nodes _ _ second fun _ _ => rfl,
    @card_lonely_le _ _ nodes _ _ second fun _ _ => rfl⟩

end

section

variable {α : Type}

def Acyclic (edges : List (α × α)) : Prop :=
  ∀ x, ¬Relation.TransGen (fun a b => (a, b) ∈ edges) x x

theorem Acyclic.of_rank (rank : α → Nat) (h : ∀ edge ∈ edges, rank edge.1 < rank edge.2) :
    Acyclic edges := by
  have hclimb : ∀ {a b}, Relation.TransGen (fun a b => (a, b) ∈ edges) a b → rank a < rank b := by
    intro a b hpath
    induction hpath with
    | single hedge => exact h _ hedge
    | tail _ hedge ih => exact ih.trans (h _ hedge)
  exact fun x hcycle => lt_irrefl _ (hclimb hcycle)

theorem way_snoc (h : Relation.TransGen (fun a b => (a, b) ∈ edges ++ [(u, v)]) a b) :
    Relation.TransGen (fun a b => (a, b) ∈ edges) a b ∨
      Relation.ReflTransGen (fun a b => (a, b) ∈ edges) a u ∧
        Relation.ReflTransGen (fun a b => (a, b) ∈ edges) v b := by
  have hlast : ∀ {x y}, (x, y) ∈ edges ++ [(u, v)] → (x, y) ∈ edges ∨ x = u ∧ y = v := by
    intro x y hedge
    simpa using hedge
  induction h with
  | single hedge =>
    rcases hlast hedge with hold | ⟨rfl, rfl⟩
    · exact .inl (.single hold)
    · exact .inr ⟨.refl, .refl⟩
  | tail _ hedge ih =>
    rcases hlast hedge with hold | ⟨rfl, rfl⟩
    · rcases ih with hway | ⟨hfrom, hto⟩
      · exact .inl (hway.tail hold)
      · exact .inr ⟨hfrom, hto.tail hold⟩
    · rcases ih with hway | ⟨hfrom, -⟩
      · exact .inr ⟨hway.to_reflTransGen, .refl⟩
      · exact .inr ⟨hfrom, .refl⟩

theorem acyclic_snoc_iff (h : Acyclic edges) (hne : u ≠ v) :
    Acyclic (edges ++ [(u, v)]) ↔ ¬Relation.TransGen (fun a b => (a, b) ∈ edges) v u := by
  constructor
  · intro hafter hway
    have hback : Relation.TransGen (fun a b => (a, b) ∈ edges ++ [(u, v)]) v u :=
      Relation.TransGen.mono (fun a b hedge => mem_append_left _ hedge) _ _ hway
    exact hafter v (hback.tail (mem_append_right _ (mem_singleton_self _)))
  · intro hno x hcycle
    rcases way_snoc hcycle with hold | ⟨hfrom, hto⟩
    · exact h x hold
    · rcases Relation.reflTransGen_iff_eq_or_transGen.mp (hto.trans hfrom) with heq | hway
      · exact hne heq
      · exact hno hway

end

section

variable {κ σ : Type} [DecidableEq κ] [LE κ] [DecidableLE κ]

structure Added (nodes : List String) (active : List (String × String))
    (added : List (String × String × σ)) : Prop where
  inside : ∀ edge ∈ added, edge.1 ∈ nodes ∧ edge.2.1 ∈ nodes ∧ edge.1 ≠ edge.2.1
  unlinked : ∀ edge ∈ added, linked active edge.1 edge.2.1 = false
  once : added.Pairwise fun e f => linked [(e.1, e.2.1)] f.1 f.2.1 = false
  acyclic : Acyclic (active ++ directed added)

theorem mem_successors : y ∈ successors edges x ↔ (x, y) ∈ edges := by
  simp [successors]

theorem linked_append (edges more : List (String × String)) (a b : String) :
    linked (edges ++ more) a b = (linked edges a b || linked more a b) := by
  rw [Bool.eq_iff_iff]
  simp [linked]
  tauto

theorem linked_orient (orderKey : String → κ) (edges : List (String × String)) (a b : String) :
    linked edges (orient orderKey a b).1 (orient orderKey a b).2 = linked edges a b := by
  unfold orient
  split
  · rfl
  · exact Bool.or_comm _ _

variable {active : List (String × String)} {nodes : List String}

theorem orient_mem (orderKey : String → κ) (ha : a ∈ nodes) (hb : b ∈ nodes) (hne : a ≠ b) :
    (orient orderKey a b).1 ∈ nodes ∧ (orient orderKey a b).2 ∈ nodes ∧
      (orient orderKey a b).1 ≠ (orient orderKey a b).2 := by
  unfold orient
  split
  · exact ⟨ha, hb, hne⟩
  · exact ⟨hb, ha, hne.symm⟩

section

variable {added : List (String × String × σ)} (h : Added nodes active added)
  (hactive : ∀ edge ∈ active, edge.2 ∈ nodes)

include h hactive

theorem Added.reaches_iff (hv : v ∈ nodes) :
    StackSearch.reaches (successors (active ++ directed added)) nodes v u = true ↔
      Relation.TransGen (fun a b => (a, b) ∈ active ++ directed added) v u := by
  have hnext : ∀ x ∈ nodes, ∀ y ∈ successors (active ++ directed added) x, y ∈ nodes := by
    intro x _ y hy
    rcases mem_append.mp (mem_successors.mp hy) with hold | hnew
    · exact hactive _ hold
    · obtain ⟨edge, hedge, heq⟩ := mem_map.mp hnew
      rw [← (Prod.mk.inj heq).2]
      exact (h.inside edge hedge).2.1
  rw [StackSearch.reaches_iff hnext hv]
  simp only [mem_successors]

/-- An association between known distinct nodes is skipped when its nodes are linked or its edge
would close a cycle, and becomes an edge otherwise. -/
theorem backfillStep_cases (orderKey : String → κ) (strength : σ) (ha : a ∈ nodes) (hb : b ∈ nodes)
    (hne : a ≠ b) :
    (backfillStep nodes active orderKey added (a, b, strength) = added ∧
      (linked (active ++ directed added) a b = true ∨
        ¬Acyclic (active ++ directed added ++ [orient orderKey a b]))) ∨
    (linked (active ++ directed added) a b = false ∧
      Acyclic (active ++ directed added ++ [orient orderKey a b]) ∧
      backfillStep nodes active orderKey added (a, b, strength) =
        added ++ [((orient orderKey a b).1, (orient orderKey a b).2, strength)]) := by
  obtain ⟨hu, hv, huv⟩ := orient_mem orderKey ha hb hne
  have hknown : ¬(a ∉ nodes ∨ b ∉ nodes ∨ a = b) := by tauto
  unfold backfillStep
  simp only [if_neg hknown]
  split
  next hlinked =>
    exact .inl ⟨rfl, .inl hlinked⟩
  next hlinked =>
    split
    next hreaches =>
      refine .inl ⟨rfl, .inr fun hacyclic => ?_⟩
      exact (acyclic_snoc_iff h.acyclic huv).mp hacyclic ((h.reaches_iff hactive hv).mp hreaches)
    next hreaches =>
      refine .inr ⟨by simpa using hlinked, (acyclic_snoc_iff h.acyclic huv).mpr ?_, rfl⟩
      exact fun hway => hreaches ((h.reaches_iff hactive hv).mpr hway)

theorem Added.step (orderKey : String → κ) (association : String × String × σ) :
    Added nodes active (backfillStep nodes active orderKey added association) := by
  obtain ⟨a, b, strength⟩ := association
  by_cases hknown : a ∉ nodes ∨ b ∉ nodes ∨ a = b
  · have hskip : backfillStep nodes active orderKey added (a, b, strength) = added := by
      simp [backfillStep, if_pos hknown]
    rw [hskip]
    exact h
  · push Not at hknown
    obtain ⟨ha, hb, hne⟩ := hknown
    obtain ⟨hskip, -⟩ | ⟨hlinked, hacyclic, hadded⟩ :=
      backfillStep_cases h hactive orderKey strength ha hb hne
    · rw [hskip]
      exact h
    · rw [← linked_orient orderKey, linked_append, Bool.or_eq_false_iff] at hlinked
      rw [hadded]
      refine ⟨?_, ?_, ?_, ?_⟩
      · intro edge hedge
        rcases mem_append.mp hedge with hold | hnew
        · exact h.inside edge hold
        · rw [mem_singleton.mp hnew]
          exact orient_mem orderKey ha hb hne
      · intro edge hedge
        rcases mem_append.mp hedge with hold | hnew
        · exact h.unlinked edge hold
        · rw [mem_singleton.mp hnew]
          exact hlinked.1
      · refine pairwise_append.mpr ⟨h.once, pairwise_singleton _ _, ?_⟩
        intro edge hedge last hlast
        rw [mem_singleton.mp hlast]
        have hmem : (edge.1, edge.2.1) ∈ directed added := mem_map_of_mem hedge
        have hno := hlinked.2
        simp only [linked, Bool.or_eq_false_iff, decide_eq_false_iff_not, mem_singleton] at hno ⊢
        exact ⟨fun heq => hno.1 (heq ▸ hmem), fun heq => hno.2 (heq ▸ hmem)⟩
      · rw [directed, map_append, ← append_assoc]
        exact hacyclic

end

theorem mem_knownEdges : edge ∈ knownEdges nodes activeEdges ↔
      edge ∈ activeEdges ∧ edge.1 ∈ nodes ∧ edge.2 ∈ nodes ∧ edge.1 ≠ edge.2 := by
  simp [knownEdges]

theorem added_backfill (h : Acyclic (knownEdges nodes activeEdges))
    (associations : List (String × String × σ)) (orderKey : String → κ) :
    Added nodes (knownEdges nodes activeEdges)
      (backfillCouplingEdgesIntoDag nodes activeEdges associations orderKey) := by
  have hactive : ∀ edge ∈ knownEdges nodes activeEdges, edge.2 ∈ nodes := fun edge hedge =>
    (mem_knownEdges.mp hedge).2.2.1
  have hstart : Added (σ := σ) nodes (knownEdges nodes activeEdges) [] :=
    ⟨by simp, by simp, .nil, by simpa [directed] using h⟩
  unfold backfillCouplingEdgesIntoDag
  generalize ([] : List (String × String × σ)) = added at hstart
  induction associations generalizing added with
  | nil => exact hstart
  | cons association associations ih => exact ih _ (hstart.step hactive orderKey association)

structure KeepsDag (nodes : List String) (activeEdges : List (String × String))
    (associations : List (String × String × σ)) (orderKey : String → κ) : Prop where
  inside : ∀ edge ∈ backfillCouplingEdgesIntoDag nodes activeEdges associations orderKey,
    edge.1 ∈ nodes ∧ edge.2.1 ∈ nodes ∧ edge.1 ≠ edge.2.1
  unlinked : ∀ edge ∈ backfillCouplingEdgesIntoDag nodes activeEdges associations orderKey,
    linked activeEdges edge.1 edge.2.1 = false
  once : (backfillCouplingEdgesIntoDag nodes activeEdges associations orderKey).Pairwise
    fun e f => linked [(e.1, e.2.1)] f.1 f.2.1 = false
  acyclic : Acyclic (knownEdges nodes activeEdges ++
    directed (backfillCouplingEdgesIntoDag nodes activeEdges associations orderKey))
  /-- An association that adds no edge to those before it. -/
  skipped : ∀ front a b strength rest, associations = front ++ (a, b, strength) :: rest →
    a ∈ nodes → b ∈ nodes → a ≠ b →
    backfillCouplingEdgesIntoDag nodes activeEdges (front ++ [(a, b, strength)]) orderKey =
      backfillCouplingEdgesIntoDag nodes activeEdges front orderKey →
    linked (knownEdges nodes activeEdges ++
        directed (backfillCouplingEdgesIntoDag nodes activeEdges front orderKey)) a b = true ∨
      ¬Acyclic (knownEdges nodes activeEdges ++
        directed (backfillCouplingEdgesIntoDag nodes activeEdges front orderKey) ++
          [orient orderKey a b])
  components : (deriveCouplingBackfill nodes activeEdges associations orderKey).componentsAfter ≤
    (deriveCouplingBackfill nodes activeEdges associations orderKey).componentsBefore
  isolated : (deriveCouplingBackfill nodes activeEdges associations orderKey).isolatedAfter ≤
    (deriveCouplingBackfill nodes activeEdges associations orderKey).isolatedBefore

/-- Where the edges between known nodes are acyclic the back-fill keeps them so. -/
theorem backfill_keepsDag {nodes : List String} {activeEdges : List (String × String)}
    (h : Acyclic (knownEdges nodes activeEdges)) (associations : List (String × String × σ))
    (orderKey : String → κ) : KeepsDag nodes activeEdges associations orderKey := by
  have hadded := added_backfill h associations orderKey
  refine ⟨hadded.inside, ?_, hadded.once, hadded.acyclic, ?_, ?_, ?_⟩
  · intro edge hedge
    obtain ⟨hsource, htarget, hne⟩ := hadded.inside edge hedge
    have hno := hadded.unlinked edge hedge
    simp only [linked, Bool.or_eq_false_iff, decide_eq_false_iff_not] at hno ⊢
    exact ⟨fun hmem => hno.1 (mem_knownEdges.mpr ⟨hmem, hsource, htarget, hne⟩),
      fun hmem => hno.2 (mem_knownEdges.mpr ⟨hmem, htarget, hsource, hne.symm⟩)⟩
  · intro front a b strength rest _ ha hb hne hskip
    have hfront := added_backfill h front orderKey
    have hactive : ∀ edge ∈ knownEdges nodes activeEdges, edge.2 ∈ nodes := fun edge hedge =>
      (mem_knownEdges.mp hedge).2.2.1
    have hstep : backfillCouplingEdgesIntoDag nodes activeEdges (front ++ [(a, b, strength)]) orderKey =
        backfillStep nodes (knownEdges nodes activeEdges) orderKey
          (backfillCouplingEdgesIntoDag nodes activeEdges front orderKey) (a, b, strength) :=
      foldl_append
    obtain ⟨-, hwhy⟩ | ⟨-, -, hgrown⟩ := backfillStep_cases hfront hactive orderKey strength ha hb hne
    · exact hwhy
    · rw [hstep, hgrown] at hskip
      simp at hskip
  · exact (graphConnectivity_append_le nodes activeEdges _).1
  · exact (graphConnectivity_append_le nodes activeEdges _).2

/-- Two concepts coupled in a chain of three close no cycle. -/
theorem chain_keepsDag :
    KeepsDag ["c-1", "c-2", "c-3"] [("c-1", "c-2"), ("c-2", "c-3")] [("c-3", "c-1", ())] id :=
  backfill_keepsDag (Acyclic.of_rank (fun node => if node = "c-1" then 0 else if node = "c-2" then 1 else 2)
    (by decide)) _ _

/-- A way over a concept that is not a node is not seen: the edge back closes the cycle. -/
theorem unknown_way_closes_cycle :
    Acyclic [("c-1", "c-gone"), ("c-gone", "c-2")] ∧
      ¬Acyclic ([("c-1", "c-gone"), ("c-gone", "c-2")] ++
        directed (backfillCouplingEdgesIntoDag ["c-1", "c-2"] [("c-1", "c-gone"), ("c-gone", "c-2")]
          [("c-1", "c-2", ())] fun node => if node = "c-1" then 1 else 0)) := by
  refine ⟨Acyclic.of_rank (fun node => if node = "c-1" then 0 else if node = "c-gone" then 1 else 2)
    (by decide), fun h => h "c-1" ?_⟩
  exact ((Relation.TransGen.single (b := "c-gone") (by decide +kernel)).tail
    (c := "c-2") (by decide +kernel)).tail (by decide +kernel)

end

end Flowness.Projection
