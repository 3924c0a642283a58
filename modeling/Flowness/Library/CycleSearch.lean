import Flowness.Library.Dict
import Mathlib.Data.Finset.Card
import Mathlib.Data.Set.Finite.List
import Mathlib.Order.RelClasses
import Mathlib.Logic.Relation
import Mathlib.Order.WellFounded

/-!
Depth-first search for a cycle with the two colours of a node on the stack and of one left behind,
and what an acyclic relation on finitely many nodes has.
-/

namespace Flowness.Library.CycleSearch

open Library Dict

inductive Color where
  | gray
  | black
deriving DecidableEq

variable {α : Type} [DecidableEq α]

abbrev Colors (α : Type) := Dict α Color

/-- Visit one node, or some nodes one after another. The error is the node met again on the stack;
as deep as there are nodes is deep enough. -/
def dfs (next : α → List α) : Nat → Colors α → α → Except α (Colors α)
  | 0, _, node => .error node
  | depth + 1, colors, node =>
    match Dict.get colors node with
    | some .gray => .error node
    | some .black => .ok colors
    | none =>
      ((next node).foldlM (dfs next depth) (colors.set node .gray)).map fun colors =>
        colors.set node .black

def visitUncolored (next : α → List α) (depth : Nat) (colors : Colors α) (node : α) :
    Except α (Colors α) :=
  if Dict.get colors node = none then dfs next depth colors node else .ok colors

/-- The search from every node in turn: the node a cycle was found at, if there is one. -/
def findCycle (next : α → List α) (nodes roots : List α) : Option α :=
  match roots.foldlM (visitUncolored next (nodes.length + 1)) [] with
  | .error node => some node
  | .ok _ => none

variable {next : α → List α}

/-- Every node left behind can be followed only finitely far. -/
def Grounded (next : α → List α) (colors : Colors α) : Prop :=
  ∀ node, Dict.get colors node = some .black → Acc (fun b a => b ∈ next a) node

/-- What a visit keeps: nodes left behind stay so, and the stack is as before. -/
structure Extends (before after : Colors α) : Prop where
  black : ∀ node, Dict.get before node = some .black → Dict.get after node = some .black
  gray : ∀ node, Dict.get after node = some .gray ↔ Dict.get before node = some .gray

theorem Extends.refl (colors : Colors α) : Extends colors colors :=
  ⟨fun _ h => h, fun _ => Iff.rfl⟩

theorem Extends.trans {first second third : Colors α} (h₁ : Extends first second)
    (h₂ : Extends second third) : Extends first third :=
  ⟨fun node h => h₂.black node (h₁.black node h), fun node => (h₂.gray node).trans (h₁.gray node)⟩

theorem Extends.colored (h : Extends before after) {node : α} (hnode :
  Dict.get before node ≠ none) : Dict.get after node ≠ none := by
  cases hcolor : Dict.get before node with
  | none => exact absurd hcolor hnode
  | some color =>
    cases color with
    | black => simp [h.black node hcolor]
    | gray => simp [(h.gray node).mpr hcolor]

/-- A visit that ends puts the node behind, together with all it leads to. -/
structure Visited (next : α → List α) (before : Colors α) (node : α) (after : Colors α) :
    Prop where
  grounded : Grounded next before → Grounded next after
  kept : Extends before after
  behind : Dict.get after node = some .black

theorem visited_all {visit : Colors α → α → Except α (Colors α)} {nodes : List α}
    {before after : Colors α}
    (hvisit : ∀ colors node colors', visit colors node = .ok colors' →
      Visited next colors node colors')
    (h : nodes.foldlM visit before = .ok after) :
    (Grounded next before → Grounded next after) ∧ Extends before after ∧
      ∀ node ∈ nodes, Dict.get after node = some .black := by
  induction nodes generalizing before with
  | nil =>
    cases h
    exact ⟨id, Extends.refl _, by simp⟩
  | cons node nodes ih =>
    rw [List.foldlM_cons] at h
    cases hnode : visit before node with
    | error found =>
      rw [hnode] at h
      cases h
    | ok middle =>
      rw [hnode] at h
      have hfirst := hvisit before node middle hnode
      obtain ⟨hground, hkept, hbehind⟩ := ih h
      refine ⟨fun hbefore => hground (hfirst.grounded hbefore), hfirst.kept.trans hkept, ?_⟩
      intro other hother
      rcases List.mem_cons.mp hother with rfl | hother
      · exact hkept.black other hfirst.behind
      · exact hbehind other hother

theorem dfs_visited {colors after : Colors α} {node : α}
    (h : dfs next depth colors node = .ok after) : Visited next colors node after := by
  induction depth generalizing colors after node with
  | zero => cases h
  | succ depth ih =>
    unfold dfs at h
    cases hcolor : Dict.get colors node with
    | some color =>
      cases color with
      | gray =>
        rw [hcolor] at h
        cases h
      | black =>
        rw [hcolor] at h
        cases h
        exact ⟨id, Extends.refl colors, hcolor⟩
    | none =>
      rw [hcolor] at h
      cases hbelow : (next node).foldlM (dfs next depth) (colors.set node .gray) with
      | error found =>
        simp only [hbelow] at h
        cases h
      | ok below =>
        simp only [hbelow] at h
        cases h
        obtain ⟨hground, hkept, hbehind⟩ := visited_all (fun _ _ _ => ih) hbelow
        have hother : ∀ other, other ≠ node → ∀ color,
            Dict.get (Dict.set below node Color.black) other = some color →
              Dict.get below other = some color := by
          intro other hne color hget
          rwa [get_set_of_ne below Color.black hne] at hget
        refine ⟨fun hbefore other hget => ?_, ⟨fun other hget => ?_, fun other => ?_⟩,
          get_set_self below node Color.black⟩
        · have hgray : Grounded next (colors.set node .gray) := by
            intro other hget
            by_cases hne : other = node
            · subst hne
              rw [get_set_self] at hget
              cases hget
            · rw [get_set_of_ne colors Color.gray hne] at hget
              exact hbefore other hget
          by_cases hne : other = node
          · subst hne
            exact Acc.intro other fun child hchild => hground hgray child (hbehind child hchild)
          · exact hground hgray other (hother other hne Color.black hget)
        · have hne : other ≠ node := by
            rintro rfl
            rw [hcolor] at hget
            cases hget
          rw [get_set_of_ne below Color.black hne]
          apply hkept.black
          rwa [get_set_of_ne colors Color.gray hne]
        · by_cases hne : other = node
          · subst hne
            simp [hcolor]
          · rw [get_set_of_ne below Color.black hne, hkept.gray other,
              get_set_of_ne colors Color.gray hne]

/-- The nodes that are still to be visited. -/
def unvisited (nodes : List α) (colors : Colors α) : Finset α :=
  nodes.toFinset.filter fun node => Dict.get colors node = none

theorem unvisited_subset {nodes : List α} {before after : Colors α} (h : Extends before after) :
    unvisited nodes after ⊆ unvisited nodes before := by
  intro node hnode
  rw [unvisited, Finset.mem_filter] at hnode ⊢
  refine ⟨hnode.1, ?_⟩
  by_contra hcolor
  exact h.colored hcolor hnode.2

theorem unvisited_set_lt {nodes : List α} (color : Color) (hnode : node ∈ nodes)
    (hcolor : Dict.get colors node = none) :
    (unvisited nodes (colors.set node color)).card < (unvisited nodes colors).card := by
  apply Finset.card_lt_card
  refine ⟨fun other hother => ?_, fun hsubset => ?_⟩
  · rw [unvisited, Finset.mem_filter] at hother ⊢
    refine ⟨hother.1, ?_⟩
    by_cases hne : other = node
    · rw [hne, hcolor]
    · rw [← get_set_of_ne colors color hne]
      exact hother.2
  · have hmem : node ∈ unvisited nodes colors := by
      rw [unvisited, Finset.mem_filter]
      exact ⟨List.mem_toFinset.mpr hnode, hcolor⟩
    have hset := hsubset hmem
    rw [unvisited, Finset.mem_filter, get_set_self] at hset
    cases hset.2

section Acyclic

variable {nodes : List α} (hclosed : ∀ node ∈ nodes, ∀ child ∈ next node, child ∈ nodes)
  (hacyclic : ∀ node, ¬ Relation.TransGen (fun a b => b ∈ next a) node node)

include hclosed hacyclic

/-- Where nothing leads back, a visit ends: the stack is a path to the node. -/
theorem dfs_ok {node : α} (hnode : node ∈ nodes)
    (hstack : ∀ other, Dict.get colors other = some .gray →
      Relation.TransGen (fun a b => b ∈ next a) other node)
    (hdepth : (unvisited nodes colors).card < depth) :
    ∃ after, dfs next depth colors node = .ok after := by
  induction depth generalizing colors node with
  | zero => omega
  | succ depth ih =>
    unfold dfs
    cases hcolor : Dict.get colors node with
    | some color =>
      cases color with
      | gray => exact absurd (hstack node hcolor) (hacyclic node)
      | black => exact ⟨colors, rfl⟩
    | none =>
      have hlt := unvisited_set_lt Color.gray hnode hcolor
      have hchildren : ∀ (children : List α) (now : Colors α), children ⊆ next node →
          Extends (colors.set node .gray) now →
            ∃ after, children.foldlM (dfs next depth) now = .ok after := by
        intro children
        induction children with
        | nil => exact fun now _ _ => ⟨now, rfl⟩
        | cons child children ihc =>
          intro now hsub hnow
          have hchild : child ∈ next node := hsub List.mem_cons_self
          have hless := Finset.card_le_card (@unvisited_subset _ _ nodes _ _ hnow)
          obtain ⟨middle, hmiddle⟩ : ∃ middle, dfs next depth now child = .ok middle := by
            refine ih (hclosed node hnode child hchild) (fun other hother => ?_) (by omega)
            have hgray := (hnow.gray other).mp hother
            by_cases hne : other = node
            · rw [hne]
              exact Relation.TransGen.single hchild
            · rw [get_set_of_ne colors Color.gray hne] at hgray
              exact (hstack other hgray).tail hchild
          rw [List.foldlM_cons, hmiddle]
          exact ihc middle (fun other h => hsub (List.mem_cons_of_mem child h))
            (hnow.trans (dfs_visited hmiddle).kept)
      obtain ⟨below, hbelow⟩ := hchildren (next node) _ (fun _ h => h) (Extends.refl _)
      simp only [hbelow]
      exact ⟨below.set node .black, rfl⟩

end Acyclic

theorem visitUncolored_visited (hgray : ∀ other, Dict.get colors other ≠ some .gray)
    (h : visitUncolored next depth colors node = .ok after) : Visited next colors node after := by
  unfold visitUncolored at h
  split at h
  · exact dfs_visited h
  next hcolor =>
    cases h
    refine ⟨id, Extends.refl _, ?_⟩
    cases hnode : Dict.get colors node with
    | none => exact absurd hnode hcolor
    | some color =>
      cases color with
      | gray => exact absurd hnode (hgray node)
      | black => rfl

theorem roots_visited {roots : List α} {before after : Colors α}
    (hgray : ∀ other, Dict.get before other ≠ some .gray) (hground : Grounded next before)
    (h : roots.foldlM (visitUncolored next depth) before = .ok after) :
    Grounded next after ∧ Extends before after ∧
      ∀ node ∈ roots, Dict.get after node = some .black := by
  induction roots generalizing before with
  | nil =>
    cases h
    exact ⟨hground, Extends.refl _, by simp⟩
  | cons root roots ih =>
    rw [List.foldlM_cons] at h
    cases hroot : visitUncolored next depth before root with
    | error found =>
      rw [hroot] at h
      cases h
    | ok middle =>
      rw [hroot] at h
      have hfirst := visitUncolored_visited hgray hroot
      have hmiddle : ∀ other, Dict.get middle other ≠ some .gray :=
        fun other hother => hgray other ((hfirst.kept.gray other).mp hother)
      obtain ⟨hafter, hkept, hbehind⟩ := ih hmiddle (hfirst.grounded hground) h
      refine ⟨hafter, hfirst.kept.trans hkept, fun node hnode => ?_⟩
      rcases List.mem_cons.mp hnode with rfl | hnode
      · exact hkept.black node hfirst.behind
      · exact hbehind node hnode

section

variable {nodes roots : List α} (hroots : roots ⊆ nodes)
    (hclosed : ∀ node ∈ nodes, ∀ child ∈ next node, child ∈ nodes)
include hroots hclosed

theorem roots_ok (hacyclic : ∀ node, ¬ Relation.TransGen (fun a b => b ∈ next a) node node)
    (hgray : ∀ other, Dict.get before other ≠ some .gray) :
    ∃ after, roots.foldlM (visitUncolored next (nodes.length + 1)) before = .ok after := by
  induction roots generalizing before with
  | nil => exact ⟨before, rfl⟩
  | cons root roots ih =>
    have hdepth : (unvisited nodes before).card < nodes.length + 1 :=
      Nat.lt_succ_of_le ((Finset.card_filter_le _ _).trans nodes.toFinset_card_le)
    obtain ⟨middle, hmiddle⟩ :
        ∃ middle, visitUncolored next (nodes.length + 1) before root = .ok middle := by
      unfold visitUncolored
      split
      · exact dfs_ok hclosed hacyclic (hroots List.mem_cons_self)
          (fun other hother => absurd hother (hgray other)) hdepth
      · exact ⟨before, rfl⟩
    have hkept := (visitUncolored_visited hgray hmiddle).kept
    rw [List.foldlM_cons, hmiddle]
    exact ih (fun node h => hroots (List.mem_cons_of_mem root h))
      fun other hother => hgray other ((hkept.gray other).mp hother)

theorem findCycle_eq_none_iff (hleaf : ∀ node, node ∉ roots → next node = []) :
    findCycle next nodes roots = none ↔
      ∀ node, ¬ Relation.TransGen (fun a b => b ∈ next a) node node := by
  unfold findCycle
  constructor
  · intro h
    cases hrun : roots.foldlM (visitUncolored next (nodes.length + 1)) [] with
    | error found =>
      rw [hrun] at h
      cases h
    | ok after =>
      obtain ⟨hground, -, hbehind⟩ := roots_visited (by simp) (fun _ h => by cases h) hrun
      have hwf : WellFounded fun b a => b ∈ next a := by
        refine ⟨fun node => ?_⟩
        by_cases hnode : node ∈ roots
        · exact hground node (hbehind node hnode)
        · exact Acc.intro node fun child hchild => by
            rw [hleaf node hnode] at hchild
            cases hchild
      intro node hcycle
      have hback := Relation.transGen_swap.mpr hcycle
      exact hwf.transGen.asymmetric node node hback hback
  · intro hacyclic
    have hempty : ∀ other, Dict.get ([] : Colors α) other ≠ some .gray := by simp
    obtain ⟨after, hafter⟩ := roots_ok hroots hclosed hacyclic hempty
    rw [hafter]

end

omit [DecidableEq α] in
/-- Among finitely many nodes that do not run in a circle one has nothing before it. -/
theorem exists_source {edge : α → α → Prop} {nodes : List α} (hne : nodes ≠ [])
    (hacyclic : ∀ node, ¬ Relation.TransGen (fun a b => edge a b ∧ a ∈ nodes ∧ b ∈ nodes) node node) :
    ∃ node ∈ nodes, ∀ other ∈ nodes, ¬ edge other node := by
  let before : {a // a ∈ nodes} → {a // a ∈ nodes} → Prop :=
    Relation.TransGen fun a b => edge a.1 b.1
  have hlift : ∀ a b, before a b →
      Relation.TransGen (fun a b => edge a b ∧ a ∈ nodes ∧ b ∈ nodes) a.1 b.1 := by
    intro a b h
    exact Relation.TransGen.lift Subtype.val (fun x y hxy => ⟨hxy, x.2, y.2⟩) a b h
  have : IsTrans _ before := ⟨fun _ _ _ => Relation.TransGen.trans⟩
  have : Std.Irrefl before := ⟨fun a h => hacyclic a.1 (hlift a a h)⟩
  have : Finite {a // a ∈ nodes} := nodes.finite_toSet
  obtain ⟨first, hfirst⟩ := List.exists_mem_of_ne_nil nodes hne
  obtain ⟨source, -, hsource⟩ :=
    (Finite.wellFounded_of_trans_of_irrefl before).has_min Set.univ ⟨⟨first, hfirst⟩, trivial⟩
  refine ⟨source.1, source.2, fun other hother hedge => ?_⟩
  exact hsource ⟨other, hother⟩ trivial (Relation.TransGen.single hedge)

omit [DecidableEq α] in
theorem transGen_or_takes {edge good : α → α → Prop} {start last : α}
    (h : Relation.TransGen edge start last) :
    Relation.TransGen good start last ∨ ∃ a b, Relation.ReflTransGen edge start a ∧ edge a b ∧
      ¬ good a b ∧ Relation.ReflTransGen edge b last := by
  induction h with
  | single hedge =>
    rename_i last
    by_cases hgood : good start last
    · exact Or.inl (Relation.TransGen.single hgood)
    · exact Or.inr ⟨start, last, .refl, hedge, hgood, .refl⟩
  | tail hpath hedge ih =>
    rename_i middle last
    rcases ih with hgoods | ⟨a, b, hbefore, hab, hbad, hafter⟩
    · by_cases hgood : good middle last
      · exact Or.inl (hgoods.tail hgood)
      · exact Or.inr ⟨middle, last, hpath.to_reflTransGen, hedge, hgood, .refl⟩
    · exact Or.inr ⟨a, b, hbefore, hab, hbad, hafter.tail hedge⟩

end Flowness.Library.CycleSearch
