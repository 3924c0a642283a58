import Flowness.Library.Dict
import Flowness.Library.SortedSet
import Mathlib.Data.List.Chain
import Mathlib.Data.List.Lex
import Mathlib.Logic.Relation

/-!
The longest paths of a directed graph by a depth-first search that remembers the longest paths from
each node it has left. On a graph without cycles it finds all of them and no others; a node met
again on the stack is taken for the end of a path.
-/

namespace Flowness.Library.LongestPath

/-- The longest of the paths seen so far. -/
structure Longest (α : Type) where
  length : Nat := 0
  paths : List (List α) := []

def Longest.offer {α : Type} (longest : Longest α) (path : List α) : Longest α :=
  if longest.length < path.length then { length := path.length, paths := [path] }
  else if path.length = longest.length then { longest with paths := longest.paths ++ [path] }
  else longest

section

variable {α : Type} [LinearOrder α]

abbrev Memo (α : Type) := Dict α (List (List α))

/-- Visit nodes one after another and keep the longest of all their paths. -/
def gather (visit : Memo α → α → Option (List (List α) × Memo α)) :
    List α → Longest α → Memo α → Option (Longest α × Memo α)
  | [], longest, memo => some (longest, memo)
  | node :: nodes, longest, memo =>
    match visit memo node with
    | none => none
    | some (paths, memo) => gather visit nodes (paths.foldl Longest.offer longest) memo

def extend (node : α) (longest : Longest α) : List (List α) :=
  if longest.paths = [] then [[node]] else longest.paths.map (node :: ·)

/-- The longest paths from one node; as deep as there are nodes is deep enough. -/
def longestFrom (next : α → List α) : Nat → List α → Memo α → α → Option (List (List α) × Memo α)
  | 0, _, _, _ => none
  | depth + 1, stack, memo, node =>
    match Dict.get memo node with
    | some paths => some (paths, memo)
    | none =>
      if node ∈ stack then some ([[node]], memo)
      else
        match gather (longestFrom next depth (node :: stack)) (sortedSet (next node)) {} memo with
        | none => none
        | some (longest, memo) => some (extend node longest, memo.set node (extend node longest))

/-- The longest paths of the graph, from the smallest node on. -/
def search (next : α → List α) (nodes : List α) : Option (Longest α) :=
  (gather (longestFrom next (nodes.length + 1) []) (nodes.insertionSort (· ≤ ·)) {} []).map Prod.fst

end

section

variable {α : Type}

theorem Longest.offer_spec (longest : Longest α) (path : List α) (seen : List (List α))
    (hpaths : longest.paths = seen.filter fun other => other.length = longest.length)
    (hle : ∀ other ∈ seen, other.length ≤ longest.length) :
    (longest.offer path).paths =
        (seen ++ [path]).filter (fun other => other.length = (longest.offer path).length) ∧
      ∀ other ∈ seen ++ [path], other.length ≤ (longest.offer path).length := by
  unfold Longest.offer
  split
  next hlonger =>
    constructor
    · have hnone : (seen.filter fun other => other.length = path.length) = [] := by
        apply List.filter_eq_nil_iff.mpr
        intro other hother
        have := hle other hother
        simp only [decide_eq_true_eq]
        omega
      rw [List.filter_append, hnone]
      simp
    · intro other hother
      rcases List.mem_append.mp hother with hother | hother
      · exact (hle other hother).trans hlonger.le
      · rw [List.mem_singleton.mp hother]
  next hshorter =>
    split
    next heq =>
      constructor
      · rw [List.filter_append, hpaths]
        simp [heq]
      · intro other hother
        rcases List.mem_append.mp hother with hother | hother
        · exact hle other hother
        · rw [List.mem_singleton.mp hother, heq]
    next hne =>
      constructor
      · rw [List.filter_append, hpaths]
        simp [hne]
      · intro other hother
        rcases List.mem_append.mp hother with hother | hother
        · exact hle other hother
        · rw [List.mem_singleton.mp hother]
          omega

/-- The paths kept are those of the greatest length, in the order they were offered. -/
theorem foldl_offer (seen : List (List α)) :
    (seen.foldl Longest.offer {}).paths =
        seen.filter (fun path => path.length = (seen.foldl Longest.offer {}).length) ∧
      ∀ path ∈ seen, path.length ≤ (seen.foldl Longest.offer {}).length := by
  induction seen using List.reverseRecOn with
  | nil => simp
  | append_singleton seen path ih =>
    rw [List.foldl_append]
    exact Longest.offer_spec _ path seen ih.1 ih.2

theorem mem_foldl_offer {seen : List (List α)} {path : List α} :
    path ∈ (seen.foldl Longest.offer {}).paths ↔
      path ∈ seen ∧ path.length = (seen.foldl Longest.offer {}).length := by
  rw [(foldl_offer seen).1]
  simp

theorem foldl_offer_attained (h : seen ≠ []) :
    ∃ path ∈ seen, path.length = (seen.foldl Longest.offer {}).length := by
  induction seen using List.reverseRecOn with
  | nil => contradiction
  | append_singleton seen path ih =>
    rw [List.foldl_append, List.foldl_cons]
    by_cases hempty : seen = []
    · refine ⟨path, by simp, ?_⟩
      rw [hempty]
      unfold Longest.offer
      cases path with
      | nil => rfl
      | cons node rest => simp
    · obtain ⟨other, hother, hlength⟩ := ih hempty
      unfold Longest.offer
      split_ifs
      · exact ⟨path, by simp, rfl⟩
      · exact ⟨other, by simp [hother], hlength⟩
      · exact ⟨other, by simp [hother], hlength⟩

end

section

variable {α : Type} {next : α → List α}

/-- A path that begins at a node and goes along the edges. -/
def PathFrom (next : α → List α) (node : α) (path : List α) : Prop :=
  path.head? = some node ∧ path.IsChain fun a b => b ∈ next a

def LongestPathFrom (next : α → List α) (node : α) (path : List α) : Prop :=
  PathFrom next node path ∧ ∀ other, PathFrom next node other → other.length ≤ path.length

theorem pathFrom_singleton (node : α) : PathFrom next node [node] :=
  ⟨rfl, List.isChain_singleton node⟩

theorem PathFrom.cons {node after : α} (h : PathFrom next after path) (hedge : after ∈ next node) :
    PathFrom next node (node :: path) := by
  refine ⟨rfl, ?_⟩
  cases path with
  | nil => exact List.isChain_singleton node
  | cons first rest =>
    obtain rfl := Option.some.inj h.1
    exact List.isChain_cons_cons.mpr ⟨hedge, h.2⟩

theorem PathFrom.cases {node : α} (h : PathFrom next node path) :
    path = [node] ∨ ∃ after ∈ next node, ∃ rest, path = node :: rest ∧ PathFrom next after rest := by
  obtain ⟨hhead, hchain⟩ := h
  cases path with
  | nil => cases hhead
  | cons first rest =>
    cases hhead
    cases rest with
    | nil => exact .inl rfl
    | cons after rest =>
      obtain ⟨hedge, hrest⟩ := List.isChain_cons_cons.mp hchain
      exact .inr ⟨after, hedge, after :: rest, rfl, rfl, hrest⟩

theorem PathFrom.ne_nil {node : α} (h : PathFrom next node path) : path ≠ [] := by
  intro hnil
  rw [hnil] at h
  cases h.1

theorem extend_ne_nil (node : α) (longest : Longest α) : extend node longest ≠ [] := by
  unfold extend
  split
  · simp
  next hne =>
    simpa using hne

/-- From every node the paths go along the edges, and so they do with the node before them. -/
theorem pathFrom_of_mem_extend {node : α} {found : List (α × List (List α))}
    (hnexts : ∀ entry ∈ found, entry.1 ∈ next node)
    (hfound : ∀ entry ∈ found, ∀ path ∈ entry.2, PathFrom next entry.1 path) {path : List α}
    (h : path ∈ extend node ((found.flatMap Prod.snd).foldl Longest.offer {})) :
    PathFrom next node path := by
  unfold extend at h
  split at h
  · rw [List.mem_singleton.mp h]
    exact pathFrom_singleton node
  · obtain ⟨rest, hrest, rfl⟩ := List.mem_map.mp h
    obtain ⟨entry, hentry, hpath⟩ := List.mem_flatMap.mp (mem_foldl_offer.mp hrest).1
    exact (hfound entry hentry rest hpath).cons (hnexts entry hentry)

/-- The longest paths from the nodes that come next, one list for each of them. -/
structure Nexts (next : α → List α) (node : α) (found : List (α × List (List α))) : Prop where
  nodes : ∀ after, after ∈ next node ↔ after ∈ found.map Prod.fst
  some : ∀ entry ∈ found, entry.2 ≠ []
  longest : ∀ entry ∈ found, ∀ path, path ∈ entry.2 ↔ LongestPathFrom next entry.1 path

section Nexts

variable {node : α} {found : List (α × List (List α))}

theorem Nexts.le_length (h : Nexts next node found) (hafter : after ∈ next node) {rest : List α}
    (hrest : PathFrom next after rest) :
    rest.length ≤ ((found.flatMap Prod.snd).foldl Longest.offer {}).length := by
  obtain ⟨entry, hentry, rfl⟩ := List.mem_map.mp ((h.nodes after).mp hafter)
  obtain ⟨path, hpath⟩ := List.exists_mem_of_ne_nil _ (h.some entry hentry)
  have hlongest := (h.longest entry hentry path).mp hpath
  calc
    rest.length ≤ path.length := hlongest.2 rest hrest
    _ ≤ _ := (foldl_offer _).2 path (List.mem_flatMap.mpr ⟨entry, hentry, hpath⟩)

section

variable (h : Nexts next node found) {rest : List α}
    (hrest : rest ∈ ((found.flatMap Prod.snd).foldl Longest.offer {}).paths)
include h hrest

theorem Nexts.pathFrom_cons : PathFrom next node (node :: rest) := by
  obtain ⟨entry, hentry, hpath⟩ := List.mem_flatMap.mp (mem_foldl_offer.mp hrest).1
  apply ((h.longest entry hentry rest).mp hpath).1.cons
  exact (h.nodes entry.1).mpr (List.mem_map_of_mem hentry)

theorem Nexts.rest_ne_nil : rest ≠ [] := by
  obtain ⟨entry, hentry, hpath⟩ := List.mem_flatMap.mp (mem_foldl_offer.mp hrest).1
  exact ((h.longest entry hentry rest).mp hpath).1.ne_nil

end

theorem Nexts.paths_eq_nil (h : Nexts next node found)
    (hnil : ((found.flatMap Prod.snd).foldl Longest.offer {}).paths = []) : next node = [] := by
  apply List.eq_nil_iff_forall_not_mem.mpr
  intro after hafter
  obtain ⟨entry, hentry, rfl⟩ := List.mem_map.mp ((h.nodes after).mp hafter)
  obtain ⟨path, hpath⟩ := List.exists_mem_of_ne_nil _ (h.some entry hentry)
  have hseen : path ∈ found.flatMap Prod.snd := List.mem_flatMap.mpr ⟨entry, hentry, hpath⟩
  obtain ⟨best, hbest, hlength⟩ := foldl_offer_attained (List.ne_nil_of_mem hseen)
  have hkept := mem_foldl_offer.mpr ⟨hbest, hlength⟩
  rw [hnil] at hkept
  cases hkept

/-- One more edge before the longest paths from the nodes that come next gives the longest paths
from the node. -/
theorem Nexts.mem_extend (h : Nexts next node found) (path : List α) :
    path ∈ extend node ((found.flatMap Prod.snd).foldl Longest.offer {}) ↔
      LongestPathFrom next node path := by
  unfold extend
  split
  next hnil =>
    have hlast : ∀ other, PathFrom next node other → other = [node] := by
      intro other hother
      apply hother.cases.resolve_right
      intro hgoes
      obtain ⟨after, hafter, -⟩ := hgoes
      rw [h.paths_eq_nil hnil] at hafter
      cases hafter
    rw [List.mem_singleton]
    constructor
    · intro hpath
      rw [hpath]
      exact ⟨pathFrom_singleton node, fun other hother => by rw [hlast other hother]⟩
    · exact fun hpath => hlast path hpath.1
  next hkept =>
    obtain ⟨best, hbest⟩ := List.exists_mem_of_ne_nil _ hkept
    have hbestPath := h.pathFrom_cons hbest
    have hbestLength := (mem_foldl_offer.mp hbest).2
    rw [List.mem_map]
    constructor
    · intro hpath
      obtain ⟨rest, hrest, rfl⟩ := hpath
      refine ⟨h.pathFrom_cons hrest, fun other hother => ?_⟩
      obtain rfl | ⟨after, hafter, otherRest, rfl, hgoes⟩ := hother.cases
      · simp
      · have hle := h.le_length hafter hgoes
        have heq := (mem_foldl_offer.mp hrest).2
        simp only [List.length_cons]
        omega
    · intro hpath
      have hle := hpath.2 _ hbestPath
      obtain rfl | ⟨after, hafter, rest, rfl, hgoes⟩ := hpath.1.cases
      · -- the node alone is shorter than the path that is kept
        have hpositive := List.length_pos_iff.mpr (h.rest_ne_nil hbest)
        simp only [List.length_cons, List.length_nil] at hle
        omega
      · obtain ⟨entry, hentry, rfl⟩ := List.mem_map.mp ((h.nodes after).mp hafter)
        have hrest : LongestPathFrom next entry.1 rest := by
          refine ⟨hgoes, fun other hother => ?_⟩
          have hother' := hpath.2 _ (hother.cons hafter)
          simp only [List.length_cons] at hother'
          omega
        refine ⟨rest, mem_foldl_offer.mpr ⟨?_, ?_⟩, rfl⟩
        · exact List.mem_flatMap.mpr ⟨entry, hentry, (h.longest entry hentry rest).mpr hrest⟩
        · have hupper := h.le_length hafter hgoes
          simp only [List.length_cons] at hle
          omega

end Nexts

end

section

variable {α : Type} [LinearOrder α]

/-- Everything remembered about a node is good for it. -/
def Holds (good : α → List (List α) → Prop) (memo : Memo α) : Prop :=
  ∀ node paths, Dict.get memo node = some paths → good node paths

theorem Holds.set {good : α → List (List α) → Prop} (h : Holds good memo) {node : α}
    (hgood : good node paths) : Holds good (memo.set node paths) := by
  intro other found hfound
  by_cases hother : other = node
  · subst hother
    rw [Dict.get_set_self] at hfound
    rw [← Option.some.inj hfound]
    exact hgood
  · rw [Dict.get_set_of_ne _ _ hother] at hfound
    exact h other found hfound

/-- Where each visit returns what is good for its node, the paths kept are the longest of them. -/
theorem gather_total {good : α → List (List α) → Prop} {nodes : List α}
    (hvisit : ∀ memo, Holds good memo → ∀ node ∈ nodes, ∃ paths after, visit memo node =
      some (paths, after) ∧ Holds good after ∧ good node paths)
    (seen : List (List α)) (hmemo : Holds good memo) :
    ∃ (found : List (α × List (List α))) (after : Memo α),
      gather visit nodes (seen.foldl Longest.offer {}) memo =
          some ((seen ++ found.flatMap Prod.snd).foldl Longest.offer {}, after) ∧
        Holds good after ∧ found.map Prod.fst = nodes ∧ ∀ entry ∈ found, good entry.1 entry.2 := by
  induction nodes generalizing seen memo with
  | nil => exact ⟨[], memo, by simp [gather], hmemo, rfl, by simp⟩
  | cons node nodes ih =>
    obtain ⟨paths, middle, hfirst, hmiddle, hgood⟩ := hvisit memo hmemo node List.mem_cons_self
    have hrest := fun memo hmemo other hother =>
      hvisit memo hmemo other (List.mem_cons_of_mem node hother)
    obtain ⟨found, after, hgather, hafter, hnodes, hall⟩ := ih hrest (seen ++ paths) hmiddle
    refine ⟨(node, paths) :: found, after, ?_, hafter, ?_, ?_⟩
    · rw [gather, hfirst]
      dsimp only
      rw [← List.foldl_append, hgather]
      simp
    · simp [hnodes]
    · intro entry hentry
      rcases List.mem_cons.mp hentry with rfl | hentry
      · exact hgood
      · exact hall entry hentry

variable {next : α → List α} {nodes : List α}

/-- The search of one node returns, with enough depth, what is good for it: it is enough that what
follows from the nodes after it is good, and the node alone where it is met again. -/
theorem longestFrom_total {good : α → List (List α) → Prop}
    (hclosed : ∀ node ∈ nodes, ∀ after ∈ next node, after ∈ nodes)
    (hagain : ∀ node, Relation.TransGen (fun a b => b ∈ next a) node node → good node [[node]])
    (hextend : ∀ (node : α) (found : List (α × List (List α))), found.map Prod.fst =
      sortedSet (next node) → (∀ entry ∈ found, good entry.1 entry.2) →
      good node (extend node ((found.flatMap Prod.snd).foldl Longest.offer {})))
    {node : α} (hnode : node ∈ nodes) (hnodup : stack.Nodup) (hstack : stack ⊆ nodes)
    (habove : ∀ above ∈ stack, Relation.TransGen (fun a b => b ∈ next a) above node)
    (hdepth : nodes.length < depth + stack.length) (hmemo : Holds good memo) :
    ∃ paths after, longestFrom next depth stack memo node = some (paths, after) ∧
      Holds good after ∧ good node paths := by
  induction depth generalizing stack memo node with
  | zero =>
    have hle := (List.subperm_of_subset hnodup hstack).length_le
    omega
  | succ depth ih =>
    unfold longestFrom
    cases hget : Dict.get memo node with
    | some paths => exact ⟨paths, memo, rfl, hmemo, hmemo node paths hget⟩
    | none =>
      by_cases hon : node ∈ stack
      · exact ⟨[[node]], memo, by simp [hon], hmemo, hagain node (habove node hon)⟩
      · have hvisit : ∀ memo, Holds good memo → ∀ after ∈ sortedSet (next node),
            ∃ paths middle, longestFrom next depth (node :: stack) memo after = some (paths, middle) ∧
              Holds good middle ∧ good after paths := by
          intro memo hmemo after hafter
          have hedge : after ∈ next node := mem_sortedSet.mp hafter
          apply ih (hclosed node hnode after hedge) (List.nodup_cons.mpr ⟨hon, hnodup⟩)
            (List.cons_subset.mpr ⟨hnode, hstack⟩) _ (by simp only [List.length_cons]; omega) hmemo
          intro above habove'
          rcases List.mem_cons.mp habove' with rfl | habove'
          · exact Relation.TransGen.single hedge
          · exact (habove above habove').tail hedge
        obtain ⟨found, after, hgather, hafter, hfound, hall⟩ := gather_total hvisit [] hmemo
        have hgood := hextend node found hfound hall
        rw [List.foldl_nil] at hgather
        rw [if_neg hon, hgather]
        exact ⟨_, _, rfl, hafter.set hgood, hgood⟩

theorem search_total (good : α → List (List α) → Prop)
    (hclosed : ∀ node ∈ nodes, ∀ after ∈ next node, after ∈ nodes)
    (hagain : ∀ node, Relation.TransGen (fun a b => b ∈ next a) node node → good node [[node]])
    (hextend : ∀ (node : α) (found : List (α × List (List α))),
      found.map Prod.fst = sortedSet (next node) → (∀ entry ∈ found, good entry.1 entry.2) →
        good node (extend node ((found.flatMap Prod.snd).foldl Longest.offer {}))) :
    ∃ found : List (α × List (List α)),
      search next nodes = some ((found.flatMap Prod.snd).foldl Longest.offer {}) ∧
        found.map Prod.fst = nodes.insertionSort (· ≤ ·) ∧
          ∀ entry ∈ found, good entry.1 entry.2 := by
  have hvisit : ∀ memo, Holds good memo → ∀ node ∈ nodes.insertionSort (· ≤ ·),
      ∃ paths after, longestFrom next (nodes.length + 1) [] memo node = some (paths, after) ∧
        Holds good after ∧ good node paths := by
    intro memo hmemo node hnode
    apply longestFrom_total hclosed hagain hextend ((List.mem_insertionSort _).mp hnode)
      List.nodup_nil (by simp) (by simp) (by simp) hmemo
  have hempty : Holds good ([] : Memo α) := by
    intro node paths hget
    cases hget
  obtain ⟨found, after, hgather, -, hfound, hall⟩ := gather_total hvisit [] hempty
  refine ⟨found, ?_, hfound, hall⟩
  rw [List.foldl_nil] at hgather
  rw [search, hgather]
  rfl

section

variable (hclosed : ∀ node ∈ nodes, ∀ after ∈ next node, after ∈ nodes)
include hclosed

/-- On any graph the search ends, and what it finds are paths of the graph of one length. -/
theorem search_follows :
    ∃ longest, search next nodes = some longest ∧ (nodes ≠ [] → longest.paths ≠ []) ∧
      ∀ path ∈ longest.paths, path.length = longest.length ∧
        ∃ node ∈ nodes, PathFrom next node path := by
  let good : α → List (List α) → Prop := fun node paths =>
    paths ≠ [] ∧ ∀ path ∈ paths, PathFrom next node path
  have hagain : ∀ node : α, good node [[node]] := by
    intro node
    refine ⟨by simp, fun path hpath => ?_⟩
    rw [List.mem_singleton.mp hpath]
    exact pathFrom_singleton node
  obtain ⟨found, hsearch, hfound, hall⟩ := search_total good hclosed
    (fun node _ => hagain node) (by
      intro node found hnexts hgood
      refine ⟨extend_ne_nil node _, fun path hpath => ?_⟩
      apply pathFrom_of_mem_extend _ (fun entry hentry => (hgood entry hentry).2) hpath
      intro entry hentry
      have hnext : entry.1 ∈ found.map Prod.fst := List.mem_map_of_mem hentry
      rw [hnexts] at hnext
      exact mem_sortedSet.mp hnext)
  have hnodes : ∀ node, node ∈ nodes ↔ node ∈ found.map Prod.fst := by
    intro node
    rw [hfound, List.mem_insertionSort]
  refine ⟨_, hsearch, fun hne => ?_, fun path hpath => ?_⟩
  · obtain ⟨node, hnode⟩ := List.exists_mem_of_ne_nil nodes hne
    obtain ⟨entry, hentry, -⟩ := List.mem_map.mp ((hnodes node).mp hnode)
    obtain ⟨path, hpath⟩ := List.exists_mem_of_ne_nil _ (hall entry hentry).1
    have hseen : path ∈ found.flatMap Prod.snd := List.mem_flatMap.mpr ⟨entry, hentry, hpath⟩
    obtain ⟨best, hbest, hlength⟩ := foldl_offer_attained (List.ne_nil_of_mem hseen)
    exact List.ne_nil_of_mem (mem_foldl_offer.mpr ⟨hbest, hlength⟩)
  · obtain ⟨hseen, hlength⟩ := mem_foldl_offer.mp hpath
    obtain ⟨entry, hentry, hmem⟩ := List.mem_flatMap.mp hseen
    refine ⟨hlength, entry.1, (hnodes entry.1).mpr (List.mem_map_of_mem hentry), ?_⟩
    exact (hall entry hentry).2 path hmem

theorem search_exact (hacyclic : ∀ node, ¬Relation.TransGen (fun a b => b ∈ next a) node node)
    {longest : Longest α} (h : search next nodes = some longest) :
    (∀ node ∈ nodes, ∀ path, PathFrom next node path → path.length ≤ longest.length) ∧
      ∀ node ∈ nodes, ∀ path, PathFrom next node path → path.length = longest.length →
        path ∈ longest.paths := by
  let good : α → List (List α) → Prop := fun node paths =>
    paths ≠ [] ∧ ∀ path, path ∈ paths ↔ LongestPathFrom next node path
  obtain ⟨found, hsearch, hfound, hall⟩ := search_total good hclosed
    (fun node hcycle => absurd hcycle (hacyclic node)) (by
      intro node found hnexts hgood
      have hfound : Nexts next node found := by
        refine ⟨fun after => ?_, fun entry hentry => (hgood entry hentry).1,
          fun entry hentry => (hgood entry hentry).2⟩
        rw [hnexts, mem_sortedSet]
      exact ⟨extend_ne_nil node _, hfound.mem_extend⟩)
  rw [h] at hsearch
  cases hsearch
  have hentry : ∀ node ∈ nodes, ∃ entry ∈ found, entry.1 = node := by
    intro node hnode
    have hmem : node ∈ found.map Prod.fst := by
      rw [hfound, List.mem_insertionSort]
      exact hnode
    exact List.mem_map.mp hmem
  have hupper : ∀ node ∈ nodes, ∀ path, PathFrom next node path →
      path.length ≤ ((found.flatMap Prod.snd).foldl Longest.offer {}).length := by
    intro node hnode path hpath
    obtain ⟨entry, hmem, rfl⟩ := hentry node hnode
    obtain ⟨best, hbest⟩ := List.exists_mem_of_ne_nil _ (hall entry hmem).1
    calc
      path.length ≤ best.length := (((hall entry hmem).2 best).mp hbest).2 path hpath
      _ ≤ _ := (foldl_offer _).2 best (List.mem_flatMap.mpr ⟨entry, hmem, hbest⟩)
  refine ⟨hupper, fun node hnode path hpath hlength => ?_⟩
  obtain ⟨entry, hmem, rfl⟩ := hentry node hnode
  have hlongest : LongestPathFrom next entry.1 path := by
    refine ⟨hpath, fun other hother => ?_⟩
    rw [hlength]
    exact hupper entry.1 hnode other hother
  apply mem_foldl_offer.mpr
  exact ⟨List.mem_flatMap.mpr ⟨entry, hmem, ((hall entry hmem).2 path).mpr hlongest⟩, hlength⟩

end

end

end Flowness.Library.LongestPath
