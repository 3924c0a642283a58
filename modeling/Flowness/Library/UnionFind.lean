import Flowness.Library.Chain
import Flowness.Library.Dict

/-!
A union-find forest as a dictionary of parents, with path compression and no ranks. A root is its own
parent; what a find returns depends on the classes alone.
-/

namespace Flowness.Library.UnionFind

open Library Dict

variable {α : Type} [DecidableEq α]

abbrev Parents (α : Type) := Dict α α

/-- The parent of a node that is no root. -/
def above (parent : Parents α) (x : α) : Option α := (Dict.get parent x).filter (· ≠ x)

/-- The first loop of `find`. -/
def climb (parent : Parents α) : Nat → α → α
  | 0, x => x
  | fuel + 1, x =>
    match above parent x with
    | none => x
    | some y => climb parent fuel y

/-- The second loop points every node on the way at the root. -/
def compress (root : α) : Nat → Parents α → α → Parents α
  | 0, parent, _ => parent
  | fuel + 1, parent, x =>
    match Dict.get parent x with
    | none => parent
    | some y => if y = root then parent else compress root fuel (Dict.set parent x root) y

def find (parent : Parents α) (x : α) : α × Parents α :=
  let root := climb parent parent.length x
  (root, compress root parent.length parent x)

def union (parent : Parents α) (s t : α) : Parents α :=
  let (rs, parent) := find parent s
  let (rt, parent) := find parent t
  if rs = rt then parent else Dict.set parent rs rt

/-- `root` gives the root of every node, which some steps lead to. -/
structure Represents (parent : Parents α) (root : α → α) : Prop where
  nodup : (Dict.keys parent).Nodup
  leads : ∀ x ∈ Dict.keys parent, ∃ n, Leads (above parent) n x (root x)
  ends : ∀ x ∈ Dict.keys parent, Dict.get parent (root x) = some (root x)

section

variable {parent : Parents α} {root : α → α} {x : α}

theorem above_eq_none (h : Dict.get parent x = some x) : above parent x = none := by
  simp [above, h]

theorem above_some {y : α} (h : above parent x = some y) : Dict.get parent x = some y ∧ y ≠ x := by
  obtain ⟨hget, hne⟩ := Option.filter_eq_some_iff.mp h
  exact ⟨hget, by simpa using hne⟩

theorem Leads.climb {n fuel : Nat} {t : α} (hend : above parent t = none)
    (h : Leads (above parent) n x t) (hfuel : n ≤ fuel) : climb parent fuel x = t := by
  induction n generalizing x fuel with
  | zero =>
    obtain rfl : x = t := h
    cases fuel with
    | zero => rfl
    | succ fuel => rw [UnionFind.climb, hend]
  | succ n ih =>
    obtain ⟨y, hy, h⟩ := h
    obtain ⟨fuel, rfl⟩ : ∃ more, fuel = more + 1 := ⟨fuel - 1, by omega⟩
    rw [UnionFind.climb, hy]
    exact ih h (by omega)

section

variable (h : Represents parent root) (hx : x ∈ Dict.keys parent)
include h hx

theorem Represents.above_root : above parent (root x) = none :=
  above_eq_none (h.ends x hx)

theorem Represents.climb : climb parent parent.length x = root x := by
  obtain ⟨n, hn⟩ := h.leads x hx
  refine Leads.climb (h.above_root hx) hn ?_
  have hvalues : ∀ y z, above parent y = some z → z ∈ parent.map Prod.snd := fun y z hz =>
    List.mem_map_of_mem (mem_of_get (above_some hz).1)
  simpa using hn.le_length (h.above_root hx) hvalues

theorem Represents.root_of_leads {n : Nat} {t : α} (hend : above parent t = none)
    (hleads : Leads (above parent) n x t) : t = root x := by
  obtain ⟨m, hm⟩ := h.leads x hx
  exact hleads.end_unique hend (h.above_root hx) hm

end

theorem leads_set {y t r : α} {n : Nat} (h : Leads (above parent) n y t) :
    (∃ m, Leads (above (Dict.set parent x r)) m y t) ∨
      ∃ m k, Leads (above (Dict.set parent x r)) m y x ∧ Leads (above parent) k x t := by
  induction n generalizing y with
  | zero => exact .inl ⟨0, h⟩
  | succ n ih =>
    by_cases hy : y = x
    · exact .inr ⟨0, n + 1, hy, hy ▸ h⟩
    · obtain ⟨z, hz, hrest⟩ := h
      have hsame : above (Dict.set parent x r) y = some z := by
        rw [above, get_set_of_ne _ _ hy]
        exact hz
      rcases ih hrest with ⟨m, hm⟩ | ⟨m, k, hm, hk⟩
      · exact .inl ⟨m + 1, z, hsame, hm⟩
      · exact .inr ⟨m + 1, k, ⟨z, hsame, hm⟩, hk⟩

theorem above_set_self {r : α} (hne : r ≠ x) : above (Dict.set parent x r) x = some r := by
  simp [above, hne]

theorem keys_set {r : α} (hx : x ∈ Dict.keys parent) :
    Dict.keys (Dict.set parent x r) = Dict.keys parent :=
  keys_set_of_mem hx r

theorem Represents.redirect (h : Represents parent root) (hx : x ∈ Dict.keys parent)
    (hne : root x ≠ x) : Represents (Dict.set parent x (root x)) root where
  nodup := by
    rw [keys_set hx]
    exact h.nodup
  leads y hy := by
    rw [keys_set hx] at hy
    obtain ⟨n, hn⟩ := h.leads y hy
    rcases @leads_set _ _ parent x y (root y) (root x) n hn with hfree | ⟨m, k, hm, hk⟩
    · exact hfree
    · have hsame := h.root_of_leads hx (h.above_root hy) hk
      rw [hsame]
      exact ⟨m + 1, hm.trans ⟨root x, above_set_self hne, rfl⟩⟩
  ends y hy := by
    rw [keys_set hx] at hy
    have hother : root y ≠ x := by
      rintro rfl
      exact hne (h.root_of_leads hx (h.above_root hy) (n := 0) rfl).symm
    rw [get_set_of_ne _ _ hother]
    exact h.ends y hy

/-- The classes of two roots are joined. -/
def joined (root : α → α) (rs rt : α) (y : α) : α := if root y = rs then rt else root y

theorem Represents.link (h : Represents parent root) {s t : α} (hs : s ∈ Dict.keys parent)
    (ht : t ∈ Dict.keys parent) (hne : root s ≠ root t) :
    Represents (Dict.set parent (root s) (root t)) (joined root (root s) (root t)) := by
  have hroot : root s ∈ Dict.keys parent := mem_keys_of_get (h.ends s hs)
  refine ⟨?_, fun y hy => ?_, fun y hy => ?_⟩
  · rw [keys_set hroot]
    exact h.nodup
  · rw [keys_set hroot] at hy
    obtain ⟨n, hn⟩ := h.leads y hy
    have hlast : Leads (above (Dict.set parent (root s) (root t))) 1 (root s) (root t) :=
      ⟨root t, above_set_self hne.symm, rfl⟩
    unfold joined
    rcases @leads_set _ _ parent (root s) y (root y) (root t) n hn with ⟨m, hm⟩ | ⟨m, k, hm, hk⟩
    · split
      next hclass =>
        rw [hclass] at hm
        exact ⟨m + 1, hm.trans hlast⟩
      · exact ⟨m, hm⟩
    · have hclass : root y = root s :=
        hk.end_unique (h.above_root hy) (h.above_root hs) (n := 0) rfl
      rw [if_pos hclass]
      exact ⟨m + 1, hm.trans hlast⟩
  · rw [keys_set hroot] at hy
    unfold joined
    split
    · rw [get_set_of_ne _ _ hne.symm]
      exact h.ends t ht
    next hclass =>
      rw [get_set_of_ne _ _ hclass]
      exact h.ends y hy

theorem Represents.compress (h : Represents parent root) (hx : x ∈ Dict.keys parent) (fuel : Nat) :
    Represents (compress (root x) fuel parent x) root ∧
      Dict.keys (UnionFind.compress (root x) fuel parent x) = Dict.keys parent := by
  induction fuel generalizing parent x with
  | zero => exact ⟨h, rfl⟩
  | succ fuel ih =>
    unfold UnionFind.compress
    split
    · exact ⟨h, rfl⟩
    next y hget =>
      split
      · exact ⟨h, rfl⟩
      next hstop =>
        have hne : y ≠ x := by
          rintro rfl
          exact hstop (h.root_of_leads hx (above_eq_none hget) (n := 0) rfl)
        obtain ⟨n, hn⟩ := h.leads x hx
        have habove : above parent x = some y := by simp [above, hget, hne]
        have hroot : root x ≠ x := by
          intro heq
          have hnone := h.above_root hx
          rw [heq, habove] at hnone
          contradiction
        have hrest : ∃ m, Leads (above parent) m y (root x) := by
          cases n with
          | zero => exact absurd (show root x = x from Eq.symm hn) hroot
          | succ n =>
            obtain ⟨z, hz, hrest⟩ := hn
            cases habove.symm.trans hz
            exact ⟨n, hrest⟩
        obtain ⟨m, hm⟩ := hrest
        have hy : y ∈ Dict.keys parent := by
          cases m with
          | zero => exact absurd hm hstop
          | succ m =>
            obtain ⟨z, hz, -⟩ := hm
            exact mem_keys_of_get (above_some hz).1
        have hclass : root x = root y := h.root_of_leads hy (h.above_root hx) hm
        have hnext := h.redirect hx hroot
        have hkeys := keys_set (r := root x) hx
        rw [hclass] at hnext hkeys ⊢
        obtain ⟨hrepresents, hsame⟩ := ih hnext (by rw [hkeys]; exact hy)
        exact ⟨hrepresents, hsame.trans hkeys⟩

theorem Represents.find (h : Represents parent root) (hx : x ∈ Dict.keys parent) :
    (find parent x).1 = root x ∧ Represents (UnionFind.find parent x).2 root ∧
      Dict.keys (UnionFind.find parent x).2 = Dict.keys parent := by
  unfold UnionFind.find
  rw [h.climb hx]
  exact ⟨rfl, h.compress hx parent.length⟩

theorem union_eq (parent : Parents α) (s t : α) : union parent s t =
    if (find parent s).1 = (find (find parent s).2 t).1 then (find (find parent s).2 t).2
    else Dict.set (find (find parent s).2 t).2 (find parent s).1 (find (find parent s).2 t).1 := rfl

theorem Represents.union (h : Represents parent root) {s t : α} (hs : s ∈ Dict.keys parent)
    (ht : t ∈ Dict.keys parent) :
    Represents (union parent s t) (joined root (root s) (root t)) ∧
      Dict.keys (UnionFind.union parent s t) = Dict.keys parent := by
  obtain ⟨hfirst, hrepresents, hkeys⟩ := h.find hs
  obtain ⟨hsecond, hrepresents', hkeys'⟩ := hrepresents.find (x := t) (by rw [hkeys]; exact ht)
  rw [union_eq, hfirst, hsecond]
  split
  next hclass =>
    have hjoined : joined root (root s) (root t) = root := by
      funext y
      unfold joined
      split
      next hy =>
        rw [hy, hclass]
      · rfl
    rw [hjoined]
    exact ⟨hrepresents', hkeys'.trans hkeys⟩
  next hclass =>
    have hs' : s ∈ Dict.keys (UnionFind.find (UnionFind.find parent s).2 t).2 := by
      rw [hkeys', hkeys]
      exact hs
    have ht' : t ∈ Dict.keys (UnionFind.find (UnionFind.find parent s).2 t).2 := by
      rw [hkeys', hkeys]
      exact ht
    refine ⟨hrepresents'.link hs' ht' hclass, ?_⟩
    rw [keys_set (mem_keys_of_get (hrepresents'.ends s hs')), hkeys', hkeys]

end

end Flowness.Library.UnionFind
