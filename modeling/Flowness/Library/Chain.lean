import Mathlib.Data.List.Nodup
import Mathlib.Data.List.Perm.Subperm

/-!
Following a partial successor until it ends or comes back to a key it has visited. Where the
chain does end, the walk reaches that end.
-/

namespace Flowness.Library

section

variable {α κ : Type} [DecidableEq κ] (next : α → Option α) (key : α → κ)

def follow : Nat → List κ → α → α
  | 0, _, x => x
  | fuel + 1, seen, x =>
    match next x with
    | none => x
    | some y => if key y ∈ seen then x else follow fuel (key y :: seen) y

/-- `n` steps lead from the first to the second. -/
def Leads : Nat → α → α → Prop
  | 0, x, t => x = t
  | n + 1, x, t => ∃ y, next x = some y ∧ Leads n y t

variable {next key} {t : α}

theorem Leads.unique (hend : next t = none) (hm : Leads next m x t) (hn : Leads next n x t) :
    m = n := by
  induction m generalizing n x with
  | zero =>
    obtain rfl : x = t := hm
    cases n with
    | zero => rfl
    | succ n =>
      obtain ⟨y, hy, -⟩ := hn
      rw [hend] at hy
      cases hy
  | succ m ih =>
    obtain ⟨y, hy, hm⟩ := hm
    cases n with
    | zero =>
      obtain rfl : x = t := hn
      rw [hend] at hy
      cases hy
    | succ n =>
      obtain ⟨z, hz, hn⟩ := hn
      rw [hy] at hz
      cases hz
      rw [ih hm hn]

theorem Leads.end_unique (hend : next t = none) (hend' : next s = none) (hm : Leads next m x t)
    (hn : Leads next n x s) : t = s := by
  induction m generalizing n x with
  | zero =>
    obtain rfl : x = t := hm
    cases n with
    | zero => exact hn
    | succ n =>
      obtain ⟨y, hy, -⟩ := hn
      rw [hend] at hy
      cases hy
  | succ m ih =>
    obtain ⟨y, hy, hm⟩ := hm
    cases n with
    | zero =>
      obtain rfl : x = s := hn
      rw [hend'] at hy
      cases hy
    | succ n =>
      obtain ⟨z, hz, hn⟩ := hn
      rw [hy] at hz
      cases hz
      exact ih hm hn

theorem Leads.trans (hm : Leads next m x s) (hn : Leads next n s t) : Leads next (m + n) x t := by
  induction m generalizing x with
  | zero =>
    obtain rfl : x = s := hm
    rwa [Nat.zero_add]
  | succ m ih =>
    obtain ⟨y, hy, hm⟩ := hm
    rw [Nat.add_right_comm]
    exact ⟨y, hy, ih hm⟩

theorem Leads.path (hend : next t = none) (h : Leads next n x t) :
    ∃ path : List α, path.length = n ∧ path.Nodup ∧
      ∀ y ∈ path, (∃ z, next z = some y) ∧ ∃ m < n, Leads next m y t := by
  induction n generalizing x with
  | zero => exact ⟨[], rfl, List.nodup_nil, fun _ h => absurd h List.not_mem_nil⟩
  | succ n ih =>
    obtain ⟨y, hy, h⟩ := h
    obtain ⟨path, hlength, hnodup, hpath⟩ := ih h
    refine ⟨y :: path, by rw [List.length_cons, hlength], List.nodup_cons.mpr ⟨?_, hnodup⟩, ?_⟩
    · intro hmem
      obtain ⟨-, m, hm, hleads⟩ := hpath y hmem
      have := hleads.unique hend h
      omega
    · intro z hz
      rcases List.mem_cons.mp hz with rfl | hz
      · exact ⟨⟨x, hy⟩, n, Nat.lt_succ_self n, h⟩
      · obtain ⟨hfrom, m, hm, hleads⟩ := hpath z hz
        exact ⟨hfrom, m, Nat.lt_succ_of_lt hm, hleads⟩

theorem Leads.le_length (hend : next t = none) {carrier : List α}
    (hcarrier : ∀ x y, next x = some y → y ∈ carrier) {n : Nat} {x : α} (h : Leads next n x t) :
    n ≤ carrier.length := by
  obtain ⟨path, hlength, hnodup, hpath⟩ := h.path hend
  rw [← hlength]
  refine (hnodup.subperm fun y hy => ?_).length_le
  obtain ⟨⟨z, hz⟩, -⟩ := hpath y hy
  exact hcarrier z y hz

/-- A walk among elements with distinct keys that has enough fuel ends where the chain does. -/
theorem follow_eq_end (hend : next t = none) {inside : α → Prop}
    (hinside : ∀ x y, next x = some y → inside y)
    (hkey : ∀ x y, inside x → inside y → key x = key y → x = y) (h : Leads next n x t)
    (hfuel : n ≤ fuel) (hseen : ∀ k ∈ seen, ∃ y m, inside y ∧ key y = k ∧ Leads next m y t ∧ n ≤
      m) : follow next key fuel seen x = t := by
  induction n generalizing fuel seen x with
  | zero =>
    obtain rfl : x = t := h
    cases fuel with
    | zero => rfl
    | succ fuel => rw [follow, hend]
  | succ n ih =>
    obtain ⟨y, hy, h⟩ := h
    obtain ⟨fuel, rfl⟩ : ∃ more, fuel = more + 1 := ⟨fuel - 1, by omega⟩
    have hfresh : key y ∉ seen := by
      intro hmem
      obtain ⟨z, m, hz, hzy, hleads, hm⟩ := hseen _ hmem
      rw [hkey z y hz (hinside x y hy) hzy] at hleads
      have := hleads.unique hend h
      omega
    rw [follow, hy]
    dsimp only
    rw [if_neg hfresh]
    refine ih h (by omega) fun k hk => ?_
    rcases List.mem_cons.mp hk with rfl | hk
    · exact ⟨y, n, hinside x y hy, rfl, h, Nat.le_refl n⟩
    · obtain ⟨z, m, hz, hzk, hleads, hm⟩ := hseen k hk
      exact ⟨z, m, hz, hzk, hleads, by omega⟩

end

end Flowness.Library
