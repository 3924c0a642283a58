import Mathlib.Data.List.Induction
import Flowness.Library.Json

/-!
A directory tree without symlinks, and the sentinel file that marks a directory as the root of a
ledger.
-/

namespace Flowness.FsGuard

open List Library Dict

abbrev Path := List String

namespace Path

/-- `str(path)`. -/
def text (path : Path) : String :=
  if path = [] then "/" else String.join (path.map fun part => "/" ++ part)

def name (path : Path) : String := path.getLast?.getD ""

/-- `path.parents`, the nearest first. -/
def parents (path : Path) : List Path := (List.range path.length).reverse.map path.take

theorem mem_parents {path ancestor : Path} :
    ancestor ∈ path.parents ↔ ancestor <+: path ∧ ancestor ≠ path := by
  unfold parents
  rw [mem_map]
  constructor
  · rintro ⟨length, hlength, rfl⟩
    rw [mem_reverse, mem_range] at hlength
    refine ⟨List.take_prefix length path, fun heq => ?_⟩
    have hshort := congrArg List.length heq
    rw [length_take] at hshort
    omega
  · rintro ⟨⟨rest, rfl⟩, hne⟩
    refine ⟨ancestor.length, ?_, take_left⟩
    rw [mem_reverse, mem_range, length_append]
    have hrest : rest ≠ [] := fun hnil => hne (by rw [hnil, append_nil])
    have hpos := length_pos_iff.mpr hrest
    omega

end Path

/-- What `json.loads` makes of the text of a file. -/
inductive FileContent where
  | json (value : Json)
  | invalidJson
  | invalidText
deriving DecidableEq, Repr

inductive Node where
  | dir
  | file (content : FileContent)
deriving DecidableEq, Repr

def Closed (entries : Dict Path Node) : Prop :=
  ∀ path node, entries.get path = some node → path ≠ [] →
    entries.get path.dropLast = some .dir

structure Tree where
  entries : Dict Path Node
  closed : Closed entries

namespace Tree

variable {tree : Tree} {path other : Path} {node : Node}

def get (tree : Tree) (path : Path) : Option Node := tree.entries.get path

def isDir (tree : Tree) (path : Path) : Bool := tree.get path = some .dir

def isFile (tree : Tree) (path : Path) : Bool :=
  match tree.get path with
  | some (.file _) => true
  | _ => false

theorem isDir_of_prefix (h : tree.get path = some node) (hbegins : other <+: path)
    (hne : other ≠ path) : tree.isDir other = true := by
  obtain ⟨rest, rfl⟩ := hbegins
  induction rest using List.reverseRecOn generalizing node with
  | nil => exact absurd (append_nil other).symm hne
  | append_singleton rest last ih =>
    have hparent := tree.closed _ _ h (by simp)
    rw [← append_assoc, dropLast_concat] at hparent
    by_cases hrest : rest = []
    · rw [hrest, append_nil] at hparent
      exact decide_eq_true hparent
    · exact ih hparent (by simpa using fun heq => hrest heq)

theorem closed_set (hparent : tree.isDir path.dropLast = true) (hplace : tree.isDir path = false)
    (hroot : path ≠ []) : Closed (tree.entries.set path (.file content)) := by
  intro key node hget hkey
  have hold : ∀ key, key ≠ path → Dict.get (tree.entries.set path (.file content)) key =
      tree.get key := fun key hne => get_set_of_ne _ _ hne
  have hdropped : path.dropLast ≠ path := by
    intro heq
    have hlength := congrArg List.length heq
    have hpos := length_pos_iff.mpr hroot
    rw [length_dropLast] at hlength
    omega
  by_cases heq : key = path
  · rw [heq, hold _ hdropped]
    exact of_decide_eq_true hparent
  · rw [hold key heq] at hget
    have hdir := tree.closed key node hget hkey
    have hne : key.dropLast ≠ path := by
      intro hsame
      rw [hsame] at hdir
      have : tree.isDir path = true := decide_eq_true hdir
      rw [hplace] at this
      cases this
    rw [hold _ hne]
    exact hdir

def writeFile (tree : Tree) (path : Path) (content : FileContent) : Option Tree :=
  if h : tree.isDir path.dropLast = true ∧ tree.isDir path = false ∧ path ≠ [] then
    some ⟨tree.entries.set path (.file content), closed_set h.1 h.2.1 h.2.2⟩
  else none

theorem closed_mkdir (hparent : tree.isDir path.dropLast = true) :
    Closed (tree.entries.set path .dir) := by
  intro key node hget hkey
  by_cases hdrop : key.dropLast = path
  · rw [hdrop, get_set_self]
  · rw [get_set_of_ne _ _ hdrop]
    by_cases heq : key = path
    · rw [heq]
      exact of_decide_eq_true hparent
    · rw [get_set_of_ne _ _ heq] at hget
      exact tree.closed key node hget hkey

def mkdir (tree : Tree) (path : Path) : Option Tree :=
  if h : tree.isDir path.dropLast = true ∧ tree.get path = none then
    some ⟨tree.entries.set path .dir, closed_mkdir h.1⟩
  else none

theorem closed_filter (target : Path) :
    Closed (tree.entries.filter fun entry => !decide (target <+: entry.1)) := by
  intro key node hget hkey
  rw [get_filter_keys tree.entries fun key => !decide (target <+: key)] at hget ⊢
  obtain ⟨hkept, hget⟩ := Option.ite_none_right_eq_some.mp hget
  have hdrop : ¬target <+: key.dropLast := by
    intro hbegins
    have hbelow : target <+: key := hbegins.trans (List.dropLast_prefix key)
    simp [hbelow] at hkept
  rw [if_pos (by simpa using hdrop)]
  exact tree.closed key node hget hkey

/-- `shutil.rmtree` of a directory. -/
def rmtree (tree : Tree) (target : Path) : Tree :=
  ⟨tree.entries.filter fun entry => !decide (target <+: entry.1), closed_filter target⟩

@[simp] theorem get_rmtree (tree : Tree) (target path : Path) :
    (tree.rmtree target).get path = if target <+: path then none else tree.get path := by
  show Dict.get (tree.entries.filter _) path = _
  rw [get_filter_keys tree.entries fun key => !decide (target <+: key)]
  by_cases h : target <+: path <;> simp [h, get]

theorem get_writeFile (h : tree.writeFile path content = some later) (other : Path) :
    later.get other = if other = path then some (.file content) else tree.get other := by
  unfold writeFile at h
  split at h
  · cases h
    show Dict.get (tree.entries.set path _) other = _
    split
    next heq =>
      rw [heq, get_set_self]
    next hne =>
      exact get_set_of_ne _ _ hne
  · cases h

theorem get_mkdir (h : tree.mkdir path = some later) (other : Path) : tree.get path = none ∧
      later.get other = if other = path then some .dir else tree.get other := by
  unfold mkdir at h
  split at h
  next hnew =>
    cases h
    refine ⟨hnew.2, ?_⟩
    show Dict.get (tree.entries.set path .dir) other = _
    split
    next heq =>
      rw [heq, get_set_self]
    next hne =>
      exact get_set_of_ne _ _ hne
  · cases h

end Tree

def LEDGER_SENTINEL_NAME : String := ".ledger-root"

def sentinelOf (dir : Path) : Path := dir ++ [LEDGER_SENTINEL_NAME]

/-- `data.get("canonical_path") == str(dir)`. -/
def names (value : Json) (dir : Path) : Bool :=
  value.get "canonical_path" = some (.str dir.text)

def sentinelSelfReferences (tree : Tree) (dir : Path) : Bool :=
  match tree.get (sentinelOf dir) with
  | some (.file (.json value)) => names value dir
  | _ => false

theorem sentinelOf_inj {dir other : Path} : sentinelOf dir = sentinelOf other ↔ dir = other := by
  exact append_left_inj _

theorem sentinelSelfReferences_iff {tree : Tree} : sentinelSelfReferences tree dir = true ↔ ∃ value,
      tree.get (sentinelOf dir) = some (.file (.json value)) ∧ names value dir = true := by
  unfold sentinelSelfReferences
  split
  next value hget =>
    rw [hget]
    simp
  next hother =>
    simp only [Bool.false_eq_true, false_iff, not_exists, not_and]
    exact fun value hget => absurd hget (hother value)

theorem sentinelSelfReferences_congr {tree later : Tree}
    (h : later.get (sentinelOf dir) = tree.get (sentinelOf dir)) :
    sentinelSelfReferences later dir = sentinelSelfReferences tree dir := by
  unfold sentinelSelfReferences
  rw [h]

def whitelistSegments : List String :=
  ["tmp", "worktrees", "snapshots", "snapshots-archive", "staging", "skills", ".towow-backup"]

/-- `path.relative_to(root).parts`. -/
def relativeParts (root path : Path) : Path := path.drop root.length

@[simp] theorem relativeParts_append (root way : Path) : relativeParts root (root ++ way) = way :=
  drop_left

inductive GuardError where
  | ledgerRoot (target : Path)
  | sentinelHits (hits : List Path)
  | insideLedger (sentinel : Path)
  | notWhitelisted (target : Path)
  | fork (above : Path)
  | attribute
  | unicodeDecode
  | os (path : Path)
deriving DecidableEq, Repr

end Flowness.FsGuard
