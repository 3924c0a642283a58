import Flowness.FsGuard.BirthGate
import Flowness.Library.Lines

/-!
The guard in front of every recursive deletion: what it lets through lies inside no ledger, but for
the parts set apart for scratch work, and has no ledger inside.
-/

namespace Flowness.FsGuard

open List Library Option

def isLedgerRoot (tree : Tree) (path : Path) : Bool :=
  tree.isFile (path ++ ["events.log"]) || tree.isDir (path ++ ["events"])

def endsInTmp (part : String) : Bool := ".tmp".toList.isSuffixOf part.toList

def sentinelHit (tree : Tree) (sentinel : Path) : Except GuardError Bool :=
  match tree.get sentinel with
  | some (.file (.json (.obj entries))) => .ok (names (.obj entries) sentinel.dropLast)
  | some (.file (.json _)) => .error .attribute
  | some (.file _) => .ok true
  | _ => .ok false

def collectHits (tree : Tree) : List Path → Except GuardError (List Path)
  | [] => .ok []
  | sentinel :: rest => do
    let hit ← sentinelHit tree sentinel
    let hits ← collectHits tree rest
    .ok (if hit then sentinel :: hits else hits)

def realSentinelHits (tree : Tree) (target : Path) : Except GuardError (List Path) :=
  if tree.isDir target then
    collectHits tree (tree.entries.keys.filter fun path =>
      path.getLast? = some LEDGER_SENTINEL_NAME && decide (target <+: path.dropLast))
  else .ok []

def setApart (root target : Path) : Bool :=
  (relativeParts root target).any (· ∈ whitelistSegments) || endsInTmp target.name

/-- `_ledger_ancestor_violation`, over the ancestors that are left. -/
def ancestorViolation (tree : Tree) (target : Path) : List Path → Except GuardError (Option Path)
  | [] => .ok none
  | ancestor :: rest =>
    match tree.get (sentinelOf ancestor) with
    | none => ancestorViolation tree target rest
    | some (.file (.json (.obj entries))) =>
      if names (.obj entries) ancestor && !setApart ancestor target then
        .ok (some (sentinelOf ancestor))
      else ancestorViolation tree target rest
    | some (.file (.json _)) => .error .attribute
    | some _ => .ok (some (sentinelOf ancestor))

def assertRmtreeSafe (tmpRoot : Path) (tree : Tree) (target : Path) (force : Bool)
    (reason : Option String) : Except GuardError Path := do
  require (!isLedgerRoot tree target) (.ledgerRoot target)
  let hits ← realSentinelHits tree target
  require hits.isEmpty (.sentinelHits hits)
  let violation ← ancestorViolation tree target target.parents
  require violation.isNone (.insideLedger (violation.getD []))
  require (decide (tmpRoot <+: target) || target.any (· ∈ whitelistSegments) ||
      endsInTmp target.name || (force && reason.any fun text => strip text.toList ≠ []))
    (.notWhitelisted target)
  .ok target

def safeRmtree (tmpRoot : Path) (tree : Tree) (target : Path) (force : Bool)
    (reason : Option String) : Except GuardError Tree := do
  require (tree.get target).isSome (.os target)
  let _ ← assertRmtreeSafe tmpRoot tree target force reason
  require (tree.isDir target) (.os target)
  .ok (tree.rmtree target)

section

variable {tmpRoot : Path} {tree later : Tree} {target root : Path} {force : Bool}
  {reason : Option String}

theorem sentinelHit_of_collectHits (h : collectHits tree sentinels = .ok []) :
    ∀ sentinel ∈ sentinels, sentinelHit tree sentinel = .ok false := by
  induction sentinels with
  | nil => simp
  | cons first rest ih =>
    rw [collectHits, bind_ok] at h
    obtain ⟨hit, hhit, h⟩ := h
    rw [bind_ok] at h
    obtain ⟨hits, hhits, h⟩ := h
    cases hit with
    | true => cases Except.ok.inj h
    | false =>
      obtain rfl : hits = [] := Except.ok.inj h
      intro sentinel hmem
      rcases mem_cons.mp hmem with rfl | hmem
      · exact hhit
      · exact ih hhits sentinel hmem

theorem no_root_below (h : realSentinelHits tree target = .ok [])
    (hroot : sentinelSelfReferences tree root = true) : ¬target <+: root := by
  intro hbelow
  obtain ⟨value, hget, hnames⟩ := sentinelSelfReferences_iff.mp hroot
  have hlonger : target <+: sentinelOf root := hbelow.trans (prefix_append _ _)
  have hdir : tree.isDir target = true := by
    refine tree.isDir_of_prefix hget hlonger fun heq => ?_
    have hlength := congrArg List.length heq
    have hle := hbelow.length_le
    rw [sentinelOf, length_append, length_singleton] at hlength
    omega
  rw [realSentinelHits, if_pos hdir] at h
  have hmem : sentinelOf root ∈ tree.entries.keys.filter fun path =>
      path.getLast? = some LEDGER_SENTINEL_NAME && decide (target <+: path.dropLast) := by
    refine mem_filter.mpr ⟨Dict.mem_keys_of_get hget, ?_⟩
    simp [sentinelOf, hbelow]
  have hhit := sentinelHit_of_collectHits h _ hmem
  have hdrop : (sentinelOf root).dropLast = root := dropLast_concat
  unfold sentinelHit at hhit
  rw [hget] at hhit
  cases value with
  | obj entries =>
    dsimp only at hhit
    rw [hdrop, hnames] at hhit
    cases Except.ok.inj hhit
  | _ => cases hhit

theorem setApart_of_no_violation (h : ancestorViolation tree target ancestors = .ok none)
    (hmem : root ∈ ancestors) (hroot : sentinelSelfReferences tree root = true) :
    setApart root target = true := by
  obtain ⟨value, hget, hnames⟩ := sentinelSelfReferences_iff.mp hroot
  induction ancestors with
  | nil => cases hmem
  | cons first rest ih =>
    unfold ancestorViolation at h
    rcases mem_cons.mp hmem with rfl | hmem
    · rw [hget] at h
      cases value with
      | obj entries =>
        dsimp only at h
        split at h
        · cases Except.ok.inj h
        next hpassed =>
          rw [hnames] at hpassed
          simpa using hpassed
      | _ => cases h
    · split at h
      · exact ih h hmem
      · split at h
        · cases Except.ok.inj h
        · exact ih h hmem
      · cases h
      · cases Except.ok.inj h

structure Spared (tree : Tree) (target : Path) : Prop where
  none_below : ∀ root, sentinelSelfReferences tree root = true → ¬target <+: root
  notRoot : isLedgerRoot tree target = false
  apart : ∀ root, sentinelSelfReferences tree root = true → root <+: target → root ≠ target →
    setApart root target = true

theorem spared_of_assert (h : assertRmtreeSafe tmpRoot tree target force reason = .ok resolved) :
    Spared tree target := by
  simp only [assertRmtreeSafe, bind_ok, require_ok, exists_const] at h
  obtain ⟨hshape, hits, hhits, hnone, violation, hviolation, hclear, -⟩ := h
  rw [List.isEmpty_iff] at hnone
  rw [isNone_iff_eq_none] at hclear
  subst hnone hclear
  refine ⟨fun root hroot => no_root_below hhits hroot, by simpa using hshape, ?_⟩
  intro root hroot hbegins hne
  exact setApart_of_no_violation hviolation (Path.mem_parents.mpr ⟨hbegins, hne⟩) hroot

/-- A file of the ledger that lies in no scratch directory. -/
structure Guarded (root file : Path) : Prop where
  below : root <+: file.dropLast
  proper : file ≠ []
  plain : ∀ part ∈ relativeParts root file.dropLast,
    part ∉ whitelistSegments ∧ endsInTmp part = false

theorem Spared.not_prefix (h : Spared tree target) (hroot : sentinelSelfReferences tree root = true)
    (hguarded : Guarded root file) : ¬target <+: file.dropLast := by
  intro htarget
  rcases prefix_or_prefix_of_prefix htarget hguarded.below with hbelow | habove
  · exact h.none_below root hroot hbelow
  · obtain ⟨way, rfl⟩ := habove
    obtain ⟨rest, hrest⟩ := htarget
    have hparts : ∀ part ∈ way, part ∉ whitelistSegments ∧ endsInTmp part = false := by
      intro part hpart
      apply hguarded.plain
      rw [← hrest, append_assoc, relativeParts_append]
      exact mem_append_left _ hpart
    rcases eq_nil_or_concat' way with rfl | ⟨front, last, rfl⟩
    · exact h.none_below root hroot (by simp)
    have hapart := h.apart root hroot (prefix_append root _) (by simp)
    unfold setApart at hapart
    rw [relativeParts_append, Bool.or_eq_true] at hapart
    rcases hapart with hsegment | htmp
    · obtain ⟨part, hpart, hlisted⟩ := any_eq_true.mp hsegment
      exact (hparts part hpart).1 (of_decide_eq_true hlisted)
    · have hname : Path.name (root ++ (front ++ [last])) = last := by
        unfold Path.name
        rw [← append_assoc, List.getLast?_concat]
        rfl
      rw [hname, (hparts last (by simp)).2] at htmp
      cases htmp

theorem guarded_sentinel (root : Path) : Guarded root (sentinelOf root) := by
  have hdrop : (sentinelOf root).dropLast = root := dropLast_concat
  refine ⟨?_, by simp [sentinelOf], ?_⟩
  · exact hdrop.symm ▸ prefix_rfl
  · rw [hdrop, relativeParts, drop_length]
    simp

inductive Call where
  | grow (growth : Growth)
  | rmtree (target : Path) (force : Bool) (reason : Option String)
deriving Repr

def call (tmpRoot : Path) (tree : Tree) : Call → Tree
  | .grow growth => grow tmpRoot tree growth
  | .rmtree target force reason => (safeRmtree tmpRoot tree target force reason).toOption.getD tree

def NoOverwrite (tree : Tree) : Call → Prop
  | .grow (.createFile path _) => path.name = LEDGER_SENTINEL_NAME → tree.get path = none
  | _ => True

theorem safeRmtree_ok (h : safeRmtree tmpRoot tree target force reason = .ok later) :
    Spared tree target ∧ tree.isDir target = true ∧ later = tree.rmtree target := by
  simp only [safeRmtree, bind_ok, require_ok, exists_const, Except.ok.injEq] at h
  obtain ⟨-, resolved, hassert, hdir, rfl⟩ := h
  exact ⟨spared_of_assert hassert, hdir, rfl⟩

theorem isFile_iff : tree.isFile file = true ↔ ∃ content, tree.get file = some (.file content) := by
  unfold Tree.isFile
  split
  next content hget =>
    rw [hget]
    simp
  next hother =>
    simp only [Bool.false_eq_true, false_iff, not_exists]
    exact hother

theorem isFile_writeFile (hwritten : tree.writeFile path content = some later)
    (h : tree.isFile file = true) : later.isFile file = true := by
  rw [isFile_iff, tree.get_writeFile hwritten]
  split
  · exact ⟨content, rfl⟩
  · exact isFile_iff.mp h

theorem isFile_grow (h : tree.isFile file = true) :
    (grow tmpRoot tree growth).isFile file = true := by
  cases growth with
  | mkdir path =>
    rw [grow_mkdir]
    cases hmade : tree.mkdir path with
    | none => exact h
    | some later =>
      obtain ⟨content, hget⟩ := isFile_iff.mp h
      obtain ⟨hnew, hlater⟩ := tree.get_mkdir hmade file
      have hne : file ≠ path := by
        rintro rfl
        rw [hget] at hnew
        cases hnew
      rw [if_neg hne, hget] at hlater
      exact isFile_iff.mpr ⟨content, hlater⟩
  | createFile path content =>
    rw [grow_createFile]
    cases hwritten : tree.writeFile path content with
    | none => exact h
    | some later => exact isFile_writeFile hwritten h
  | writeSentinel root now =>
    rw [grow_writeSentinel]
    cases hwrite : writeLedgerSentinel tmpRoot tree root now with
    | error error => exact h
    | ok later =>
      rcases writeLedgerSentinel_cases hwrite with ⟨rfl, -⟩ | ⟨-, -, hwritten⟩
      · exact h
      · exact isFile_writeFile hwritten h

theorem selfReferences_call_grow (hkept : NoOverwrite tree (.grow growth))
    (h : sentinelSelfReferences tree root = true) :
    sentinelSelfReferences (grow tmpRoot tree growth) root = true := by
  cases growth with
  | mkdir path =>
    rw [grow_mkdir, selfReferences_mkdir, h]
  | createFile path content =>
    rw [grow_createFile]
    cases hwritten : tree.writeFile path content with
    | none => exact h
    | some later =>
      obtain ⟨value, hget, -⟩ := sentinelSelfReferences_iff.mp h
      have hne : sentinelOf root ≠ path := by
        rintro rfl
        rw [hkept (name_sentinelOf root)] at hget
        cases hget
      have hlater := tree.get_writeFile hwritten (sentinelOf root)
      rw [if_neg hne] at hlater
      rw [getD_some, sentinelSelfReferences_congr hlater, h]
  | writeSentinel place now =>
    rw [grow_writeSentinel]
    cases hwrite : writeLedgerSentinel tmpRoot tree place now with
    | error error => exact h
    | ok later =>
      rcases writeLedgerSentinel_cases hwrite with ⟨rfl, -⟩ | ⟨hfresh, hgate, hwritten⟩
      · exact h
      · exact ((birth_of_written hfresh hgate hwritten).born root).mpr (Or.inl h)

theorem get_rmtree_of_guarded (hroot : sentinelSelfReferences tree root = true)
    (hguarded : Guarded root file) (hfile : tree.isFile file = true) (hspared : Spared tree target)
    (hdir : tree.isDir target = true) : (tree.rmtree target).get file = tree.get file := by
  rw [Tree.get_rmtree, if_neg]
  intro htarget
  rcases eq_nil_or_concat' file with rfl | ⟨front, last, rfl⟩
  · exact hguarded.proper rfl
  rcases prefix_concat_iff.mp htarget with rfl | hbegins
  · obtain ⟨content, hget⟩ := isFile_iff.mp hfile
    rw [Tree.isDir, hget] at hdir
    exact absurd (of_decide_eq_true hdir) (by simp)
  · refine hspared.not_prefix hroot hguarded ?_
    rw [dropLast_concat]
    exact hbegins

theorem call_keeps (hkept : NoOverwrite tree label)
    (hroot : sentinelSelfReferences tree root = true) :
    sentinelSelfReferences (call tmpRoot tree label) root = true ∧
    ∀ file, Guarded root file → tree.isFile file = true →
      (call tmpRoot tree label).isFile file = true := by
  cases label with
  | grow growth =>
    exact ⟨selfReferences_call_grow hkept hroot, fun file _ hfile => isFile_grow hfile⟩
  | rmtree target force reason =>
    unfold call
    dsimp only
    cases hremoved : safeRmtree tmpRoot tree target force reason with
    | error error => exact ⟨hroot, fun file _ hfile => hfile⟩
    | ok later =>
      obtain ⟨hspared, hdir, rfl⟩ := safeRmtree_ok hremoved
      constructor
      · obtain ⟨value, hget, -⟩ := sentinelSelfReferences_iff.mp hroot
        have hsame := get_rmtree_of_guarded hroot (guarded_sentinel root)
          (isFile_iff.mpr ⟨_, hget⟩) hspared hdir
        rw [Except.toOption, getD_some, sentinelSelfReferences_congr hsame, hroot]
      · intro file hguarded hfile
        obtain ⟨content, hget⟩ := isFile_iff.mp hfile
        have hsame := get_rmtree_of_guarded hroot hguarded hfile hspared hdir
        exact isFile_iff.mpr ⟨content, hsame.trans hget⟩

end

abbrev Calls (tmpRoot : Path) : Tree → List Call → Tree → Prop :=
  Run (fun tree label => some (call tmpRoot tree label)) NoOverwrite

/-- What the guard lets through is spared, and no run deletes a guarded file of a ledger. -/
theorem deletions_spare_ledgers (tmpRoot : Path) :
    (∀ tree target force reason resolved,
      assertRmtreeSafe tmpRoot tree target force reason = .ok resolved → Spared tree target) ∧
    (∀ tree calls later, Calls tmpRoot tree calls later →
      ∀ root file, sentinelSelfReferences tree root = true → Guarded root file →
        tree.isFile file = true →
        later.isFile file = true ∧ sentinelSelfReferences later root = true) := by
  refine ⟨fun tree target force reason resolved => spared_of_assert, ?_⟩
  intro tree calls later hrun root file hroot hguarded hfile
  refine hrun.invariant (I := fun state => state.isFile file = true ∧
    sentinelSelfReferences state root = true) ⟨hfile, hroot⟩ ?_
  rintro state label next ⟨hthere, hself⟩ hkept hnext
  cases hnext
  obtain ⟨hlater, hfiles⟩ := call_keeps hkept hself
  exact ⟨hfiles file hguarded hthere, hlater⟩

def ledgerTree : Tree :=
  ⟨[([], .dir), (["p"], .dir), (["p", ".towow"], .dir),
    (["p", ".towow", ".ledger-root"], .file (.json (sentinelRecord ["p", ".towow"] "t"))),
    (["p", ".towow", "events"], .dir), (["p", ".towow", "events", "1.log"], .file .invalidJson),
    (["p", ".towow", "worktrees"], .dir), (["p", ".towow", "worktrees", "w"], .dir),
    (["p", ".towow", "worktrees", "w", ".ledger-root"],
      .file (.json (sentinelRecord ["p", ".towow"] "t")))], closed_of_all (by decide)⟩

example : (assertRmtreeSafe ["tmp"] ledgerTree ["p", ".towow", "worktrees", "w"] false none).isOk ∧
    !(assertRmtreeSafe ["tmp"] ledgerTree ["p", ".towow", "events"] true (some "old")).isOk ∧
    !(assertRmtreeSafe ["tmp"] ledgerTree ["p"] true (some "old")).isOk := by
  decide +kernel

def cleanups : List Call :=
  [.rmtree ["p"] true (some "old"), .rmtree ["p", ".towow", "worktrees", "w"] false none]

theorem deletions_spare_ledgers_sample :
    (cleanups.foldl (call ["tmp"]) ledgerTree).isFile ["p", ".towow", "events", "1.log"] = true ∧
    sentinelSelfReferences (cleanups.foldl (call ["tmp"]) ledgerTree) ["p", ".towow"] = true :=
  (deletions_spare_ledgers ["tmp"]).2 ledgerTree cleanups _
    (Run.of_foldlM (by simp [cleanups, NoOverwrite]) foldlM_pure) ["p", ".towow"] _
    (by decide +kernel) ⟨by decide, by decide, by decide⟩ (by decide +kernel)

end Flowness.FsGuard
