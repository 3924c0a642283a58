import Flowness.FsGuard.DirectoryTree
import Flowness.Library.Checked
import Flowness.Library.Transition

/-!
The birth of a ledger: the sentinel that makes a directory a ledger root is refused below a
ledger root that does not set the place apart.
-/

namespace Flowness.FsGuard

open List Library Option

def LEDGER_DIR : String := ".towow"

def ledgerOf (project : Path) : Path := project ++ [LEDGER_DIR]

def resolveCanonicalLedgerRoot (tree : Tree) (start : Path) : Option Path :=
  ((start :: start.parents).map ledgerOf).find? (sentinelSelfReferences tree ·)

def whitelistedBetween (dir place : Path) : Bool :=
  (relativeParts dir place).any (· ∈ whitelistSegments)

def ledgerBirthForkViolation (tmpRoot : Path) (tree : Tree) (newRoot : Path) : Option Path :=
  if tmpRoot <+: newRoot then none
  else
    match resolveCanonicalLedgerRoot tree newRoot.dropLast.dropLast with
    | none => none
    | some above => if whitelistedBetween above.dropLast newRoot then none else some above

def sentinelWarning : String :=
  "TOWOW CANONICAL LEDGER ROOT — DO NOT DELETE / 勿删: " ++
  "此目录是 v3 唯一真相源事件账本。删除 = 不可逆丢失 canonical 事件 " ++
  "(参见 INCIDENT-TOWOW-WIPE-2026-06-10)。safe_rmtree 遇本文件且 " ++
  "canonical_path 匹配时 fail-closed 拒删。"

def sentinelRecord (root : Path) (now : String) : Json :=
  .obj [("warning", .str sentinelWarning), ("canonical_path", .str root.text),
    ("created_at", .str now)]

/-- The part of `write_ledger_sentinel` behind the early return. -/
def giveBirth (tmpRoot : Path) (tree : Tree) (root : Path) (now : String) :
    Except GuardError Tree :=
  match ledgerBirthForkViolation tmpRoot tree root with
  | some above => .error (.fork above)
  | none =>
    match tree.writeFile (sentinelOf root) (.json (sentinelRecord root now)) with
    | some later => .ok later
    | none => .error (.os (sentinelOf root))

/-- `write_ledger_sentinel`: a sentinel that names its place is left as it is, a damaged one is
written again. -/
def writeLedgerSentinel (tmpRoot : Path) (tree : Tree) (root : Path) (now : String) :
    Except GuardError Tree :=
  match tree.get (sentinelOf root) with
  | some (.file (.json (.obj entries))) =>
    if names (.obj entries) root then .ok tree else giveBirth tmpRoot tree root now
  | some (.file (.json _)) => .error .attribute
  | some (.file .invalidText) => .error .unicodeDecode
  | _ => giveBirth tmpRoot tree root now

theorem Path.parents_concat (path : Path) (part : String) :
    Path.parents (path ++ [part]) = path :: path.parents := by
  unfold Path.parents
  rw [length_append, length_singleton, range_succ, reverse_append,
    reverse_singleton, singleton_append, map_cons, take_left]
  congr 1
  apply map_congr_left
  intro length hlength
  rw [mem_reverse, mem_range] at hlength
  exact take_append_of_le_length (Nat.le_of_lt hlength)

section

variable {tmpRoot : Path} {tree later : Tree} {start project root other : Path} {now : String}

theorem resolve_nil : resolveCanonicalLedgerRoot tree [] =
    if sentinelSelfReferences tree (ledgerOf []) then some (ledgerOf []) else none := by
  unfold resolveCanonicalLedgerRoot
  rw [map_cons, List.find?_cons]
  split <;> rename_i h <;> rw [h] <;> rfl

theorem resolve_concat (part : String) : resolveCanonicalLedgerRoot tree (start ++ [part]) =
    if sentinelSelfReferences tree (ledgerOf (start ++ [part])) then
      some (ledgerOf (start ++ [part]))
    else resolveCanonicalLedgerRoot tree start := by
  unfold resolveCanonicalLedgerRoot
  rw [Path.parents_concat, map_cons, List.find?_cons]
  split <;> rename_i h <;> rw [h] <;> rfl

/-- The ledger root of a project at or above `start`, with no other one on the way. -/
structure Nearest (tree : Tree) (start project : Path) : Prop where
  selfReferences : sentinelSelfReferences tree (ledgerOf project) = true
  above : project <+: start
  nearest : ∀ other, other <+: start →
    sentinelSelfReferences tree (ledgerOf other) = true → other <+: project

theorem Nearest.unique (h : Nearest tree start project) (h' : Nearest tree start other) :
    project = other :=
  (h'.nearest project h.above h.selfReferences).eq_of_length_le
    (h.nearest other h'.above h'.selfReferences).length_le

theorem resolve_spec (tree : Tree) (start : Path) :
    (∃ project, Nearest tree start project ∧
      resolveCanonicalLedgerRoot tree start = some (ledgerOf project)) ∨
    (resolveCanonicalLedgerRoot tree start = none ∧
      ∀ other, other <+: start → sentinelSelfReferences tree (ledgerOf other) = false) := by
  induction start using List.reverseRecOn with
  | nil =>
    rw [resolve_nil]
    split
    next hself =>
      exact .inl ⟨[], ⟨hself, prefix_rfl, fun other hother _ => hother⟩, rfl⟩
    next hself =>
      refine .inr ⟨rfl, fun other hother => ?_⟩
      rw [prefix_nil.mp hother]
      exact Bool.eq_false_iff.mpr hself
  | append_singleton start part ih =>
    rw [resolve_concat]
    split
    next hself =>
      exact .inl ⟨_, ⟨hself, prefix_rfl, fun other hother _ => hother⟩, rfl⟩
    next hself =>
      have hshorter : ∀ other, other <+: start ++ [part] →
          sentinelSelfReferences tree (ledgerOf other) = true → other <+: start := by
        intro other hother hroot
        rcases prefix_concat_iff.mp hother with rfl | hprefix
        · exact absurd hroot hself
        · exact hprefix
      rcases ih with ⟨project, hnearest, hresolve⟩ | ⟨hresolve, hnone⟩
      · refine .inl ⟨project, ⟨hnearest.selfReferences, ?_, ?_⟩, hresolve⟩
        · exact hnearest.above.trans (prefix_append start [part])
        · intro other hother hroot
          exact hnearest.nearest other (hshorter other hother hroot) hroot
      · refine .inr ⟨hresolve, fun other hother => ?_⟩
        rw [Bool.eq_false_iff]
        intro hroot
        have := hnone other (hshorter other hother hroot)
        rw [hroot] at this
        cases this

theorem resolve_eq_some : resolveCanonicalLedgerRoot tree start = some root ↔
    ∃ project, Nearest tree start project ∧ root = ledgerOf project := by
  rcases resolve_spec tree start with ⟨project, hnearest, hresolve⟩ | ⟨hresolve, hnone⟩
  · rw [hresolve]
    constructor
    · intro h
      exact ⟨project, hnearest, (some.inj h).symm⟩
    · rintro ⟨other, hother, rfl⟩
      rw [hnearest.unique hother]
  · rw [hresolve]
    constructor
    · intro h
      cases h
    · rintro ⟨project, hnearest, -⟩
      have := hnone project hnearest.above
      rw [hnearest.selfReferences] at this
      cases this

theorem names_sentinelRecord (root : Path) (now : String) :
    names (sentinelRecord root now) root = true := by
  simp [names, sentinelRecord, Json.get, Dict.get_cons]

theorem writeLedgerSentinel_cases (h : writeLedgerSentinel tmpRoot tree root now = .ok later) :
    (later = tree ∧ sentinelSelfReferences tree root = true) ∨
    (sentinelSelfReferences tree root = false ∧
      ledgerBirthForkViolation tmpRoot tree root = none ∧
      tree.writeFile (sentinelOf root) (.json (sentinelRecord root now)) = some later) := by
  have hbirth : giveBirth tmpRoot tree root now = .ok later →
      ledgerBirthForkViolation tmpRoot tree root = none ∧
      tree.writeFile (sentinelOf root) (.json (sentinelRecord root now)) = some later := by
    intro h
    unfold giveBirth at h
    split at h
    · cases h
    next hgate =>
      split at h
      next written hwritten =>
        cases h
        exact ⟨hgate, hwritten⟩
      · cases h
  unfold writeLedgerSentinel at h
  split at h
  next entries hget =>
    split at h
    next hnames =>
      exact .inl ⟨(Except.ok.inj h).symm, sentinelSelfReferences_iff.mpr ⟨_, hget, hnames⟩⟩
    next hnames =>
      refine .inr ⟨?_, hbirth h⟩
      unfold sentinelSelfReferences
      rw [hget]
      exact Bool.eq_false_iff.mpr hnames
  · cases h
  · cases h
  next hobject hjson htext =>
    refine .inr ⟨?_, hbirth h⟩
    rw [Bool.eq_false_iff]
    intro hself
    obtain ⟨value, hget, -⟩ := sentinelSelfReferences_iff.mp hself
    exact hjson value hget

end

inductive Growth where
  | mkdir (path : Path)
  | createFile (path : Path) (content : FileContent)
  | writeSentinel (root : Path) (now : String)
deriving Repr

def grow (tmpRoot : Path) (tree : Tree) : Growth → Tree
  | .mkdir path => (tree.mkdir path).getD tree
  | .createFile path content => (tree.writeFile path content).getD tree
  | .writeSentinel root now => (writeLedgerSentinel tmpRoot tree root now).toOption.getD tree

section

variable (tmpRoot : Path) (tree : Tree)

theorem grow_mkdir (path : Path) :
    grow tmpRoot tree (.mkdir path) = (tree.mkdir path).getD tree := rfl

theorem grow_createFile (path : Path) (content : FileContent) :
    grow tmpRoot tree (.createFile path content) = (tree.writeFile path content).getD tree := rfl

theorem grow_writeSentinel (root : Path) (now : String) :
    grow tmpRoot tree (.writeSentinel root now) =
      (writeLedgerSentinel tmpRoot tree root now).toOption.getD tree := rfl

end

/-- Sentinels come from `write_ledger_sentinel` alone, called on directories named `.towow` outside
the system's temporary root. -/
def Lawful (tmpRoot : Path) : Growth → Prop
  | .mkdir _ => True
  | .createFile path _ => path.name ≠ LEDGER_SENTINEL_NAME
  | .writeSentinel root _ => root.name = LEDGER_DIR ∧ ¬tmpRoot <+: root

section

variable {tmpRoot : Path} {tree later : Tree} {root dir cwd project : Path} {growth : Growth}

theorem name_sentinelOf (dir : Path) : (sentinelOf dir).name = LEDGER_SENTINEL_NAME := by
  simp [sentinelOf, Path.name]

theorem exists_ledgerOf (h : root.name = LEDGER_DIR) : ∃ project, root = ledgerOf project := by
  rcases eq_nil_or_concat' root with rfl | ⟨project, last, rfl⟩
  · exact absurd h (by decide)
  · refine ⟨project, ?_⟩
    have hlast : last = LEDGER_DIR := by simpa [Path.name] using h
    rw [hlast, ledgerOf]

/-- A growth step makes the ledger root `root`. -/
structure Birth (tmpRoot : Path) (tree later : Tree) (root : Path) : Prop where
  fresh : sentinelSelfReferences tree root = false
  gate : ledgerBirthForkViolation tmpRoot tree root = none
  writable : tree.isDir root = true ∧ tree.isDir (sentinelOf root) = false
  born : ∀ dir, sentinelSelfReferences later dir = true ↔
    sentinelSelfReferences tree dir = true ∨ dir = root

theorem birth_of_written {now : String} (hfresh : sentinelSelfReferences tree root = false)
    (hgate : ledgerBirthForkViolation tmpRoot tree root = none)
    (h : tree.writeFile (sentinelOf root) (.json (sentinelRecord root now)) = some later) :
    Birth tmpRoot tree later root := by
  have hdrop : (sentinelOf root).dropLast = root := dropLast_concat
  refine ⟨hfresh, hgate, ?_, fun dir => ?_⟩
  · unfold Tree.writeFile at h
    split at h
    next hplace =>
      rw [hdrop] at hplace
      exact ⟨hplace.1, hplace.2.1⟩
    · cases h
  · have hget := tree.get_writeFile h (sentinelOf dir)
    simp only [sentinelOf_inj] at hget
    by_cases heq : dir = root
    · rw [if_pos heq] at hget
      refine iff_of_true (sentinelSelfReferences_iff.mpr ⟨_, hget, ?_⟩) (.inr heq)
      rw [heq]
      exact names_sentinelRecord root now
    · rw [if_neg heq] at hget
      rw [sentinelSelfReferences_congr hget, or_iff_left heq]

theorem selfReferences_mkdir (dir : Path) :
    sentinelSelfReferences ((tree.mkdir path).getD tree) dir = sentinelSelfReferences tree dir := by
  cases hmade : tree.mkdir path with
  | none => rfl
  | some later =>
    obtain ⟨hnew, hget⟩ := tree.get_mkdir hmade (sentinelOf dir)
    by_cases heq : sentinelOf dir = path
    · rw [if_pos heq] at hget
      rw [← heq] at hnew
      simp [sentinelSelfReferences, hget, hnew]
    · rw [if_neg heq] at hget
      exact sentinelSelfReferences_congr hget

theorem selfReferences_createFile (hname : path.name ≠ LEDGER_SENTINEL_NAME) (dir : Path) :
    sentinelSelfReferences ((tree.writeFile path content).getD tree) dir =
      sentinelSelfReferences tree dir := by
  cases hwritten : tree.writeFile path content with
  | none => rfl
  | some later =>
    have hne : sentinelOf dir ≠ path := fun heq => hname (heq ▸ name_sentinelOf dir)
    have hget := tree.get_writeFile hwritten (sentinelOf dir)
    rw [if_neg hne] at hget
    exact sentinelSelfReferences_congr hget

theorem grow_cases (tree : Tree) (hlawful : Lawful tmpRoot growth) :
    (∀ dir, sentinelSelfReferences (grow tmpRoot tree growth) dir =
      sentinelSelfReferences tree dir) ∨
    ∃ root now, growth = .writeSentinel root now ∧
      Birth tmpRoot tree (grow tmpRoot tree growth) root := by
  cases growth with
  | mkdir path => exact .inl selfReferences_mkdir
  | createFile path content => exact .inl (selfReferences_createFile hlawful)
  | writeSentinel root now =>
    rw [grow_writeSentinel]
    cases hwrite : writeLedgerSentinel tmpRoot tree root now with
    | error error => exact .inl fun dir => rfl
    | ok later =>
      rcases writeLedgerSentinel_cases hwrite with ⟨rfl, -⟩ | ⟨hfresh, hgate, hwritten⟩
      · exact .inl fun dir => rfl
      · exact .inr ⟨root, now, rfl, birth_of_written hfresh hgate hwritten⟩

theorem selfReferences_grow (hlawful : Lawful tmpRoot growth)
    (h : sentinelSelfReferences tree root = true) :
    sentinelSelfReferences (grow tmpRoot tree growth) root = true := by
  rcases grow_cases tree hlawful with hsame | ⟨_, _, -, hbirth⟩
  · rw [hsame, h]
  · exact (hbirth.born root).mpr (.inl h)

theorem whitelistedBetween_append (h : whitelistedBetween project (project ++ way ++ rest) =
  false) : whitelistedBetween project (ledgerOf (project ++ way)) = false := by
  unfold whitelistedBetween at h ⊢
  rw [append_assoc, relativeParts_append, any_append, Bool.or_eq_false_iff] at h
  rw [ledgerOf, append_assoc, relativeParts_append, any_append, h.1]
  decide

theorem whitelistedBetween_of_nearer (hnearer : dir <+: nearer) (hplace : nearer <+: place)
    (h : whitelistedBetween nearer place = true) : whitelistedBetween dir place = true := by
  obtain ⟨way, rfl⟩ := hnearer
  obtain ⟨rest, rfl⟩ := hplace
  unfold whitelistedBetween at h ⊢
  rw [relativeParts_append] at h
  rw [append_assoc, relativeParts_append, any_append, h, Bool.or_true]

theorem Nearest.grow (h : Nearest tree cwd project) (hlawful : Lawful tmpRoot growth)
    (hplain : whitelistedBetween project cwd = false) :
    Nearest (grow tmpRoot tree growth) cwd project := by
  refine ⟨selfReferences_grow hlawful h.selfReferences, h.above, fun other hother hroot => ?_⟩
  rcases grow_cases tree hlawful with hsame | ⟨root, now, rfl, hbirth⟩
  · rw [hsame] at hroot
    exact h.nearest other hother hroot
  · rcases (hbirth.born _).mp hroot with hold | rfl
    · exact h.nearest other hother hold
    · rcases prefix_or_prefix_of_prefix hother h.above with hprefix | hprefix
      · exact hprefix
      obtain ⟨way, rfl⟩ := hprefix
      rcases eq_nil_or_concat' way with rfl | ⟨front, last, rfl⟩
      · simp
      have hdrop : (ledgerOf (project ++ (front ++ [last]))).dropLast.dropLast =
          project ++ front := by
        rw [ledgerOf, dropLast_concat, ← append_assoc, dropLast_concat]
      have hfront : project ++ front <+: cwd := by
        refine List.IsPrefix.trans ?_ hother
        rw [← append_assoc]
        exact prefix_append _ _
      have hnearest : Nearest tree (project ++ front) project :=
        ⟨h.selfReferences, prefix_append _ _, fun other hother hroot =>
          h.nearest other (hother.trans hfront) hroot⟩
      have hresolve := resolve_eq_some.mpr ⟨project, hnearest, rfl⟩
      have hgate := hbirth.gate
      obtain ⟨rest, rfl⟩ := hother
      have hdropped : (ledgerOf project).dropLast = project := dropLast_concat
      unfold ledgerBirthForkViolation at hgate
      rw [if_neg hlawful.2, hdrop, hresolve] at hgate
      dsimp only at hgate
      rw [hdropped, whitelistedBetween_append hplain] at hgate
      cases hgate

/-- `lower` lies below the project directory of `upper`, with no whitelisted segment on the way. -/
structure Forks (upper lower : Path) : Prop where
  ne : upper ≠ lower
  below : upper.dropLast <+: lower
  proper : upper.dropLast ≠ lower
  plain : whitelistedBetween upper.dropLast lower = false

def ForkFree (tree : Tree) : Prop :=
  ∀ upper lower, sentinelSelfReferences tree upper = true →
    sentinelSelfReferences tree lower = true → ¬Forks upper lower

/-- Every sentinel file marks a ledger root in a directory named `.towow`. -/
def SentinelsSound (tree : Tree) : Prop :=
  ∀ dir content, tree.get (sentinelOf dir) = some (.file content) →
    dir.name = LEDGER_DIR ∧ sentinelSelfReferences tree dir = true

theorem Birth.not_forks (h : Birth tmpRoot tree later root) (htmp : ¬tmpRoot <+: root)
    (hname : root.name = LEDGER_DIR) (hupper : sentinelSelfReferences tree upper = true)
    (huppername : upper.name = LEDGER_DIR) : ¬Forks upper root := by
  intro hforks
  obtain ⟨project, rfl⟩ := exists_ledgerOf huppername
  obtain ⟨place, rfl⟩ := exists_ledgerOf hname
  have hdropped : ∀ project, (ledgerOf project).dropLast = project :=
    fun project => dropLast_concat
  have hbelow := hforks.below
  have hproper := hforks.proper
  have hplain := hforks.plain
  rw [hdropped] at hbelow hproper hplain
  have hprefix : project <+: place := (prefix_concat_iff.mp hbelow).resolve_left hproper
  obtain ⟨way, rfl⟩ := hprefix
  rcases eq_nil_or_concat' way with rfl | ⟨front, last, rfl⟩
  · exact hforks.ne (by rw [append_nil])
  have hgate := h.gate
  unfold ledgerBirthForkViolation at hgate
  have hstart : (project ++ (front ++ [last])).dropLast = project ++ front := by
    rw [← append_assoc, dropLast_concat]
  rw [if_neg htmp, hdropped, hstart] at hgate
  rcases resolve_spec tree (project ++ front) with ⟨nearest, hnearest, hresolve⟩ | ⟨-, hnone⟩
  · rw [hresolve] at hgate
    dsimp only at hgate
    rw [hdropped] at hgate
    split at hgate
    next hlisted =>
      have hplace : nearest <+: ledgerOf (project ++ (front ++ [last])) := by
        refine hnearest.above.trans ?_
        rw [ledgerOf, ← append_assoc, append_assoc]
        exact prefix_append _ _
      have hthrough := whitelistedBetween_of_nearer
        (hnearest.nearest project (prefix_append _ _) hupper) hplace hlisted
      rw [hplain] at hthrough
      cases hthrough
    · cases hgate
  · have := hnone project (prefix_append _ _)
    rw [hupper] at this
    cases this

theorem sentinel_of_grow (hlawful : Lawful tmpRoot growth)
    (h : (grow tmpRoot tree growth).get (sentinelOf dir) = some (.file content)) :
    tree.get (sentinelOf dir) = some (.file content) ∨
      dir.name = LEDGER_DIR ∧ sentinelSelfReferences (grow tmpRoot tree growth) dir = true := by
  cases growth with
  | mkdir path =>
    rw [grow_mkdir] at h
    cases hmade : tree.mkdir path with
    | none =>
      rw [hmade] at h
      exact .inl h
    | some later =>
      rw [hmade, getD_some, (tree.get_mkdir hmade _).2] at h
      split at h
      · cases h
      · exact .inl h
  | createFile path written =>
    rw [grow_createFile] at h
    cases hwritten : tree.writeFile path written with
    | none =>
      rw [hwritten] at h
      exact .inl h
    | some later =>
      have hne : sentinelOf dir ≠ path := fun heq => hlawful (heq ▸ name_sentinelOf dir)
      rw [hwritten, getD_some, tree.get_writeFile hwritten, if_neg hne] at h
      exact .inl h
  | writeSentinel root now =>
    rw [grow_writeSentinel] at h ⊢
    cases hwrite : writeLedgerSentinel tmpRoot tree root now with
    | error error =>
      rw [hwrite] at h
      exact .inl h
    | ok later =>
      rw [hwrite] at h
      rcases writeLedgerSentinel_cases hwrite with ⟨rfl, -⟩ | ⟨hfresh, hgate, hwritten⟩
      · exact .inl h
      · by_cases heq : dir = root
        · refine .inr ⟨heq ▸ hlawful.1, ?_⟩
          exact ((birth_of_written hfresh hgate hwritten).born dir).mpr (.inr heq)
        · have hget := tree.get_writeFile hwritten (sentinelOf dir)
          rw [if_neg (fun hsame => heq (sentinelOf_inj.mp hsame))] at hget
          exact .inl (hget ▸ h)

theorem sentinelsSound_grow (hlawful : Lawful tmpRoot growth) (h : SentinelsSound tree) :
    SentinelsSound (grow tmpRoot tree growth) := by
  intro dir content hget
  rcases sentinel_of_grow hlawful hget with hold | hnew
  · exact ⟨(h dir content hold).1, selfReferences_grow hlawful (h dir content hold).2⟩
  · exact hnew

theorem SentinelsSound.named (h : SentinelsSound tree) {dir : Path}
    (hself : sentinelSelfReferences tree dir = true) : dir.name = LEDGER_DIR := by
  obtain ⟨value, hget, -⟩ := sentinelSelfReferences_iff.mp hself
  exact (h dir _ hget).1

theorem giveBirth_ok (hgate : ledgerBirthForkViolation tmpRoot tree root = none)
    (hdir : tree.isDir root = true) (hplace : tree.isDir (sentinelOf root) = false)
    (now : String) : ∃ later, giveBirth tmpRoot tree root now = .ok later ∧
      tree.writeFile (sentinelOf root) (.json (sentinelRecord root now)) = some later := by
  have hdrop : (sentinelOf root).dropLast = root := dropLast_concat
  have hwritten :
      (tree.writeFile (sentinelOf root) (.json (sentinelRecord root now))).isSome := by
    unfold Tree.writeFile
    rw [dif_pos ⟨by rw [hdrop]; exact hdir, hplace, by simp [sentinelOf]⟩]
    rfl
  obtain ⟨later, hlater⟩ := Option.isSome_iff_exists.mp hwritten
  refine ⟨later, ?_, hlater⟩
  unfold giveBirth
  rw [hgate, hlater]

theorem birth_of_admitted (now : String) (h : SentinelsSound tree)
    (hfresh : sentinelSelfReferences tree root = false)
    (hgate : ledgerBirthForkViolation tmpRoot tree root = none)
    (hdir : tree.isDir root = true) (hplace : tree.isDir (sentinelOf root) = false) :
    Birth tmpRoot tree (grow tmpRoot tree (.writeSentinel root now)) root := by
  have hnone : tree.get (sentinelOf root) = none := by
    cases hget : tree.get (sentinelOf root) with
    | none => rfl
    | some node =>
      cases node with
      | dir =>
        rw [Tree.isDir, hget] at hplace
        cases hplace
      | file content =>
        rw [(h root content hget).2] at hfresh
        cases hfresh
  obtain ⟨later, hbirth, hwritten⟩ := giveBirth_ok hgate hdir hplace now
  have hwrite : writeLedgerSentinel tmpRoot tree root now = .ok later := by
    unfold writeLedgerSentinel
    rw [hnone]
    exact hbirth
  rw [grow_writeSentinel, hwrite]
  exact birth_of_written hfresh hgate hwritten

theorem Birth.forkFree_iff (h : Birth tmpRoot tree later root) (htmp : ¬tmpRoot <+: root)
    (hname : root.name = LEDGER_DIR)
    (hnamed : ∀ dir, sentinelSelfReferences tree dir = true → dir.name = LEDGER_DIR)
    (hfree : ForkFree tree) :
    ForkFree later ↔ ∀ lower, sentinelSelfReferences tree lower = true → ¬Forks root lower := by
  constructor
  · intro hlater lower hlower
    exact hlater root lower ((h.born root).mpr (.inr rfl)) ((h.born lower).mpr (.inl hlower))
  · intro hunshadowed upper lower hupper hlower
    rcases (h.born upper).mp hupper with hupper | rfl
    · rcases (h.born lower).mp hlower with hlower | rfl
      · exact hfree upper lower hupper hlower
      · exact h.not_forks htmp hname hupper (hnamed upper hupper)
    · rcases (h.born lower).mp hlower with hlower | rfl
      · exact hunshadowed lower hlower
      · exact fun hforks => hforks.ne rfl

/-- No ledger root lies below the project directory of a place where the gate lets a sentinel be
written, unless set apart. -/
def NoneBelow (tmpRoot : Path) (tree : Tree) : Growth → Prop
  | .writeSentinel root _ =>
    sentinelSelfReferences tree root = false →
    ledgerBirthForkViolation tmpRoot tree root = none →
    tree.isDir root = true → tree.isDir (sentinelOf root) = false →
    ∀ lower, sentinelSelfReferences tree lower = true → ¬Forks root lower
  | _ => True

theorem forkFree_grow_iff (hlawful : Lawful tmpRoot growth) (hsound : SentinelsSound tree)
    (hfree : ForkFree tree) :
    ForkFree (grow tmpRoot tree growth) ↔ NoneBelow tmpRoot tree growth := by
  have hnamed : ∀ dir, sentinelSelfReferences tree dir = true → dir.name = LEDGER_DIR :=
    fun dir => hsound.named
  rcases grow_cases tree hlawful with hsame | ⟨root, now, rfl, hbirth⟩
  · have hlater : ForkFree (grow tmpRoot tree growth) := by
      intro upper lower hupper hlower
      rw [hsame] at hupper hlower
      exact hfree upper lower hupper hlower
    refine iff_of_true hlater ?_
    cases growth with
    | writeSentinel root now =>
      intro hfresh hgate hdir hplace
      have hbirth := birth_of_admitted now hsound hfresh hgate hdir hplace
      exact ((hbirth.forkFree_iff hlawful.2 hlawful.1 hnamed hfree).mp hlater)
    | _ => exact trivial
  · rw [hbirth.forkFree_iff hlawful.2 hlawful.1 hnamed hfree]
    constructor
    · exact fun hnone _ _ _ _ => hnone
    · exact fun hnone => hnone hbirth.fresh hbirth.gate hbirth.writable.1 hbirth.writable.2

end

section

variable {tmpRoot : Path} {tree later : Tree} {growths : List Growth}

theorem ForkFree.of_grow {growth : Growth} (hlawful : Lawful tmpRoot growth)
    (h : ForkFree (grow tmpRoot tree growth)) : ForkFree tree := by
  intro upper lower hupper hlower
  exact h upper lower (selfReferences_grow hlawful hupper) (selfReferences_grow hlawful hlower)

abbrev Grows (tmpRoot : Path) (guard : Tree → Growth → Prop) : Tree → List Growth → Tree → Prop :=
  Run (fun tree growth => some (grow tmpRoot tree growth)) guard

theorem sentinelsSound_of_none (h : ∀ dir, tree.get (sentinelOf dir) = none) :
    SentinelsSound tree ∧ ForkFree tree := by
  have hself : ∀ dir, sentinelSelfReferences tree dir = false := by
    intro dir
    unfold sentinelSelfReferences
    rw [h]
  constructor
  · intro dir content hget
    rw [h] at hget
    cases hget
  · intro upper lower hupper
    rw [hself] at hupper
    cases hupper

theorem Grows.sentinelsSound (hstart : SentinelsSound tree)
    (h : Grows tmpRoot (fun _ growth => Lawful tmpRoot growth) tree growths later) :
    SentinelsSound later :=
  h.invariant hstart fun _ _ _ hsound hlawful hnext =>
    some.inj hnext ▸ sentinelsSound_grow hlawful hsound

/-- From a tree without sentinels: the roots never fork exactly when no birth happens above a
root that is already there, and a root that was found stays the one that is found. -/
theorem births_fork_iff (hstart : ∀ dir, tree.get (sentinelOf dir) = none)
    (hrun : Grows tmpRoot (fun _ growth => Lawful tmpRoot growth) tree growths later) :
    (ForkFree later ↔ Grows tmpRoot (fun state growth =>
      Lawful tmpRoot growth ∧ NoneBelow tmpRoot state growth) tree growths later) ∧
    ∀ more last, Grows tmpRoot (fun _ growth => Lawful tmpRoot growth) later more last →
      ∀ cwd root, resolveCanonicalLedgerRoot later cwd = some root →
        whitelistedBetween root.dropLast cwd = false →
        resolveCanonicalLedgerRoot last cwd = some root := by
  obtain ⟨hsound, hfree⟩ := sentinelsSound_of_none hstart
  constructor
  · constructor
    · intro hlater
      induction hrun with
      | nil => exact Run.nil
      | snoc hrun hlawful hnext ih =>
        cases hnext
        have hbefore := ForkFree.of_grow hlawful hlater
        exact Run.snoc (ih hbefore) ⟨hlawful,
          (forkFree_grow_iff hlawful (Grows.sentinelsSound hsound hrun) hbefore).mp hlater⟩ rfl
    · intro hrun
      refine (hrun.invariant (I := fun state => SentinelsSound state ∧ ForkFree state)
        ⟨hsound, hfree⟩ fun state growth next hinv hguard hnext => ?_).2
      cases hnext
      exact ⟨sentinelsSound_grow hguard.1 hinv.1,
        (forkFree_grow_iff hguard.1 hinv.1 hinv.2).mpr hguard.2⟩
  · intro more last hmore cwd root hroot hplain
    obtain ⟨project, hnearest, rfl⟩ := resolve_eq_some.mp hroot
    rw [show (ledgerOf project).dropLast = project from dropLast_concat] at hplain
    refine resolve_eq_some.mpr ⟨project, ?_, rfl⟩
    refine hmore.invariant (I := fun state => Nearest state cwd project) hnearest
      fun state growth next hstate hlawful hnext => ?_
    cases hnext
    exact hstate.grow hlawful hplain

end

def closedOfAll (entries : Dict Path Node) : Bool :=
  entries.all fun entry => entry.1 = [] || entries.get entry.1.dropLast = some .dir

theorem closed_of_all (h : closedOfAll entries = true) : Closed entries := by
  intro path node hget hne
  have hentry := all_eq_true.mp h _ (Dict.mem_of_get hget)
  simpa [hne] using hentry

def sampleTree : Tree :=
  ⟨[([], .dir), (["tmp"], .dir), (["a"], .dir), (["a", ".towow"], .dir), (["a", "b"], .dir),
    (["a", "b", ".towow"], .dir)], closed_of_all (by decide)⟩

theorem sampleTree_no_sentinel (dir : Path) : sampleTree.get (sentinelOf dir) = none := by
  refine Dict.get_eq_none_iff.mpr fun hmem => ?_
  have hall : ∀ path ∈ Dict.keys sampleTree.entries, path.getLast? ≠ some LEDGER_SENTINEL_NAME := by
    decide
  exact hall _ hmem (by simp [sentinelOf])

def innerFirst : List Growth :=
  [.writeSentinel ["a", "b", ".towow"] "t1", .writeSentinel ["a", ".towow"] "t2"]

def outerFirst : List Growth :=
  [.writeSentinel ["a", ".towow"] "t1", .writeSentinel ["a", "b", ".towow"] "t2"]

def grown (growths : List Growth) : Tree := growths.foldl (grow ["tmp"]) sampleTree

theorem grows_grown {growths : List Growth} (h : ∀ growth ∈ growths, Lawful ["tmp"] growth) :
    Grows ["tmp"] (fun _ growth => Lawful ["tmp"] growth) sampleTree growths (grown growths) := by
  refine Run.of_foldlM (fun growth hmem _ => h growth hmem) ?_
  exact foldlM_pure

theorem births_fork_iff_outerFirst :
    (ForkFree (grown outerFirst) ↔ Grows ["tmp"] (fun state growth =>
      Lawful ["tmp"] growth ∧ NoneBelow ["tmp"] state growth) sampleTree outerFirst
        (grown outerFirst)) ∧
    ∀ more last, Grows ["tmp"] (fun _ growth => Lawful ["tmp"] growth) (grown outerFirst) more
        last →
      ∀ cwd root, resolveCanonicalLedgerRoot (grown outerFirst) cwd = some root →
        whitelistedBetween root.dropLast cwd = false →
        resolveCanonicalLedgerRoot last cwd = some root :=
  births_fork_iff sampleTree_no_sentinel (grows_grown (by simp [outerFirst, Lawful, Path.name]; decide))

/-- The inner ledger first, the outer one after it: both are canonical. -/
theorem inner_then_outer_fork :
    (∀ dir, sampleTree.get (sentinelOf dir) = none) ∧
    Grows ["tmp"] (fun _ growth => Lawful ["tmp"] growth) sampleTree innerFirst
      (grown innerFirst) ∧
    sentinelSelfReferences (grown innerFirst) ["a", ".towow"] = true ∧
    sentinelSelfReferences (grown innerFirst) ["a", "b", ".towow"] = true ∧
    Forks ["a", ".towow"] ["a", "b", ".towow"] :=
  ⟨sampleTree_no_sentinel, grows_grown (by simp [innerFirst, Lawful, Path.name]; decide),
    by decide +kernel, by decide +kernel, ⟨by decide, by decide, by decide, by decide⟩⟩

end Flowness.FsGuard
