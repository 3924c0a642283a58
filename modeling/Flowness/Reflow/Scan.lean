import Flowness.Planning.DispatcherView

/-!
What the reflow rounds read: the committed log, the worktree directories and the dispatch directory,
and which worktrees they take for stranded, for blocked by a conflict, or for done.
-/

namespace Flowness.Reflow

open List Library Planning

/-- A committed record, as `_unwrap_stub_rewrap` reads it. -/
structure ReflowRecord where
  eventId : String
  kind : String
  payload : Dict String Json
deriving DecidableEq

/-- `_record_src`. -/
def ReflowRecord.src (record : ReflowRecord) : Dict String Json := afterOrSelf record.payload

structure StrandedWorktree where
  taskId : String
  worktreeId : String
  completionEventId : String
deriving DecidableEq, Repr

/-- The files of the three paths, next to the log: the stamps that name the worktree of a task, the
directories that exist, the commits that main reaches, the conflict markers in the order of their
names, the recovery markers with their times, the counters and the escalated markers. -/
structure ReflowDisk where
  log : List ReflowRecord
  stamps : Dict String String
  worktrees : List String
  reachable : List String
  conflicts : List String
  markers : Dict String Int
  mintCounts : Dict String Nat
  escalated : List String

structure ReflowEnv where
  fixWorktreeId : String → String
  mintCap : Nat
  staleAfter : Nat
  staleAfter_pos : 0 < staleAfter

def extractOutcome (payload : Dict String Json) : Option String :=
  ((Json.lookup (Json.lookup payload "after_state").asDict "outcome").text?).or
    (Json.lookup payload "outcome").text?

def extractTaskId (payload : Dict String Json) : Option String :=
  (Json.nonBlank (Json.lookup payload "after_state").asDict "task_id").or
    (Json.nonBlank payload "task_id")

def latest {ν : Type} (log : List ReflowRecord) (entry : ReflowRecord → Option (String × ν)) :
    Dict String ν :=
  (log.filterMap entry).foldl (fun filled entry => filled.set entry.1 entry.2) []

def promotedIds (log : List ReflowRecord) : List String :=
  log.filterMap fun record =>
    if record.kind = "WorktreePromoted" then Json.nonBlank record.payload "task_id" else none

def completedSuccess (log : List ReflowRecord) : Dict String String :=
  latest log fun record =>
    if record.kind = "TaskRunCompleted" ∧ extractOutcome record.payload = some "success" then
      (extractTaskId record.payload).map fun taskId => (taskId, record.eventId)
    else none

def fixReflowClosedOutcomes : List String := ["resolved", "partially_resolved"]

def closedFix (record : ReflowRecord) : Option String :=
  if record.kind = "FixCompleted" ∧
      ((Json.lookup record.src "outcome").text?.any (· ∈ fixReflowClosedOutcomes)) = true then
    Json.nonBlank record.src "fix_id"
  else none

/-- `worktree_commit_sha`; `strip` is the text without its blanks. -/
def commitSha (strip : String → String) (record : ReflowRecord) : Option String :=
  ((Json.lookup record.src "worktree_commit_sha").text?.map strip).filter (· ≠ "")

def proposedFix (record : ReflowRecord) : Option String :=
  if record.kind = "FixProposed" then Json.nonBlank record.src "fix_id" else none

def createdFinding (record : ReflowRecord) : Option String :=
  if record.kind = "FindingCreated" then Json.nonBlank record.src "finding_id" else none

def artifact (record : ReflowRecord) : Option String :=
  Json.nonBlank (Json.lookup record.src "target").asDict "artifact"

section

variable (env : ReflowEnv) (strip : String → String) (disk : ReflowDisk)

def closedFixWorktrees : List (StrandedWorktree × String) :=
  let shas := latest disk.log fun record => (proposedFix record).bind fun fixId =>
    (commitSha strip record).map fun sha => (fixId, sha)
  let findings := latest disk.log fun record => (proposedFix record).bind fun fixId =>
    (Json.nonBlank record.src "related_finding_id").map fun findingId => (fixId, findingId)
  let findingEvents := latest disk.log fun record =>
    (createdFinding record).map fun findingId => (findingId, record.eventId)
  let closings := latest disk.log fun record =>
    (closedFix record).map fun fixId => (fixId, record.eventId)
  closings.filterMap fun entry => do
    let sha ← shas.get entry.1
    let findingId ← findings.get entry.1
    let eventId ← findingEvents.get findingId
    return (⟨entry.1, env.fixWorktreeId eventId, entry.2⟩, sha)

def scanOrphanedFixWorktrees : List StrandedWorktree :=
  ((closedFixWorktrees env strip disk).filter fun entry =>
    decide (entry.1.worktreeId ∈ disk.worktrees ∧ entry.1.worktreeId ∉ disk.conflicts ∧
      entry.2 ∉ disk.reachable)).map Prod.fst

def completedWorktrees : List StrandedWorktree :=
  (completedSuccess disk.log).filterMap fun entry =>
    (disk.stamps.get entry.1).map fun worktreeId => ⟨entry.1, worktreeId, entry.2⟩

def scanStrandedWorktrees : List StrandedWorktree :=
  let stranded := (completedWorktrees disk).filter fun worktree =>
    decide (worktree.worktreeId ∉ promotedIds disk.log ∧ worktree.worktreeId ∈ disk.worktrees ∧
      worktree.worktreeId ∉ disk.conflicts)
  (scanOrphanedFixWorktrees env strip disk).foldl (fun found worktree =>
    if worktree.worktreeId ∈ found.map StrandedWorktree.worktreeId then found
    else found ++ [worktree]) stranded

def conflictReflowRiskSurface : String := "agent-first-reflow-repair"

/-- The promoted ids of the conflict index, which reads them off `after_state`. -/
def promotedSources : List String :=
  disk.log.filterMap fun record =>
    if record.kind = "WorktreePromoted" then Json.nonBlank record.src "task_id" else none

def conflictFindings (worktreeId : String) : List (String × String) :=
  disk.log.filterMap fun record =>
    if (Json.lookup record.src "risk_surface") = .str conflictReflowRiskSurface ∧
        artifact record = some worktreeId then
      (createdFinding record).map fun findingId => (findingId, record.eventId)
    else none

def closedFixesOf (findingId : String) : List (Option String) :=
  disk.log.filterMap fun record =>
    if Json.nonBlank record.src "related_finding_id" = some findingId then
      (proposedFix record).bind fun fixId =>
        if fixId ∈ disk.log.filterMap closedFix then some (commitSha strip record) else none
    else none

def conflictReflowResolved (worktreeId : String) : Bool :=
  decide (worktreeId ∈ promotedSources disk) ||
    (conflictFindings disk worktreeId).any fun finding =>
      (closedFixesOf strip disk finding.1).any fun sha =>
        decide (env.fixWorktreeId finding.2 ∈ promotedSources disk) ||
          sha.any (fun sha => decide (sha ∈ disk.reachable))

/-- The conflict markers that `reconcile_blocked_reflows` acts on. -/
def blockedWorktrees : List String :=
  disk.conflicts.filter fun worktreeId =>
    decide (worktreeId ∈ disk.worktrees) && !conflictReflowResolved env strip disk worktreeId

end

section

variable {env : ReflowEnv} {strip : String → String} {disk : ReflowDisk} {worktreeId : String}

/-- A worktree of a completed task is still there, without a conflict, and not promoted. -/
def CompletedStranded (disk : ReflowDisk) (worktreeId : String) : Prop :=
  worktreeId ∈ (completedWorktrees disk).map StrandedWorktree.worktreeId ∧
    worktreeId ∉ promotedIds disk.log ∧ worktreeId ∈ disk.worktrees ∧ worktreeId ∉ disk.conflicts

/-- A worktree of a closed fix is still there, without a conflict, and main does not reach its
commit. -/
def FixStranded (env : ReflowEnv) (strip : String → String) (disk : ReflowDisk)
    (worktreeId : String) : Prop :=
  ∃ entry ∈ closedFixWorktrees env strip disk, entry.1.worktreeId = worktreeId ∧
    worktreeId ∈ disk.worktrees ∧ worktreeId ∉ disk.conflicts ∧ entry.2 ∉ disk.reachable

theorem mem_foldl_distinct {found added : List StrandedWorktree} :
    worktreeId ∈ (added.foldl (fun found worktree =>
        if worktree.worktreeId ∈ found.map StrandedWorktree.worktreeId then found
        else found ++ [worktree]) found).map StrandedWorktree.worktreeId ↔
      worktreeId ∈ found.map StrandedWorktree.worktreeId ∨
        worktreeId ∈ added.map StrandedWorktree.worktreeId := by
  induction added generalizing found with
  | nil => simp
  | cons worktree added ih =>
    rw [foldl_cons, ih]
    by_cases hfound : worktree.worktreeId ∈ found.map StrandedWorktree.worktreeId
    · rw [if_pos hfound, map_cons, mem_cons]
      constructor
      · intro h
        exact h.imp id .inr
      · intro h
        obtain h | rfl | h := h
        · exact .inl h
        · exact .inl hfound
        · exact .inr h
    · simp only [if_neg hfound, map_append, map_cons, map_nil, mem_append,
        mem_cons, not_mem_nil, or_false, or_assoc]

theorem mem_scanStrandedWorktrees :
    worktreeId ∈ (scanStrandedWorktrees env strip disk).map StrandedWorktree.worktreeId ↔
      CompletedStranded disk worktreeId ∨ FixStranded env strip disk worktreeId := by
  unfold scanStrandedWorktrees
  rw [mem_foldl_distinct]
  apply or_congr
  · simp only [CompletedStranded, mem_map, mem_filter, decide_eq_true_eq]
    constructor
    · intro h
      obtain ⟨worktree, ⟨hmem, hstranded⟩, rfl⟩ := h
      exact ⟨⟨worktree, hmem, rfl⟩, hstranded⟩
    · intro h
      obtain ⟨⟨worktree, hmem, rfl⟩, hstranded⟩ := h
      exact ⟨worktree, ⟨hmem, hstranded⟩, rfl⟩
  · simp only [FixStranded, scanOrphanedFixWorktrees, map_map, mem_map, mem_filter,
      decide_eq_true_eq, Function.comp]
    constructor
    · intro h
      obtain ⟨entry, ⟨hmem, hstranded⟩, rfl⟩ := h
      exact ⟨entry, hmem, rfl, hstranded⟩
    · intro h
      obtain ⟨entry, hmem, rfl, hstranded⟩ := h
      exact ⟨entry, ⟨hmem, hstranded⟩, rfl⟩

end

end Flowness.Reflow
