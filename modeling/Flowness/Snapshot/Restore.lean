import Flowness.Snapshot.Bundles

/-!
What a restore leads to. The cutoff of a manifest is exact if the snapshot reached the number below
its counter; then the replay gives the head, whatever the reducers are.
-/

namespace Flowness.Snapshot

open Option Library Schemas Ledger CommitGate Projection

section

variable {σ : Type} {reduce : List EventRecord → Files σ → EventRecord → Files σ}

namespace World

variable {world : World σ} {next : Reader} {new : List EventRecord}

theorem mem_applied_catchup {reader : Reader} (h : reader.Sound) (rebuilt : Bool)
    {record : EventRecord} : record ∈ (reader.catchup rebuilt).applied ↔
      record ∈ reader.log.records ∧ reader.Reaches record := by
  rw [(h.catchup rebuilt).applied, log_catchup, List.mem_filter, decide_eq_true_eq]
  constructor
  · exact fun ⟨hrecord, hbelow⟩ => ⟨hrecord, (lt_cursor_catchup h hrecord rebuilt).mp hbelow⟩
  · exact fun ⟨hrecord, hreaches⟩ => ⟨hrecord, (lt_cursor_catchup h hrecord rebuilt).mpr hreaches⟩

theorem any_pending_iff (h : world.reader.Sound) (rebuilt : Bool) :
    (world.reader.caughtUpIndex rebuilt).pendingEvents.any isNodeGraphEvent = true ↔
      world.PendingNode := by
  rw [List.any_eq_true]
  constructor
  · rintro ⟨node, hnode, hkind⟩
    have hlog : node ∈ world.reader.log.records :=
      (h.caughtUpIndex rebuilt).behind.subset (List.mem_of_mem_filter hnode)
    obtain ⟨hholds, hrange⟩ := (mem_pendingEvents hlog rebuilt).mp hnode
    exact ⟨node, hlog, hkind, hholds, hrange⟩
  · rintro ⟨node, hlog, hkind, hholds, hrange⟩
    exact ⟨node, (mem_pendingEvents hlog rebuilt).mpr ⟨hholds, hrange⟩, hkind⟩

theorem index_catchup (reader : Reader) (rebuilt : Bool) :
    (reader.catchup rebuilt).index = (reader.caughtUpIndex rebuilt).index := by
  unfold Reader.catchup
  dsimp only
  split <;> rfl

theorem nodeEvents_catchup (h : world.reader.Sound) (rebuilt : Bool) :
    (world.PendingNode → (world.catchup reduce rebuilt).store.nodeEvents =
        some ((world.reader.caughtUpIndex rebuilt).index.seen.records.filter isNodeGraphEvent)) ∧
      (¬world.PendingNode →
        (world.catchup reduce rebuilt).store.nodeEvents = world.store.nodeEvents) := by
  unfold catchup
  rw [store_follow (follows_catchup world.reader rebuilt), index_catchup]
  unfold StoreFiles.apply
  rw [← any_pending_iff h rebuilt]
  exact ⟨fun hany => if_pos hany, fun hnone => if_neg hnone⟩

theorem exactCutoff_iff (h : world.reader.Sound) (rebuilt : Bool) :
    ExactCutoff (world.catchup reduce rebuilt).bundle world.cutoff ↔ world.CutoffReached := by
  have hascending := applied_ascending (h.catchup rebuilt)
  obtain ⟨hfolded, hkept⟩ : (_ → (world.catchup reduce rebuilt).store.nodeEvents = _) ∧ _ :=
    nodeEvents_catchup h rebuilt
  constructor
  · rintro ⟨⟨last, hlast, hcutoff⟩, hshown⟩
    obtain ⟨hlog, hreaches⟩ := (mem_applied_catchup h rebuilt).mp (List.mem_of_getLast? hlast)
    refine ⟨⟨last, hlog, hcutoff, hreaches⟩, ?_, ?_, ?_⟩
    · intro record hrecord hbelow
      have hmem := (mem_applied_catchup h rebuilt).mpr ⟨hrecord, .inl hbelow⟩
      have hle : record.sequenceNumber ≤ last.sequenceNumber := hascending.key_le_getLast hlast hmem
      omega
    · intro hpending node hnode hkind hholds
      have hseen := (mem_seen_caughtUpIndex hnode rebuilt).mpr hholds
      refine hshown node ?_
      unfold bundle
      rw [hfolded hpending]
      exact List.mem_filter.mpr ⟨hseen, hkind⟩
    · intro hnone node hnode
      refine hshown node ?_
      unfold bundle
      rw [hkept hnone]
      exact hnode
  · rintro ⟨⟨record, hrecord, hcutoff, hreaches⟩, happlied, hgraphs, hold⟩
    have hmem := (mem_applied_catchup h rebuilt).mpr ⟨hrecord, hreaches⟩
    refine ⟨?_, ?_⟩
    · cases hlast : (world.reader.catchup rebuilt).applied.getLast? with
      | none =>
        rw [List.getLast?_eq_none_iff.mp hlast] at hmem
        contradiction
      | some last =>
        refine ⟨last, hlast, ?_⟩
        have hle : record.sequenceNumber ≤ last.sequenceNumber :=
          hascending.key_le_getLast hlast hmem
        obtain ⟨hlog, hbelow | ⟨hbelow, -⟩⟩ :=
          (mem_applied_catchup h rebuilt).mp (List.mem_of_getLast? hlast)
        · have := happlied last hlog hbelow
          omega
        · unfold cutoff at hcutoff ⊢
          omega
    · intro node hnode
      unfold bundle at hnode
      by_cases hpending : world.PendingNode
      · rw [hfolded hpending] at hnode
        obtain ⟨hseen, hkind⟩ := List.mem_filter.mp hnode
        have hlog : node ∈ world.reader.log.records :=
          (h.caughtUpIndex rebuilt).behind.subset hseen
        exact hgraphs hpending node hlog hkind ((mem_seen_caughtUpIndex hlog rebuilt).mp hseen)
      · rw [hkept hpending] at hnode
        exact hold hpending node hnode

theorem bundleSound_of_exact (h : world.Sound reduce) {cutoff : Nat}
    (hexact : ExactCutoff world.bundle cutoff) :
    BundleSound reduce world.reader.log world.bundle cutoff := by
  obtain ⟨last, hlast, hcutoff⟩ := hexact.last
  have hmem := List.mem_of_getLast? hlast
  have hlog := mem_log_of_applied h.reader hmem
  refine ⟨hexact, ?_, ?_, h.files, h.nodes⟩
  · rw [← hcutoff]
    exact CommittedLog.sequenceNumber_lt_next hlog
  · have hbelow : last.sequenceNumber < world.reader.cursor := by
      unfold bundle at hmem
      rw [h.reader.applied] at hmem
      simpa using (List.mem_filter.mp hmem).2
    unfold bundle
    rw [h.reader.applied]
    refine List.filter_congr fun record hrecord => decide_eq_decide.mpr ⟨fun hlt => ?_, fun hlt => ?_⟩
    · have happlied : record ∈ world.reader.applied := by
        rw [h.reader.applied]
        exact List.mem_filter.mpr ⟨hrecord, decide_eq_true hlt⟩
      have hle : record.sequenceNumber ≤ last.sequenceNumber :=
        (applied_ascending h.reader).key_le_getLast hlast happlied
      omega
    · omega

theorem Sound.takeSnapshot (h : world.Sound reduce) (hreached : world.CutoffReached)
    (rebuilt : Bool) : (world.takeSnapshot reduce rebuilt).Sound reduce := by
  have hcaught := h.catchup rebuilt
  have hsame : (world.catchup reduce rebuilt).cutoff = world.cutoff :=
    congrArg (· - 1) (nextSequence_catchup world.reader rebuilt)
  refine ⟨hcaught.reader, hcaught.files, hcaught.nodes, fun cutoff bundle hget => ?_⟩
  unfold World.takeSnapshot keep at hget
  by_cases heq : cutoff = (world.catchup reduce rebuilt).cutoff
  · rw [heq, Dict.get_set_self] at hget
    rw [← some.inj hget, heq]
    exact bundleSound_of_exact hcaught (hsame ▸ (exactCutoff_iff h.reader rebuilt).mpr hreached)
  · rw [Dict.get_set_of_ne _ _ heq] at hget
    exact hcaught.snapshots cutoff bundle hget

theorem applied_eq_log {reader : Reader} (h : reader.Sound)
    (hreaches : ∀ record ∈ reader.log.records, reader.Reaches record) (rebuilt : Bool) :
    (reader.catchup rebuilt).applied = reader.log.records := by
  rw [(h.catchup rebuilt).applied, log_catchup]
  exact List.filter_eq_self.mpr fun record hrecord =>
    decide_eq_true ((lt_cursor_catchup h hrecord rebuilt).mpr (hreaches record hrecord))

theorem seen_eq_log (hnext : next.Sound) (hfollows : Follows world.reader next new)
    (happlied : next.applied = next.log.records) (hevent : event ∈ new)
    (hseen : ∀ record ∈ next.log.records, event.sequenceNumber < record.sequenceNumber →
      record ∈ next.index.seen.records) : next.index.seen.records = next.log.records := by
  obtain ⟨rest, hrest⟩ := hnext.behind
  have hdistinct := List.Nodup.of_map _ next.log.distinct
  rw [← hrest, List.nodup_append] at hdistinct
  have hnil : rest = [] := by
    refine List.eq_nil_iff_forall_not_mem.mpr fun record hmem => ?_
    have hlog : record ∈ next.log.records := hrest ▸ List.mem_append_right _ hmem
    have hvisible : record ∈ next.index.seen.records := by
      by_cases hle : record.sequenceNumber ≤ event.sequenceNumber
      · exact seen_of_applied hnext hfollows hevent (happlied ▸ hlog) hle
      · exact hseen record hlog (by omega)
    exact hdistinct.2.2 record hvisible record hmem rfl
  rw [← hrest, hnil, List.append_nil]

theorem sound_restoreBundle (h : world.reader.Sound) {bundle : Bundle σ} {cutoff : Nat}
    (hbundle : BundleSound reduce world.reader.log bundle cutoff) (target : StoreFiles σ) :
    (world.restoreBundle bundle cutoff target).reader.Sound where
  behind := h.behind
  cursor_le := hbundle.below
  applied := hbundle.reflected
  begun := h.begun

theorem files_restoreBundle {bundle : Bundle σ} {cutoff : Nat}
    (hcovered : world.TargetCovered bundle cutoff target) :
    (world.restoreBundle bundle cutoff target).store.files = bundle.store.files := by
  funext name
  unfold restoreBundle
  dsimp only
  cases hbundle : bundle.store.files name with
  | some file => rfl
  | none =>
    by_contra htarget
    exact hcovered.files name htarget hbundle

theorem nodeEvents_of_fit {reflected new : List EventRecord} {log : CommittedLog}
    (hfit : NodesFit nodes reflected log.records) (hlog : log.records = reflected ++ new)
    (hnew : new.any isNodeGraphEvent = false) :
    nodes = if log.records.any isNodeGraphEvent then some (log.records.filter isNodeGraphEvent)
      else none := by
  have hfresh : ∀ record ∈ new, isNodeGraphEvent record = false := by
    simpa using hnew
  cases nodes with
  | none =>
    rw [if_neg]
    rw [hlog, List.any_append, hnew, Bool.or_false, List.any_eq_true]
    rintro ⟨record, hrecord, hkind⟩
    rw [hfit record hrecord] at hkind
    contradiction
  | some folded =>
    obtain ⟨hne, visible, ⟨rest, hrest⟩, hfolded, hall⟩ := hfit
    have hdistinct := List.Nodup.of_map _ log.distinct
    rw [← hrest, List.nodup_append] at hdistinct
    have hnone : rest.filter isNodeGraphEvent = [] := by
      refine List.filter_eq_nil_iff.mpr fun record hmem hkind => ?_
      have hmember : record ∈ reflected ++ new := hlog ▸ hrest ▸ List.mem_append_right _ hmem
      rcases List.mem_append.mp hmember with hold | hnew
      · exact hdistinct.2.2 record (hall record hold hkind) record hmem rfl
      · rw [hfresh record hnew] at hkind
        contradiction
    have hfilter : log.records.filter isNodeGraphEvent = folded := by
      rw [← hrest, List.filter_append, hnone, List.append_nil, hfolded]
    have hany : log.records.any isNodeGraphEvent = true := by
      obtain ⟨record, hrecord⟩ := List.exists_mem_of_ne_nil folded hne
      rw [← hfilter] at hrecord
      obtain ⟨hmem, hkind⟩ := List.mem_filter.mp hrecord
      exact List.any_eq_true.mpr ⟨record, hmem, hkind⟩
    rw [if_pos hany, hfilter]

theorem catchup_head (h : world.reader.Sound)
    (hfiles : world.store.files =
      applyEvents reduce world.reader.log.records world.reader.applied fun _ => none)
    (hreaches : ∀ record ∈ world.reader.log.records, world.reader.Reaches record)
    (hnodes : (∃ node ∈ world.reader.log.records, isNodeGraphEvent node = true ∧
        world.reader.cursor ≤ node.sequenceNumber) ∨
      NodesFit world.store.nodeEvents world.reader.applied world.reader.log.records)
    (rebuilt : Bool) :
    (world.catchup reduce rebuilt).reader.applied = world.reader.log.records ∧
      (world.catchup reduce rebuilt).store = rebuiltStore reduce world.reader.log.records := by
  have hnext := h.catchup rebuilt
  have hfollows := follows_catchup world.reader rebuilt
  have happlied := applied_eq_log h hreaches rebuilt
  have hlog := log_catchup world.reader rebuilt
  have hstore := files_follow hnext hfollows (fun _ => mem_log_of_applied h) hfiles
  rw [happlied, hlog] at hstore
  refine ⟨happlied, ?_⟩
  unfold catchup
  rw [store_follow hfollows] at hstore ⊢
  unfold rebuiltStore
  refine StoreFiles.ext hstore ?_
  unfold StoreFiles.apply
  have hholds : ∀ record ∈ world.reader.log.records,
      world.reader.cursor ≤ record.sequenceNumber → world.reader.Holds record := by
    intro record hrecord hbehind
    rcases hreaches record hrecord with hbelow | ⟨-, hholds⟩
    · omega
    · exact hholds
  by_cases hany : (world.reader.caughtUpIndex rebuilt).pendingEvents.any isNodeGraphEvent = true
  · obtain ⟨event, hevent, hkind⟩ := List.any_eq_true.mp hany
    have hcommitted : event ∈ world.reader.log.records :=
      (h.caughtUpIndex rebuilt).behind.subset (List.mem_of_mem_filter hevent)
    have hrange := ((mem_pendingEvents hcommitted rebuilt).mp hevent).2
    have hseen := seen_eq_log hnext hfollows (happlied.trans (hlog ▸ rfl)) hevent (by
      intro record hrecord hlt
      rw [hlog] at hrecord
      rw [index_catchup]
      exact (mem_seen_caughtUpIndex hrecord rebuilt).mpr (hholds record hrecord (by omega)))
    rw [if_pos hany, if_pos (List.any_eq_true.mpr ⟨event, hcommitted, hkind⟩), hseen, hlog]
  · rw [if_neg hany]
    have hsplit := happlied.symm.trans hfollows.applied
    refine nodeEvents_of_fit (hnodes.resolve_left ?_) hsplit (by simpa using hany)
    rintro ⟨node, hnode, hkind, hbehind⟩
    refine hany (List.any_eq_true.mpr ⟨node, ?_, hkind⟩)
    refine (mem_pendingEvents hnode rebuilt).mpr ⟨hholds node hnode hbehind, hbehind, ?_⟩
    rcases hreaches node hnode with hbelow | ⟨hnext, -⟩
    · omega
    · exact hnext

theorem reproduces_restore (h : world.reader.Sound) {bundle : Bundle σ} {cutoff : Nat}
    (hbundle : BundleSound reduce world.reader.log bundle cutoff)
    (hcovered : world.TargetCovered bundle cutoff target) (rebuilt : Bool) :
    Reproduces reduce bundle cutoff
      ((world.restoreBundle bundle cutoff target).catchup reduce rebuilt) := by
  have hload := sound_restoreBundle h hbundle target
  have hreaches : ∀ record ∈ world.reader.log.records,
      (world.restoreBundle bundle cutoff target).reader.Reaches record := by
    intro record hrecord
    by_cases hbehind : cutoff < record.sequenceNumber
    · exact .inr (hcovered.head record hrecord hbehind)
    · exact .inl (show record.sequenceNumber < cutoff + 1 by omega)
  have hnodes : (∃ node ∈ world.reader.log.records, isNodeGraphEvent node = true ∧
      cutoff + 1 ≤ node.sequenceNumber) ∨
        NodesFit (bundle.store.nodeEvents.or target.nodeEvents) bundle.reflected
          world.reader.log.records := by
    cases hkept : bundle.store.nodeEvents with
    | some folded =>
      rw [some_or, ← hkept]
      exact .inr hbundle.nodes
    | none =>
      rw [none_or]
      cases htarget : target.nodeEvents with
      | none =>
        rw [← hkept]
        exact .inr hbundle.nodes
      | some left =>
        have hleft : target.nodeEvents ≠ none := by simp [htarget]
        exact .inl ((hcovered.nodes hleft).resolve_left (not_not_intro hkept))
  obtain ⟨happlied, hstore⟩ := catchup_head hload
    ((files_restoreBundle hcovered).trans hbundle.files) hreaches hnodes rebuilt
  have hlog : ((world.restoreBundle bundle cutoff target).catchup reduce rebuilt).reader.log =
      world.reader.log := log_catchup _ rebuilt
  exact ⟨hbundle.exact, happlied.trans (hlog ▸ rfl), hstore.trans (hlog ▸ rfl)⟩

theorem Sound.restore (h : world.Sound reduce) {bundle : Bundle σ} {cutoff : Nat}
    (hget : Dict.get world.snapshots cutoff = some bundle)
    (hcovered : world.TargetCovered bundle cutoff target) (rebuilt : Bool) :
    ((world.restoreBundle bundle cutoff target).catchup reduce rebuilt).Sound reduce := by
  have hbundle := h.snapshots cutoff bundle hget
  have hnext := (sound_restoreBundle h.reader hbundle target).catchup rebuilt
  obtain ⟨-, happlied, hstore⟩ := reproduces_restore h.reader hbundle hcovered rebuilt
  have hlog : ((world.restoreBundle bundle cutoff target).catchup reduce rebuilt).reader.log =
      world.reader.log := log_catchup _ rebuilt
  refine ⟨hnext, ?_, ?_, fun other held hheld => ?_⟩
  · rw [hstore, happlied]
    rfl
  · rw [hstore, happlied]
    unfold rebuiltStore StoreFiles.apply
    split
    next hany =>
      obtain ⟨node, hnode, hkind⟩ := List.any_eq_true.mp hany
      refine ⟨fun hnil => ?_, _, List.prefix_refl _, rfl, fun _ hrecord _ => hrecord⟩
      have hmem := List.mem_filter.mpr ⟨hnode, hkind⟩
      rw [hnil] at hmem
      contradiction
    next hnone =>
      exact fun record hrecord => by
        by_contra hkind
        exact hnone (List.any_eq_true.mpr ⟨record, hrecord, by simpa using hkind⟩)
  · rw [hlog]
    exact h.snapshots other held hheld

variable {env : WriterEnv}

theorem Sound.step (h : world.Sound reduce) (hguard : SnapshotStep world action)
    (hstep : world.step reduce env action = some after) : after.Sound reduce := by
  cases action with
  | read action =>
    obtain ⟨next, hread, rfl⟩ := map_eq_some_iff.mp hstep
    obtain ⟨new, hfollows⟩ := follows_readerStep hread
    exact h.follow (h.reader.step hread) hfollows
  | switch nextSequence index =>
    obtain ⟨hbehind, hstep⟩ := ite_none_right_eq_some.mp hstep
    cases hstep
    refine ⟨⟨hbehind, h.reader.cursor_le, h.reader.applied, fun _ _ _ hcall => ?_⟩, h.files,
      h.nodes, h.snapshots⟩
    cases hcall
  | snapshot rebuilt =>
    obtain ⟨-, hstep⟩ := ite_none_left_eq_some.mp hstep
    cases hstep
    exact h.takeSnapshot hguard rebuilt
  | restore cutoff target rebuilt =>
    obtain ⟨-, hstep⟩ := ite_none_left_eq_some.mp hstep
    obtain ⟨bundle, hget, rfl⟩ := map_eq_some_iff.mp hstep
    exact h.restore hget (hguard bundle hget) rebuilt

/-- A process that opens a log, with an empty store and no snapshot. -/
structure Opened (world : World σ) : Prop where
  reader : world.reader.Opened
  store : world.store = .empty
  snapshots : world.snapshots = []

theorem Opened.sound (h : world.Opened) : world.Sound reduce where
  reader := h.reader.sound
  files := by
    rw [h.store, h.reader.applied]
    rfl
  nodes := by
    rw [h.store, h.reader.applied]
    exact fun _ hmem => absurd hmem List.not_mem_nil
  snapshots := by
    rw [h.snapshots]
    exact fun _ _ hget => by cases hget

/-- In every run whose snapshots and restores meet their conditions, a restore leads to the head. -/
theorem restore_reproduces {start : World σ} (hopened : start.Opened)
    {actions : List (SnapshotAction σ)}
    (hrun : Run (World.step reduce env) SnapshotStep start actions world)
    {cutoff : Nat} {target : StoreFiles σ} {rebuilt : Bool} {after : World σ}
    (hguard : SnapshotStep world (.restore cutoff target rebuilt))
    (hrestore : world.step reduce env (.restore cutoff target rebuilt) = some after) :
    ∃ bundle, Dict.get world.snapshots cutoff = some bundle ∧
      Reproduces reduce bundle cutoff after := by
  have hsound : world.Sound reduce :=
    hrun.invariant hopened.sound fun _ _ _ h hguard hstep => h.step hguard hstep
  obtain ⟨-, hrestore⟩ := Option.ite_none_left_eq_some.mp hrestore
  obtain ⟨bundle, hget, rfl⟩ := Option.map_eq_some_iff.mp hrestore
  exact ⟨bundle, hget, reproduces_restore hsound.reader (hsound.snapshots cutoff bundle hget)
    (hguard bundle hget) rebuilt⟩

end World

end

abbrev Entries := List (String × Json)

def commitsOf (files : Files Entries) : List Json :=
  match (files "commit_history").bind (Dict.get · "commits") with
  | some (.arr commits) => commits
  | _ => []

def reduceCommitHistory (verdict : String) (files : Files Entries) (event : EventRecord) :
    Files Entries :=
  let entry := Json.obj [("commit_event_id", .str event.eventId.val),
    ("envelope_event_id", (event.payload.get "envelope_event_id").getD (.str "")),
    ("verdict", .str verdict), ("occurred_at_event_id", .str event.eventId.val)]
  fun name =>
    if name = "commit_history" then some [("commits", .arr (commitsOf files ++ [entry]))]
    else files name

/-- `_apply`, as far as the commit history goes. -/
def applyCommitHistory (_ : List EventRecord) (files : Files Entries) (event : EventRecord) :
    Files Entries :=
  match event.eventType with
  | .commitAccepted => reduceCommitHistory "accepted" files event
  | .commitRejected => reduceCommitHistory "rejected" files event
  | _ => files

def openedWorld : World Entries := { reader := openedReader, store := .empty, snapshots := [] }

def commitRecord (eventId : EventId) : EventRecord :=
  stamp sampleEnv { sampleIntent with eventType := .commitAccepted } eventId sampleTime 0 none

/-- Two commits; two events are stamped for a batch whose append raises; a snapshot with its event;
one more commit. -/
def stampedRun : List (SnapshotAction Entries) :=
  [.read (.write [commitRecord sampleId, commitRecord secondId]), .read (.stamp 2),
    .snapshot false,
    .read (.write [stamp sampleEnv { sampleIntent with eventType := .snapshotCreated }
      thirdId sampleTime 0 none]),
    .read (.write [commitRecord fourthId])]

/-- The restore skips the commit that took a number below the counter of the snapshot. -/
theorem stamped_commit_skipped :
    ¬ ∀ (actions : List (SnapshotAction Entries)) (world after : World Entries) (cutoff : Nat)
      (target : StoreFiles Entries) (rebuilt : Bool),
      Run (World.step applyCommitHistory sampleEnv) (fun _ _ => True) openedWorld actions world →
        world.step applyCommitHistory sampleEnv (.restore cutoff target rebuilt) = some after →
        ∃ bundle, Dict.get world.snapshots cutoff = some bundle ∧
          World.Reproduces applyCommitHistory bundle cutoff after := by
  intro hclaim
  have hmissed : ((stampedRun.foldlM (World.step applyCommitHistory sampleEnv) openedWorld).bind
      fun world => (world.step applyCommitHistory sampleEnv (.restore 3 .empty false)).map
        fun after => ((commitsOf after.store.files).length,
          (commitsOf (rebuiltStore applyCommitHistory after.reader.log.records).files).length)) =
      some (2, 3) := by decide +kernel
  obtain ⟨world, hworld, hmissed⟩ := Option.bind_eq_some_iff.mp hmissed
  obtain ⟨after, hafter, hlengths⟩ := Option.map_eq_some_iff.mp hmissed
  obtain ⟨bundle, -, hkept⟩ := hclaim _ _ _ _ _ _
    (Run.of_steps hworld) hafter
  rw [hkept.store] at hlengths
  have htwo := (Prod.mk.inj hlengths).1
  have hthree := (Prod.mk.inj hlengths).2
  omega

def plainSnapshot (world : World Entries) : SnapshotAction Entries → Bool
  | .snapshot _ =>
    world.reader.log.records.any (fun record => record.sequenceNumber = world.cutoff ∧
        record.sequenceNumber < world.reader.nextSequence) &&
      world.reader.cursor ≤ world.cutoff + 1 && !decide (world.reader.index.current world.reader.log) &&
      world.reader.log.records.all (!isNodeGraphEvent ·) && world.store.nodeEvents.isNone
  | .restore _ _ _ => false
  | .read _ | .switch _ _ => true

theorem snapshotStep_of_plain (world : World Entries) (action : SnapshotAction Entries)
    (h : plainSnapshot world action = true) : world.SnapshotStep action := by
  cases action with
  | read => trivial
  | switch => trivial
  | restore => exact absurd h Bool.false_ne_true
  | snapshot rebuilt =>
    simp only [plainSnapshot, Bool.and_eq_true, decide_eq_true_eq, Bool.not_eq_true',
      decide_eq_false_iff_not, isNone_iff_eq_none] at h
    obtain ⟨⟨⟨⟨hhead, hcursor⟩, hbehind⟩, hplain⟩, hstore⟩ := h
    obtain ⟨record, hrecord, hnumber⟩ := List.any_eq_true.mp hhead
    obtain ⟨hcutoff, hbelow⟩ := of_decide_eq_true hnumber
    refine ⟨⟨record, hrecord, hcutoff, .inr ⟨hbelow, .inl hbehind⟩⟩, ?_, ?_, ?_⟩
    · intro other _ hlt
      omega
    · rintro - node hnode hkind
      have hnone := List.all_eq_true.mp hplain node hnode
      rw [hkind] at hnone
      contradiction
    · intro _ node hnode
      rw [hstore] at hnode
      contradiction

def headRun : List (SnapshotAction Entries) :=
  [.read (.write [commitRecord sampleId, commitRecord secondId]), .snapshot false,
    .read (.write [commitRecord thirdId])]

theorem openedWorld_opened : openedWorld.Opened := ⟨openedReader_opened, rfl, rfl⟩

theorem headRun_reproduces : ∃ world after : World Entries, ∃ bundle,
    Run (World.step applyCommitHistory sampleEnv) World.SnapshotStep openedWorld headRun world ∧
      world.step applyCommitHistory sampleEnv (.restore 1 .empty false) = some after ∧
      (commitsOf bundle.store.files).length = 2 ∧
      World.Reproduces applyCommitHistory bundle 1 after := by
  have hrun : ((headRun.foldlM (fun world action => if plainSnapshot world action then
      world.step applyCommitHistory sampleEnv action else none) openedWorld).any
        fun world => world.reader.log.records.all (·.sequenceNumber < world.reader.nextSequence) &&
          !decide (world.reader.index.current world.reader.log) &&
          (world.step applyCommitHistory sampleEnv (.restore 1 .empty false)).isSome &&
          (Dict.get world.snapshots 1).any fun bundle =>
            (commitsOf bundle.store.files).length = 2) = true := by decide +kernel
  obtain ⟨world, hworld, hstate⟩ := (Option.any_eq_true _ _).mp hrun
  simp only [Bool.and_eq_true, Bool.not_eq_true', decide_eq_false_iff_not] at hstate
  obtain ⟨⟨⟨hbelow, hbehind⟩, hsome⟩, hbundle⟩ := hstate
  obtain ⟨after, hafter⟩ := Option.isSome_iff_exists.mp hsome
  have hchecked := Run.of_checked snapshotStep_of_plain hworld
  have hguard : world.SnapshotStep (.restore 1 .empty false) := by
    refine fun bundle _ => ⟨fun record hrecord _ => ?_, fun name htarget => ?_, fun htarget => ?_⟩
    · exact ⟨by simpa using List.all_eq_true.mp hbelow record hrecord, Or.inl hbehind⟩
    · exact absurd rfl htarget
    · exact absurd rfl htarget
  obtain ⟨bundle, hget, hkept⟩ :=
    World.restore_reproduces openedWorld_opened hchecked hguard hafter
  rw [hget] at hbundle
  exact ⟨world, after, bundle, hchecked, hafter, by simpa using hbundle, hkept⟩

end Flowness.Snapshot
