import Flowness.Projection.Catchup

/-!
Standalone snapshots of the projections and their restore. A snapshot names the last event it
reflects by the sequence counter of the `EventLog` that takes it; a restore replays what comes after.
-/

namespace Flowness.Snapshot

open List Library Schemas Ledger CommitGate Projection CommittedLog

abbrev Files (σ : Type) := String → Option σ

/-- The files of a store. The session, the lock and the escalation graph are computed from all node
events that are visible at once, `nodeEvents`; there are none before the first. -/
@[ext] structure StoreFiles (σ : Type) where
  files : Files σ
  nodeEvents : Option (List EventRecord)

def StoreFiles.empty {σ : Type} : StoreFiles σ := { files := fun _ => none, nodeEvents := none }

/-- `_NODE_GRAPH_EVENTS`. -/
def isNodeGraphEvent (record : EventRecord) : Bool :=
  record.eventType ∈ [.sessionSpawned, .lockAcquired]

/-- What a snapshot directory holds; `reflected` are the events that the bundle was made of. -/
structure Bundle (σ : Type) where
  store : StoreFiles σ
  reflected : List EventRecord

/-- One process with an open `EventLog` and a store, and the snapshots by their cutoff. -/
structure World (σ : Type) where
  reader : Reader
  store : StoreFiles σ
  snapshots : Dict Nat (Bundle σ)

inductive SnapshotAction (σ : Type) where
  | read (action : Projection.ReaderAction)
  /-- Another process goes on with the store. -/
  | switch (nextSequence : Nat) (index : IndexCache)
  | snapshot (rebuilt : Bool)
  /-- Into a store that holds `target`. -/
  | restore (cutoff : Nat) (target : StoreFiles σ) (rebuilt : Bool)

section

variable {σ : Type} (reduce : List EventRecord → Files σ → EventRecord → Files σ)

/-- `_apply` over the events in order. A reducer sees the files and, in the log, what comes before
its event. -/
def applyEvents (visible events : List EventRecord) (files : Files σ) : Files σ :=
  events.foldl (fun files event =>
    reduce (visible.filter (·.sequenceNumber < event.sequenceNumber)) files event) files

def StoreFiles.apply (store : StoreFiles σ) (visible events : List EventRecord) : StoreFiles σ where
  files := applyEvents reduce visible events store.files
  nodeEvents :=
    if events.any isNodeGraphEvent then some (visible.filter isNodeGraphEvent) else store.nodeEvents

def rebuiltStore (log : List EventRecord) : StoreFiles σ := StoreFiles.empty.apply reduce log log

namespace World

variable (world : World σ)

def follow (reader : Reader) : World σ :=
  { world with
    reader := reader
    store := world.store.apply reduce reader.index.seen.records
      (reader.applied.drop world.reader.applied.length) }

def catchup (rebuilt : Bool) : World σ := world.follow reduce (world.reader.catchup rebuilt)

def emptied : World σ :=
  { world with reader := { world.reader with cursor := 0, applied := [] }, store := .empty }

def rebuild (rebuilt : Bool) : World σ := world.emptied.catchup reduce rebuilt

/-- `cutoff_seq`. -/
def cutoff : Nat := world.reader.nextSequence - 1

def bundle : Bundle σ := { store := world.store, reflected := world.reader.applied }

def keep : World σ :=
  { world with snapshots := Dict.set world.snapshots world.cutoff world.bundle }

/-- `create_standalone_snapshot`, without the event that it writes in the end. -/
def takeSnapshot (rebuilt : Bool) : World σ := (world.catchup reduce rebuilt).keep

/-- `restore_bundle`: a projection that the bundle does not have is left as it is. -/
def restoreBundle (bundle : Bundle σ) (cutoff : Nat) (target : StoreFiles σ) : World σ :=
  { world with
    reader := { world.reader with cursor := cutoff + 1, applied := bundle.reflected }
    store :=
      { files := fun name => (bundle.store.files name).or (target.files name)
        nodeEvents := bundle.store.nodeEvents.or target.nodeEvents } }

variable (env : WriterEnv)

def step (world : World σ) : SnapshotAction σ → Option (World σ)
  | .read action => (readerStep env world.reader action).map (world.follow reduce)
  | .switch nextSequence index =>
    if index.seen.records <+: world.reader.log.records then
      some { world with reader := { world.reader with nextSequence, index, call := .idle } }
    else none
  | .snapshot rebuilt =>
    if world.reader.index.covered = none then none else some (world.takeSnapshot reduce rebuilt)
  | .restore cutoff target rebuilt =>
    if world.reader.index.covered = none then none
    else (Dict.get world.snapshots cutoff).map fun bundle =>
      (world.restoreBundle bundle cutoff target).catchup reduce rebuilt

/-- The bundle reflects the events up to the cutoff, and the node graphs show none behind it. -/
structure ExactCutoff (bundle : Bundle σ) (cutoff : Nat) : Prop where
  last : ∃ last, bundle.reflected.getLast? = some last ∧ last.sequenceNumber = cutoff
  shown : ∀ node ∈ bundle.store.nodeEvents.getD [], node.sequenceNumber ≤ cutoff

/-- A restore leads to the head: no event skipped, none repeated, and the files of a rebuild. -/
structure Reproduces (bundle : Bundle σ) (cutoff : Nat) (next : World σ) : Prop where
  exact : ExactCutoff bundle cutoff
  applied : next.reader.applied = next.reader.log.records
  store : next.store = rebuiltStore reduce next.reader.log.records

def PendingNode : Prop :=
  ∃ node ∈ world.reader.log.records, isNodeGraphEvent node = true ∧ world.reader.Holds node ∧
    world.reader.cursor ≤ node.sequenceNumber ∧ node.sequenceNumber < world.reader.nextSequence

/-- The number below the counter is that of a committed event which the reader reaches, with no
applied event and no node event in the graphs behind it. -/
structure CutoffReached : Prop where
  head : ∃ record ∈ world.reader.log.records, record.sequenceNumber = world.cutoff ∧
    world.reader.Reaches record
  applied : ∀ record ∈ world.reader.log.records, record.sequenceNumber < world.reader.cursor →
    record.sequenceNumber ≤ world.cutoff
  folded : world.PendingNode → ∀ node ∈ world.reader.log.records, isNodeGraphEvent node = true →
    world.reader.Holds node → node.sequenceNumber ≤ world.cutoff
  kept : ¬world.PendingNode → ∀ node ∈ world.store.nodeEvents.getD [],
    node.sequenceNumber ≤ world.cutoff

/-- The reader has every event behind the cutoff, and the bundle every projection of the target. -/
structure TargetCovered (bundle : Bundle σ) (cutoff : Nat) (target : StoreFiles σ) : Prop where
  head : ∀ record ∈ world.reader.log.records, cutoff < record.sequenceNumber →
    record.sequenceNumber < world.reader.nextSequence ∧ world.reader.Holds record
  files : ∀ name, target.files name ≠ none → bundle.store.files name ≠ none
  nodes : target.nodeEvents ≠ none → bundle.store.nodeEvents ≠ none ∨
    ∃ node ∈ world.reader.log.records, isNodeGraphEvent node = true ∧ cutoff < node.sequenceNumber

def SnapshotStep (world : World σ) : SnapshotAction σ → Prop
  | .snapshot _ => world.CutoffReached
  | .restore cutoff target _ => ∀ bundle, Dict.get world.snapshots cutoff = some bundle →
      world.TargetCovered bundle cutoff target
  | .read _ | .switch _ _ => True

end World

end

section

variable {env : WriterEnv} {reader next : Reader}

/-- A step of the reader: the log grows at its end, and what is newly applied is in the index. -/
structure Follows (reader next : Reader) (new : List EventRecord) : Prop where
  log : reader.log.records <+: next.log.records
  applied : next.applied = reader.applied ++ new
  seen : ∀ record ∈ new, record ∈ next.index.seen.records

theorem Follows.still (hlog : reader.log.records <+: next.log.records)
    (happlied : next.applied = reader.applied) : Follows reader next [] where
  log := hlog
  applied := by rw [happlied, append_nil]
  seen := fun _ hmem => absurd hmem not_mem_nil

theorem follows_catchup (reader : Reader) (rebuilt : Bool) :
    Follows reader (reader.catchup rebuilt) (reader.caughtUpIndex rebuilt).pendingEvents where
  log := (log_catchup reader rebuilt).symm ▸ prefix_refl _
  applied := applied_catchup reader rebuilt
  seen := by
    intro record hmem
    have hseen := mem_of_mem_filter hmem
    unfold Reader.catchup
    dsimp only
    split <;> exact hseen

theorem nextSequence_catchup (reader : Reader) (rebuilt : Bool) :
    (reader.catchup rebuilt).nextSequence = reader.nextSequence := by
  unfold Reader.catchup
  dsimp only
  split <;> rfl

theorem follows_ownStep (hstep : ownStep env reader action = some next) :
    ∃ new, Follows reader next new := by
  unfold ownStep at hstep
  split at hstep
  · obtain ⟨log, happend, hstep⟩ := Option.bind_eq_some_iff.mp hstep
    cases hstep
    exact ⟨[], Follows.still ⟨_, (append_records happend).symm⟩ rfl⟩
  · cases hstep
    exact ⟨[], Follows.still (prefix_refl _) rfl⟩
  · cases hstep
    exact ⟨[], Follows.still (prefix_refl _) rfl⟩
  · cases hstep
    exact ⟨[], Follows.still (prefix_refl _) rfl⟩
  · cases hstep
    exact ⟨_, follows_catchup reader _⟩
  · cases hstep
    exact ⟨[], Follows.still (prefix_refl _) rfl⟩
  · split at hstep
    · cases hstep
      obtain ⟨hlog, happlied, hseen⟩ := follows_catchup reader _
      exact ⟨_, hlog, happlied, hseen⟩
    · cases hstep
  · cases hstep

theorem follows_readerStep (hstep : readerStep env reader action = some next) :
    ∃ new, Follows reader next new := by
  unfold readerStep at hstep
  split at hstep
  · obtain ⟨log, happend, hstep⟩ := Option.bind_eq_some_iff.mp hstep
    cases hstep
    exact ⟨[], Follows.still ⟨_, (append_records happend).symm⟩ rfl⟩
  · split at hstep
    · cases hstep
      exact ⟨[], Follows.still (prefix_refl _) rfl⟩
    · cases hstep
  · split at hstep
    · cases hstep
    · exact follows_ownStep hstep

end

/-- Node graphs of what was visible at once: all applied node events and none that is not committed. -/
def NodesFit (nodes : Option (List EventRecord)) (applied log : List EventRecord) : Prop :=
  match nodes with
  | none => ∀ record ∈ applied, isNodeGraphEvent record = false
  | some folded => folded ≠ [] ∧ ∃ visible, visible <+: log ∧
      folded = visible.filter isNodeGraphEvent ∧
        ∀ record ∈ applied, isNodeGraphEvent record = true → record ∈ visible

theorem NodesFit.grow (h : NodesFit nodes applied log) (hlog : log <+: longer) :
    NodesFit nodes applied longer := by
  cases nodes with
  | none => exact h
  | some folded =>
    obtain ⟨hne, visible, hvisible, hfolded, hall⟩ := h
    exact ⟨hne, visible, hvisible.trans hlog, hfolded, hall⟩

section

variable {σ : Type} {reduce : List EventRecord → Files σ → EventRecord → Files σ}

theorem applyEvents_append (visible front back : List EventRecord) (files : Files σ) :
    applyEvents reduce visible (front ++ back) files =
      applyEvents reduce visible back (applyEvents reduce visible front files) :=
  foldl_append

theorem applyEvents_congr (hlog : Ascending EventRecord.sequenceNumber log)
    (hvisible : visible <+: log) (hevents : ∀ event ∈ events, event ∈ visible) (files : Files σ) :
    applyEvents reduce visible events files = applyEvents reduce log events files := by
  obtain ⟨rest, rfl⟩ := hvisible
  induction events generalizing files with
  | nil => rfl
  | cons event events ih =>
    have hbefore := hlog.filter_lt_of_mem (hevents event mem_cons_self)
    unfold applyEvents at ⊢
    rw [foldl_cons, foldl_cons, hbefore]
    exact ih (fun other hother => hevents other (mem_cons_of_mem _ hother)) _

variable (reduce) in
structure BundleSound (log : CommittedLog) (bundle : Bundle σ) (cutoff : Nat) : Prop where
  exact : World.ExactCutoff bundle cutoff
  below : cutoff < log.nextSequence
  reflected : bundle.reflected = log.records.filter (·.sequenceNumber < cutoff + 1)
  files : bundle.store.files = applyEvents reduce log.records bundle.reflected fun _ => none
  nodes : NodesFit bundle.store.nodeEvents bundle.reflected log.records

theorem filter_below_of_prefix {log longer : CommittedLog} (h : log.records <+: longer.records)
    (hbound : bound ≤ log.nextSequence) : longer.records.filter (·.sequenceNumber < bound) =
      log.records.filter (·.sequenceNumber < bound) := by
  obtain ⟨added, hadded⟩ := h
  have hnone : added.filter (·.sequenceNumber < bound) = [] := by
    refine filter_eq_nil_iff.mpr fun record hrecord hbelow => ?_
    have hafter := nextSequence_le_of_added hadded.symm hrecord
    have := of_decide_eq_true hbelow
    omega
  rw [← hadded, filter_append, hnone, append_nil]

theorem BundleSound.grow {log longer : CommittedLog} {bundle : Bundle σ} {cutoff : Nat}
    (h : BundleSound reduce log bundle cutoff) (hlog : log.records <+: longer.records) :
    BundleSound reduce longer bundle cutoff where
  exact := h.exact
  below := by
    obtain ⟨added, hadded⟩ := hlog
    have hmono := nextSequence_mono hadded.symm
    have := h.below
    omega
  reflected := by
    rw [h.reflected, filter_below_of_prefix hlog h.below]
  files := by
    rw [h.files]
    refine applyEvents_congr longer.increasing hlog (fun event hevent => ?_) _
    rw [h.reflected] at hevent
    exact mem_of_mem_filter hevent
  nodes := h.nodes.grow hlog

namespace World

variable (reduce) in
structure Sound (world : World σ) : Prop where
  reader : world.reader.Sound
  files : world.store.files =
    applyEvents reduce world.reader.log.records world.reader.applied fun _ => none
  nodes : NodesFit world.store.nodeEvents world.reader.applied world.reader.log.records
  snapshots : ∀ cutoff bundle, Dict.get world.snapshots cutoff = some bundle →
    BundleSound reduce world.reader.log bundle cutoff

variable {world : World σ} {next : Reader} {new : List EventRecord}

theorem mem_log_of_applied {reader : Reader} (h : reader.Sound) (hrecord :
  record ∈ reader.applied) : record ∈ reader.log.records := by
  rw [h.applied] at hrecord
  exact mem_of_mem_filter hrecord

theorem store_follow (hfollows : Follows world.reader next new) :
    (world.follow reduce next).store = world.store.apply reduce next.index.seen.records new := by
  unfold follow
  rw [hfollows.applied, drop_left]

theorem files_follow (hnext : next.Sound) (hfollows : Follows world.reader next new)
    (hreader : ∀ record ∈ world.reader.applied, record ∈ world.reader.log.records)
    (hfiles : world.store.files =
      applyEvents reduce world.reader.log.records world.reader.applied fun _ => none) :
    (world.follow reduce next).store.files =
      applyEvents reduce next.log.records next.applied fun _ => none := by
  rw [store_follow hfollows, hfollows.applied, applyEvents_append]
  unfold StoreFiles.apply
  rw [hfiles, applyEvents_congr next.log.increasing hfollows.log hreader]
  exact applyEvents_congr next.log.increasing hnext.behind hfollows.seen _

theorem seen_of_applied (hnext : next.Sound) (hfollows : Follows world.reader next new)
    (hevent : event ∈ new) (hrecord : record ∈ next.applied)
    (hle : record.sequenceNumber ≤ event.sequenceNumber) : record ∈ next.index.seen.records := by
  obtain ⟨rest, hrest⟩ := hnext.behind
  have hlog := mem_log_of_applied hnext hrecord
  have hascending : Ascending EventRecord.sequenceNumber next.log.records := next.log.increasing
  rw [← hrest] at hascending hlog
  exact hascending.mem_of_key_le (hfollows.seen event hevent) hlog hle

theorem applied_ascending {reader : Reader} (h : reader.Sound) :
    Ascending EventRecord.sequenceNumber reader.applied := by
  rw [h.applied]
  exact Ascending.filter reader.log.increasing _

theorem nodes_follow (hnext : next.Sound) (hfollows : Follows world.reader next new)
    (hnodes : NodesFit world.store.nodeEvents world.reader.applied world.reader.log.records) :
    NodesFit (world.follow reduce next).store.nodeEvents next.applied next.log.records := by
  rw [store_follow hfollows]
  unfold StoreFiles.apply
  split
  next hany =>
    obtain ⟨node, hnode, hkind⟩ := any_eq_true.mp hany
    refine ⟨fun hnil => ?_, next.index.seen.records, hnext.behind, rfl, fun record hrecord _ => ?_⟩
    · have hmem := mem_filter.mpr ⟨hfollows.seen node hnode, hkind⟩
      rw [hnil] at hmem
      contradiction
    · rw [hfollows.applied] at hrecord
      rcases mem_append.mp hrecord with hold | hfresh
      · have hascending := applied_ascending hnext
        unfold Ascending at hascending
        rw [hfollows.applied, map_append, pairwise_append] at hascending
        have hlt := hascending.2.2 _ (mem_map_of_mem hold) _ (mem_map_of_mem hnode)
        refine seen_of_applied hnext hfollows hnode ?_ (Nat.le_of_lt hlt)
        rw [hfollows.applied]
        exact mem_append_left _ hold
      · exact hfollows.seen record hfresh
  next hnone =>
    have hfresh : ∀ record ∈ new, isNodeGraphEvent record = false := by
      intro record hrecord
      by_contra hkind
      exact hnone (any_eq_true.mpr ⟨record, hrecord, by simpa using hkind⟩)
    have hgrown := hnodes.grow hfollows.log
    rw [hfollows.applied]
    cases hstore : world.store.nodeEvents with
    | none =>
      rw [hstore] at hgrown
      intro record hrecord
      rcases mem_append.mp hrecord with hold | hnew
      · exact hgrown record hold
      · exact hfresh record hnew
    | some folded =>
      rw [hstore] at hgrown
      obtain ⟨hne, visible, hvisible, hfolded, hall⟩ := hgrown
      refine ⟨hne, visible, hvisible, hfolded, fun record hrecord hkind => ?_⟩
      rcases mem_append.mp hrecord with hold | hnew
      · exact hall record hold hkind
      · rw [hfresh record hnew] at hkind
        contradiction

theorem Sound.follow (h : world.Sound reduce) (hnext : next.Sound)
    (hfollows : Follows world.reader next new) : (world.follow reduce next).Sound reduce where
  reader := hnext
  files := files_follow hnext hfollows (fun _ => mem_log_of_applied h.reader) h.files
  nodes := nodes_follow hnext hfollows h.nodes
  snapshots cutoff bundle hget := (h.snapshots cutoff bundle hget).grow hfollows.log

theorem Sound.catchup (h : world.Sound reduce) (rebuilt : Bool) :
    (world.catchup reduce rebuilt).Sound reduce :=
  h.follow (h.reader.catchup rebuilt) (follows_catchup world.reader rebuilt)

end World

end

end Flowness.Snapshot
