import Mathlib.Data.List.Pairwise
import Flowness.Snapshot.Archival

/-!
The hot log under writers and maintenance. Whatever stands in a hot segment is some of the writes
that went to the segment, whole and in order; so a segment may shrink, vanish and come back without
two records changing places.
-/

namespace Flowness.Snapshot

open List Library Schemas Ledger Disk

def unitsAt (written : List (SegmentPath × List EventRecord)) (path : SegmentPath) :
    List (List EventRecord) :=
  (written.filter (fun entry => entry.1 = path)).map Prod.snd

/-- Some of the writes that went to the segment, whole and in order. -/
def Holding (written : List (SegmentPath × List EventRecord)) (path : SegmentPath)
    (records : List EventRecord) : Prop :=
  ∃ units : List (List EventRecord), units.Sublist (unitsAt written path) ∧ units.flatten = records

def Anchored (disk : Disk) (segment : Nat) : Prop :=
  ∃ path, (SegmentPath.hot segment).rank < path.rank ∧ disk.recordsAt path ≠ []

variable {units : List (List EventRecord)} {segment : Nat}

section

variable {written more : List (SegmentPath × List EventRecord)} {path : SegmentPath}

theorem mem_unitsAt : unit ∈ unitsAt written path ↔ (path, unit) ∈ written := by
  unfold unitsAt
  simp

theorem unitsAt_append : unitsAt (written ++ more) path = unitsAt written path ++ unitsAt more path := by
  unfold unitsAt
  rw [filter_append, map_append]

theorem unitsAt_placed_self (units : List (List EventRecord)) :
    unitsAt (units.map (fun unit => (path, unit))) path = units := by
  unfold unitsAt
  rw [filter_eq_self.mpr (by simp), map_map]
  exact map_id units

theorem Holding.mono (h : Holding written path records) :
    Holding (written ++ more) path records := by
  obtain ⟨units, hsub, hflatten⟩ := h
  rw [Holding, unitsAt_append]
  exact ⟨units, hsub.trans (sublist_append_left _ _), hflatten⟩

theorem Holding.nil : Holding written path [] := ⟨[], nil_sublist _, rfl⟩

theorem related_of_ne {α : Type} {R : α → α → Prop} {l : List α} (h : l.Pairwise R)
    {a b : α} (ha : a ∈ l) (hb : b ∈ l) (hne : a ≠ b) : R a b ∨ R b a := by
  have hsymm : Std.Symm (fun x y => R x y ∨ R y x) := ⟨fun _ _ => Or.symm⟩
  have hpairs : l.Pairwise (fun x y => R x y ∨ R y x) := h.imp Or.inl
  exact hpairs.forall ha hb hne

theorem filter_flatten (h : ∀ unit ∈ units, ∀ x ∈ unit, ∀ y ∈ unit, keep x = keep y) :
    ∃ kept : List (List EventRecord), kept.Sublist units ∧ units.flatten.filter keep = kept.flatten := by
  induction units with
  | nil => exact ⟨[], List.Sublist.slnil, rfl⟩
  | cons unit units ih =>
    obtain ⟨kept, hsub, hkept⟩ := ih (fun u hu => h u (mem_cons_of_mem _ hu))
    have hunit := h unit mem_cons_self
    rw [flatten_cons, filter_append, hkept]
    by_cases hall : ∀ x ∈ unit, keep x = true
    · refine ⟨unit :: kept, hsub.cons_cons unit, ?_⟩
      rw [filter_eq_self.mpr hall, flatten_cons]
    · refine ⟨kept, hsub.cons unit, ?_⟩
      have hnone : unit.filter keep = [] := by
        rw [filter_eq_nil_iff]
        intro x hx hkeep
        exact hall (fun y hy => (hunit y hy x hx).trans hkeep)
      rw [hnone, nil_append]

end

/-- The hot segments hold whole writes, and the writes were made in physical order. -/
structure Ordered (disk : Disk) (written : List (SegmentPath × List EventRecord)) : Prop where
  whole : ∀ path : SegmentPath, path.listed = true →
    (disk.read path).getD [] = recordLines (disk.recordsAt path)
  held : ∀ path, Holding written path (disk.recordsAt path)
  units : ∀ entry ∈ written, WriteUnit entry.2
  increasing : ∀ entry ∈ written, entry.2.Pairwise (fun x y => x.sequenceNumber < y.sequenceNumber)
  chronological : written.Pairwise (fun left right => left.1.rank ≤ right.1.rank ∧
    ∀ x ∈ left.2, ∀ y ∈ right.2, x.sequenceNumber < y.sequenceNumber)
  reach : ∀ entry ∈ written, entry.1.rank ≤ disk.activeSegmentPath.rank
  top : ∀ entry ∈ written, ∀ record ∈ entry.2, ∃ path, ∃ last ∈ disk.recordsAt path,
    record.sequenceNumber ≤ last.sequenceNumber
  distinct : DistinctBatches (written.map Prod.snd)

structure Keeps (disk later : Disk) : Prop where
  active : disk.activeSegmentPath.rank ≤ later.activeSegmentPath.rank
  anchored : ∀ segment, Anchored disk segment → Anchored later segment

theorem Keeps.refl (disk : Disk) : Keeps disk disk := ⟨le_rfl, fun _ h => h⟩

section

variable {disk later : Disk} {written : List (SegmentPath × List EventRecord)}

variable {path : SegmentPath}

theorem mem_of_recordsAt (h : Ordered disk written) (hrecord : record ∈ disk.recordsAt path) :
    ∃ unit, (path, unit) ∈ written ∧ record ∈ unit := by
  obtain ⟨units, hsub, hflatten⟩ := h.held path
  rw [← hflatten] at hrecord
  obtain ⟨unit, hunit, hmem⟩ := mem_flatten.mp hrecord
  exact ⟨unit, mem_unitsAt.mp (hsub.subset hunit), hmem⟩

theorem Ordered.physical (h : Ordered disk written) : Physical disk := by
  refine ⟨?_, ?_, ?_⟩
  · intro path content hread hlisted
    have hwhole := h.whole path hlisted
    rw [hread, Option.getD_some] at hwhole
    rw [hwhole]
    exact framed_recordLines _
  · intro path
    obtain ⟨units, hsub, hflatten⟩ := h.held path
    rw [← hflatten, pairwise_map, pairwise_flatten]
    constructor
    · intro unit hunit
      exact h.increasing _ (mem_unitsAt.mp (hsub.subset hunit))
    · apply List.Pairwise.sublist hsub
      unfold unitsAt
      rw [pairwise_map]
      exact (h.chronological.filter _).imp (fun hpair => hpair.2)
  · intro p q hrank left hleft right hright
    obtain ⟨u, hu, hleft⟩ := mem_of_recordsAt h hleft
    obtain ⟨v, hv, hright⟩ := mem_of_recordsAt h hright
    have hne : (p, u) ≠ (q, v) := by
      intro heq
      rw [(Prod.mk.inj heq).1] at hrank
      exact lt_irrefl _ hrank
    rcases related_of_ne h.chronological hu hv hne with hbefore | hafter
    · exact hbefore.2 left hleft right hright
    · have hle : q.rank ≤ p.rank := hafter.1
      omega

private theorem listed_of_recordsAt (h : disk.recordsAt path ≠ []) : path.listed = true := by
  by_contra hlisted
  exact h (by rw [Disk.recordsAt, if_neg hlisted])

private theorem listed_of_lt (hlisted : path.listed = true)
    (hrank : (SegmentPath.hot segment).rank < path.rank) :
    (SegmentPath.hot segment).listed = true := by
  cases path with
  | base => simp [SegmentPath.rank] at hrank
  | hot number =>
    simp only [SegmentPath.listed, Disk.isListed, decide_eq_true_eq, SegmentPath.rank] at *
    omega

private theorem Anchored.listed (h : Anchored disk segment) :
    (SegmentPath.hot segment).listed = true := by
  obtain ⟨path, hrank, hne⟩ := h
  exact listed_of_lt (listed_of_recordsAt hne) hrank

theorem listed_of_lt_active (h : (SegmentPath.hot segment).rank < disk.activeSegmentPath.rank) :
    (SegmentPath.hot segment).listed = true :=
  listed_of_lt disk.listed_activeSegmentPath h

private theorem read_of_recordsAt (h : disk.recordsAt path ≠ []) :
    ∃ content, disk.read path = some content := by
  cases hread : disk.read path with
  | some content => exact ⟨content, rfl⟩
  | none =>
    rw [Disk.recordsAt, hread, Option.getD_none, segmentRecords_nil, ite_self] at h
    contradiction

section

variable (h : Ordered disk written)
include h

section

variable (hanchored : Anchored disk segment)
include hanchored

theorem Ordered.replace (hothers : ∀ q, q ≠ .hot segment → later.read q = disk.read q)
    (hwhole : (later.read (.hot segment)).getD [] = recordLines (later.recordsAt (.hot segment)))
    (hheld : Holding written (.hot segment) (later.recordsAt (.hot segment))) :
    Ordered later written ∧ Keeps disk later := by
  have hrecords : ∀ q, q ≠ .hot segment → later.recordsAt q = disk.recordsAt q := by
    intro q hq
    rw [Disk.recordsAt, Disk.recordsAt, hothers q hq]
  -- the record after the segment takes the place of whatever the segment loses
  obtain ⟨path, hrank, hne⟩ := hanchored
  have hpath : path ≠ .hot segment := by
    rintro rfl
    exact lt_irrefl _ hrank
  have hactive : disk.activeSegmentPath.rank ≤ later.activeSegmentPath.rank := by
    apply active_rank_le
    intro content hread
    refine ⟨content, ?_⟩
    rw [hothers]
    · exact hread
    · intro heq
      obtain ⟨bytes, hbytes⟩ := read_of_recordsAt hne
      have hle := rank_le_active hbytes (listed_of_recordsAt hne)
      rw [heq] at hle
      omega
  refine ⟨⟨?_, ?_, h.units, h.increasing, h.chronological, ?_, ?_, h.distinct⟩, hactive, ?_⟩
  · intro q hlisted
    by_cases hq : q = .hot segment
    · rw [hq]
      exact hwhole
    · rw [hothers q hq, hrecords q hq]
      exact h.whole q hlisted
  · intro q
    by_cases hq : q = .hot segment
    · rw [hq]
      exact hheld
    · rw [hrecords q hq]
      exact h.held q
  · exact fun entry hentry => le_trans (h.reach entry hentry) hactive
  · intro entry hentry record hrecord
    obtain ⟨q, last, hlast, hle⟩ := h.top entry hentry record hrecord
    by_cases hq : q = .hot segment
    · obtain ⟨anchor, hanchor⟩ := exists_mem_of_ne_nil _ hne
      have hlt := h.physical.across q path (by rw [hq]; exact hrank) last hlast anchor hanchor
      exact ⟨path, anchor, by rw [hrecords path hpath]; exact hanchor, by omega⟩
    · exact ⟨q, last, by rw [hrecords q hq]; exact hlast, hle⟩
  · rintro number ⟨q, hnumber, hq⟩
    by_cases heq : q = .hot segment
    · refine ⟨path, lt_trans hnumber (by rw [heq]; exact hrank), ?_⟩
      rw [hrecords path hpath]
      exact hne
    · exact ⟨q, hnumber, by rw [hrecords q heq]; exact hq⟩

theorem Ordered.rewrite (hheld : Holding written (.hot segment) records) :
    Ordered (disk.write (.hot segment) (recordLines records)) written ∧
      Keeps disk (disk.write (.hot segment) (recordLines records)) := by
  have hself : (disk.write (.hot segment) (recordLines records)).recordsAt (.hot segment) =
      records := by
    rw [recordsAt_write_self disk _ hanchored.listed, segmentRecords_recordLines]
  apply h.replace hanchored
  · exact fun q hq => read_write_of_ne disk _ hq
  · rw [hself, read_write_self, Option.getD_some]
  · rw [hself]
    exact hheld

theorem Ordered.unlink :
    Ordered (disk.remove segment) written ∧ Keeps disk (disk.remove segment) := by
  apply h.replace hanchored
  · exact fun q hq => read_remove_of_ne disk hq
  · rw [recordsAt_remove_self, read_remove_self]
    rfl
  · rw [recordsAt_remove_self]
    exact Holding.nil

end

theorem Ordered.recoverAt (log : EventLog) (hlisted : path.listed = true) :
    recoverAt log disk path = (disk, .ok (log, 0)) := by
  unfold Ledger.recoverAt
  cases hread : disk.read path with
  | none => rfl
  | some content =>
    have hwhole := h.whole path hlisted
    rw [hread, Option.getD_some] at hwhole
    obtain ⟨units, hsub, hflatten⟩ := h.held path
    have hsettled : content = [] ∨ safeEndOf content = content.length := by
      rcases eq_nil_or_concat units with rfl | ⟨front, unit, rfl⟩
      · left
        rw [hwhole, ← hflatten]
        rfl
      · right
        have hunit : (path, unit) ∈ written := mem_unitsAt.mp (hsub.subset (by simp))
        obtain ⟨last, hlast, hsettles⟩ := (h.units _ hunit).settled
        have hends : (disk.recordsAt path).getLast? = some last := by
          rw [← hflatten, concat_eq_append, flatten_append, flatten_singleton,
            List.getLast?_append, hlast]
          rfl
        rw [hwhole, (framed_recordLines _).safeEndOf_eq, segmentRecords_recordLines,
          settledPrefix_eq_self hends hsettles]
    dsimp only
    rw [if_pos hsettled]

end

end

def placedAt (target : SegmentPath) (units : List (List EventRecord)) :
    List (SegmentPath × List EventRecord) :=
  if target.listed then units.map (fun unit => (target, unit)) else []

section

variable {log : EventLog} {disk : Disk} {written : List (SegmentPath × List EventRecord)}
  {write : PendingWrite}

private theorem mem_placedAt (h : entry ∈ placedAt target units) :
    target.listed = true ∧ entry.1 = target ∧ entry.2 ∈ units := by
  unfold placedAt at h
  split at h
  next hlisted =>
    obtain ⟨unit, hunit, rfl⟩ := mem_map.mp h
    exact ⟨hlisted, rfl, hunit⟩
  · simp at h

private theorem recordsAt_commit (h : Ordered disk written) (hprepared : Prepared log disk write) :
    ∀ path, (write.commit disk).recordsAt path =
      disk.recordsAt path ++ if path = write.target ∧ path.listed = true then write.records else [] := by
  intro path
  by_cases hpath : path = write.target
  · subst hpath
    by_cases hlisted : write.target.listed = true
    · have hends : EndsLine ((disk.read write.target).getD []) := by
        rw [h.whole _ hlisted]
        exact endsLine_recordLines _
      rw [(h.physical.commit hprepared hlisted hends).2.1, if_pos ⟨rfl, hlisted⟩]
    · rw [Disk.recordsAt, Disk.recordsAt, if_neg hlisted, if_neg hlisted,
        if_neg (fun hboth => hlisted hboth.2), append_nil]
  · rw [PendingWrite.commit, Disk.append, recordsAt_write_of_ne disk _ hpath,
      if_neg (fun hboth => hpath hboth.1), append_nil]

private theorem active_le_commit (disk : Disk) (write : PendingWrite) :
    disk.activeSegmentPath.rank ≤ (write.commit disk).activeSegmentPath.rank := by
  apply active_rank_le
  intro content hread
  by_cases hpath : disk.activeSegmentPath = write.target
  · rw [hpath]
    exact ⟨_, read_append_self disk _ _⟩
  · exact ⟨content, by rw [PendingWrite.commit, read_append_of_ne disk _ hpath, hread]⟩

section

variable (h : Ordered disk written) (hprepared : Prepared log disk write)
include h hprepared

theorem Ordered.keeps_commit : Keeps disk (write.commit disk) := by
  refine ⟨active_le_commit disk write, ?_⟩
  rintro segment ⟨path, hrank, hne⟩
  refine ⟨path, hrank, ?_⟩
  rw [recordsAt_commit h hprepared]
  exact append_ne_nil_of_left_ne_nil hne _

/-- After a write every sealed segment has a later record: in the file the write went to, or, when
readers do not list that file, in the active one before it. -/
theorem Ordered.anchored_commit (hne : write.records ≠ [])
    (hsealed : (SegmentPath.hot segment).rank < disk.activeSegmentPath.rank) :
    Anchored (write.commit disk) segment := by
  by_cases hlisted : write.target.listed = true
  · refine ⟨write.target, lt_of_lt_of_le hsealed hprepared.active_le, ?_⟩
    rw [recordsAt_commit h hprepared, if_pos ⟨rfl, hlisted⟩]
    exact append_ne_nil_of_right_ne_nil _ hne
  · refine ⟨disk.activeSegmentPath, hsealed, ?_⟩
    rw [recordsAt_commit h hprepared]
    apply append_ne_nil_of_left_ne_nil
    rcases writeTarget_cases hprepared.target with htarget | ⟨-, count, hcount⟩
    · rw [htarget] at hlisted
      exact absurd disk.listed_activeSegmentPath hlisted
    · intro hnil
      have hcontent := h.whole _ disk.listed_activeSegmentPath
      unfold activeSegmentEventCount at hcount
      cases hread : disk.read disk.activeSegmentPath with
      | none =>
        rw [hread] at hcount
        simp at hcount
      | some content =>
        rw [hread, Option.getD_some, hnil] at hcontent
        rw [hread, hcontent] at hcount
        simp [recordLines] at hcount

theorem Ordered.commit (hflatten : units.flatten = write.records)
    (hunits : ∀ unit ∈ units, WriteUnit unit)
    (hdistinct : DistinctBatches (written.map Prod.snd ++ units)) :
    Ordered (write.commit disk) (written ++ placedAt write.target units) := by
  have hrecords := recordsAt_commit h hprepared
  have hactive := active_le_commit disk write
  have hnumbers : units.flatten.Pairwise (fun x y => x.sequenceNumber < y.sequenceNumber) := by
    have hrange : (write.records.map EventRecord.sequenceNumber).Pairwise (· < ·) := by
      rw [hprepared.numbered]
      exact pairwise_lt_range'
    rw [hflatten]
    exact pairwise_map.mp hrange
  rw [pairwise_flatten] at hnumbers
  refine ⟨?_, ?_, ?_, ?_, ?_, ?_, ?_, ?_⟩
  · intro path hlisted
    rw [hrecords]
    by_cases hpath : path = write.target
    · subst hpath
      rw [if_pos ⟨rfl, hlisted⟩, recordLines_append, ← h.whole _ hlisted, PendingWrite.commit,
        read_append_self, Option.getD_some]
      rfl
    · rw [if_neg (fun hboth => hpath hboth.1), append_nil, PendingWrite.commit,
        read_append_of_ne disk _ hpath]
      exact h.whole path hlisted
  · intro path
    obtain ⟨old, hsub, hold⟩ := h.held path
    rw [hrecords]
    by_cases hboth : path = write.target ∧ path.listed = true
    · obtain ⟨rfl, hlisted⟩ := hboth
      rw [if_pos ⟨rfl, hlisted⟩]
      refine ⟨old ++ units, ?_, ?_⟩
      · rw [unitsAt_append, placedAt, if_pos hlisted, unitsAt_placed_self]
        exact hsub.append (List.Sublist.refl units)
      · rw [flatten_append, hold, hflatten]
    · rw [if_neg hboth, append_nil]
      exact (h.held path).mono
  · intro entry hentry
    rcases mem_append.mp hentry with hmem | hmem
    · exact h.units entry hmem
    · exact hunits _ (mem_placedAt hmem).2.2
  · intro entry hentry
    rcases mem_append.mp hentry with hmem | hmem
    · exact h.increasing entry hmem
    · exact hnumbers.1 _ (mem_placedAt hmem).2.2
  · rw [pairwise_append]
    refine ⟨h.chronological, ?_, ?_⟩
    · unfold placedAt
      split
      · rw [pairwise_map]
        exact hnumbers.2.imp (fun hlt => ⟨le_rfl, hlt⟩)
      · exact List.Pairwise.nil
    · intro old hold new hnew
      obtain ⟨-, htarget, hunit⟩ := mem_placedAt hnew
      refine ⟨?_, ?_⟩
      · rw [htarget]
        exact le_trans (h.reach old hold) hprepared.active_le
      · -- everything written before is at or below a record that is still there
        intro x hx y hy
        obtain ⟨path, last, hlast, hle⟩ := h.top old hold x hx
        have hlt := h.physical.lt_nextBase hprepared.base path last hlast
        have hwritten := mem_flatten.mpr ⟨new.2, hunit, hy⟩
        rw [hflatten] at hwritten
        have hbase := hprepared.base_le hwritten
        omega
  · intro entry hentry
    rcases mem_append.mp hentry with hmem | hmem
    · exact le_trans (h.reach entry hmem) hactive
    · obtain ⟨hlisted, htarget, -⟩ := mem_placedAt hmem
      rw [htarget]
      exact rank_le_active (read_append_self disk write.target write.bytes) hlisted
  · intro entry hentry record hrecord
    rcases mem_append.mp hentry with hmem | hmem
    · obtain ⟨path, last, hlast, hle⟩ := h.top entry hmem record hrecord
      exact ⟨path, last, by rw [hrecords]; exact mem_append_left _ hlast, hle⟩
    · obtain ⟨hlisted, htarget, hunit⟩ := mem_placedAt hmem
      refine ⟨write.target, record, ?_, le_rfl⟩
      rw [hrecords, if_pos ⟨rfl, hlisted⟩, ← hflatten]
      exact mem_append_right _ (mem_flatten.mpr ⟨entry.2, hunit, hrecord⟩)
  · rw [map_append]
    have hsub : ((placedAt write.target units).map Prod.snd).Sublist units := by
      unfold placedAt
      split
      · rw [map_map]
        simp
      · exact nil_sublist _
    exact List.Pairwise.sublist ((List.Sublist.refl _).append hsub) hdistinct

end

end

end Flowness.Snapshot
