import Flowness.Ledger.Segments

/-!
Segments one path at a time: what a write changes, which paths are read, and where the active and
the next segment stand among them.
-/

namespace Flowness.Ledger

open List Library Schemas

namespace SegmentPath

def rank : SegmentPath → Nat
  | .base => 0
  | .hot number => number + 1

def listed : SegmentPath → Bool
  | .base => true
  | .hot number => Disk.isListed number

end SegmentPath

namespace Disk

/-- `path.unlink()` of a rotated segment. -/
def remove (disk : Disk) (number : Nat) : Disk :=
  { disk with
    hot := disk.hot.filter (fun entry => entry.1 ≠ number)
    sorted := disk.sorted.sublist (List.filter_sublist.map Prod.fst) }

private theorem lookup_writeHot_of_ne (content : Bytes) (files : List (Nat × Bytes))
    (h : n ≠ number) : (writeHot number content files).lookup n = files.lookup n := by
  have hbeq : (n == number) = false := by simpa using h
  induction files with
  | nil => simp [writeHot, lookup_cons, hbeq]
  | cons entry rest ih =>
    unfold writeHot
    split
    · rw [lookup_cons, hbeq]
    · split
      next heq =>
        subst heq
        rw [lookup_cons, lookup_cons, hbeq]
      · rw [lookup_cons, lookup_cons, ih]

theorem read_write_of_ne (disk : Disk) (content : Bytes) (h : q ≠ p) :
    (disk.write p content).read q = disk.read q := by
  cases p with
  | base =>
    cases q with
    | base => exact absurd rfl h
    | hot n => rfl
  | hot m =>
    cases q with
    | base => rfl
    | hot n =>
      apply lookup_writeHot_of_ne
      rintro rfl
      exact h rfl

theorem read_append_self (disk : Disk) (path : SegmentPath) (bytes : Bytes) :
    (disk.append path bytes).read path = some ((disk.read path).getD [] ++ bytes) :=
  read_write_self disk path _

theorem read_append_of_ne (disk : Disk) (bytes : Bytes) (h : q ≠ p) :
    (disk.append p bytes).read q = disk.read q :=
  read_write_of_ne disk _ h

theorem lookup_eq_some_iff {files : List (Nat × Bytes)}
    (hsorted : (files.map Prod.fst).Pairwise (· < ·)) {number : Nat} {content : Bytes} :
    files.lookup number = some content ↔ (number, content) ∈ files := by
  refine ⟨fun h => ?_, lookup_of_mem hsorted⟩
  obtain ⟨front, back, hsplit, -⟩ := List.lookup_eq_some_iff.mp h
  rw [hsplit]
  simp

theorem read_remove_self (disk : Disk) (number : Nat) :
    (disk.remove number).read (.hot number) = none := by
  have hnone : (disk.remove number).hot.lookup number = none := by
    rw [lookup_eq_none_iff]
    intro entry hentry
    have hne := (mem_filter.mp hentry).2
    simp only [decide_not, Bool.not_eq_eq_eq_not, Bool.not_true, decide_eq_false_iff_not] at hne
    simpa using fun heq : number = entry.1 => hne heq.symm
  exact hnone

theorem read_remove_of_ne (disk : Disk) {number : Nat} {q : SegmentPath} (h : q ≠ .hot number) :
    (disk.remove number).read q = disk.read q := by
  cases q with
  | base => rfl
  | hot n =>
    have hne : n ≠ number := fun heq => h (by rw [heq])
    apply Option.ext
    intro content
    show (disk.remove number).hot.lookup n = some content ↔ disk.hot.lookup n = some content
    rw [lookup_eq_some_iff (disk.remove number).sorted, lookup_eq_some_iff disk.sorted]
    simp [remove, hne]

theorem ext_of_read {disk later : Disk} (h : ∀ path, disk.read path = later.read path) :
    disk = later := by
  apply Disk.ext (h .base)
  have hpairs := disk.sorted
  have hlater := later.sorted
  rw [pairwise_map] at hpairs hlater
  apply hpairs.eq_of_mem_iff hlater
  rintro ⟨number, content⟩
  rw [← lookup_eq_some_iff disk.sorted, ← lookup_eq_some_iff later.sorted]
  exact iff_of_eq (congrArg (· = some content) (h (.hot number)))

theorem mem_orderedSegments {disk : Disk} {path : SegmentPath} {content : Bytes} :
    (path, content) ∈ disk.orderedSegments ↔ disk.read path = some content ∧ path.listed = true := by
  unfold orderedSegments
  cases path with
  | base =>
    cases hbase : disk.base with
    | none => simp [read, hbase]
    | some bytes => simp [read, hbase, SegmentPath.listed, eq_comm]
  | hot number =>
    have hread : disk.read (.hot number) = some content ↔ (number, content) ∈ disk.hot :=
      lookup_eq_some_iff disk.sorted
    rw [hread]
    cases disk.base with
    | none => simp [orderedHotSegments, SegmentPath.listed]
    | some bytes => simp [orderedHotSegments, SegmentPath.listed]

theorem orderedSegments_sorted (disk : Disk) :
    disk.orderedSegments.Pairwise (fun left right => left.1.rank < right.1.rank) := by
  have hhot : (disk.orderedHotSegments.map (fun entry => (SegmentPath.hot entry.1, entry.2))).Pairwise
      (fun left right => left.1.rank < right.1.rank) := by
    rw [pairwise_map]
    have hsorted := disk.sorted
    rw [pairwise_map] at hsorted
    apply (hsorted.filter _).imp
    intro left right hlt
    simp only [SegmentPath.rank]
    omega
  unfold orderedSegments
  cases disk.base with
  | none => exact hhot
  | some content =>
    rw [singleton_append, pairwise_cons]
    refine ⟨fun segment hsegment => ?_, hhot⟩
    obtain ⟨entry, -, rfl⟩ := mem_map.mp hsegment
    simp [SegmentPath.rank]

theorem listed_activeSegmentPath (disk : Disk) : disk.activeSegmentPath.listed = true := by
  unfold activeSegmentPath
  cases h : disk.orderedHotSegments.getLast? with
  | none => rfl
  | some entry => exact (mem_filter.mp (mem_of_getLast? h)).2

private theorem orderedHot_le_last {disk : Disk} (h : disk.orderedHotSegments.getLast? = some last)
    (hentry : entry ∈ disk.orderedHotSegments) : entry.1 ≤ last.1 := by
  have hsorted : disk.orderedHotSegments.Pairwise (fun left right => left.1 < right.1) := by
    have hkeys := disk.sorted
    rw [pairwise_map] at hkeys
    exact hkeys.filter _
  have hsplit := dropLast_append_getLast? last h
  rw [← hsplit] at hsorted hentry
  rcases mem_append.mp hentry with hmem | hmem
  · exact le_of_lt ((pairwise_append.mp hsorted).2.2 entry hmem last (by simp))
  · rw [mem_singleton.mp hmem]

theorem rank_le_active {disk : Disk} {path : SegmentPath} {content : Bytes}
    (h : disk.read path = some content) (hlisted : path.listed = true) :
    path.rank ≤ disk.activeSegmentPath.rank := by
  cases path with
  | base => exact Nat.zero_le _
  | hot number =>
    have hmem : (number, content) ∈ disk.orderedHotSegments :=
      mem_filter.mpr ⟨(lookup_eq_some_iff disk.sorted).mp h, hlisted⟩
    unfold activeSegmentPath
    cases hlast : disk.orderedHotSegments.getLast? with
    | none =>
      rw [List.getLast?_eq_none_iff.mp hlast] at hmem
      simp at hmem
    | some last =>
      have hle := orderedHot_le_last hlast hmem
      simp only [SegmentPath.rank]
      omega

private theorem read_active {disk : Disk} :
    disk.activeSegmentPath = .base ∨ ∃ content, disk.read disk.activeSegmentPath = some content := by
  unfold activeSegmentPath
  cases hlast : disk.orderedHotSegments.getLast? with
  | none => exact .inl rfl
  | some last =>
    have hmem := (mem_filter.mp (mem_of_getLast? hlast)).1
    exact .inr ⟨last.2, (lookup_eq_some_iff disk.sorted).mpr hmem⟩

theorem active_rank_le {disk later : Disk}
    (h : ∀ content, disk.read disk.activeSegmentPath = some content →
      ∃ content, later.read disk.activeSegmentPath = some content) :
    disk.activeSegmentPath.rank ≤ later.activeSegmentPath.rank := by
  rcases disk.read_active with hbase | ⟨content, hread⟩
  · rw [hbase]
    exact Nat.zero_le _
  · obtain ⟨content, hlater⟩ := h content hread
    exact rank_le_active hlater disk.listed_activeSegmentPath

theorem active_lt_next (disk : Disk) : disk.activeSegmentPath.rank < disk.nextSegmentPath.rank := by
  unfold activeSegmentPath nextSegmentPath
  cases disk.orderedHotSegments.getLast? with
  | none => simp [SegmentPath.rank]
  | some last => simp [SegmentPath.rank]

end Disk

end Flowness.Ledger
