import Mathlib.Data.List.Sort
import Flowness.Ledger.Committed

/-!
The segment files of one log: the base `events.log` and the rotated `events/hot/events-NNNNNN.jsonl`.
Reading order is the base, then the hot segments by number; the last one is active.
-/

namespace Flowness.Ledger

open List Library Schemas

inductive SegmentPath where
  | base
  | hot (number : Nat)
deriving DecidableEq, Repr

theorem ascending_nil : ([] : List Nat).Pairwise (· < ·) := List.Pairwise.nil

/-- `base` is `none` while `events.log` does not exist; `hot` is the directory by segment number. -/
structure Disk where
  base : Option Bytes
  hot : List (Nat × Bytes)
  sorted : (hot.map Prod.fst).Pairwise (· < ·)

namespace Disk

@[ext] theorem ext {left right : Disk} (hbase : left.base = right.base)
    (hhot : left.hot = right.hot) : left = right := by
  cases left
  cases right
  cases hbase
  cases hhot
  rfl

def empty : Disk := { base := some [], hot := [], sorted := ascending_nil }

/-- Only six-digit names match `_HOT_SEGMENT_RE`. -/
def isListed (number : Nat) : Bool := number < 1000000

def orderedHotSegments (disk : Disk) : List (Nat × Bytes) :=
  disk.hot.filter (fun entry => isListed entry.1)

def orderedSegments (disk : Disk) : List (SegmentPath × Bytes) :=
  (match disk.base with
    | some content => [(SegmentPath.base, content)]
    | none => []) ++
    disk.orderedHotSegments.map (fun entry => (SegmentPath.hot entry.1, entry.2))

def activeSegmentPath (disk : Disk) : SegmentPath :=
  match disk.orderedHotSegments.getLast? with
  | some entry => .hot entry.1
  | none => .base

def nextSegmentPath (disk : Disk) : SegmentPath :=
  match disk.orderedHotSegments.getLast? with
  | some entry => .hot (entry.1 + 1)
  | none => .hot 1

def read (disk : Disk) : SegmentPath → Option Bytes
  | .base => disk.base
  | .hot number => disk.hot.lookup number

/-- `path.write_bytes(content)` of one file of the directory. -/
def writeHot (number : Nat) (content : Bytes) : List (Nat × Bytes) → List (Nat × Bytes)
  | [] => [(number, content)]
  | (n, old) :: rest =>
    if number < n then (number, content) :: (n, old) :: rest
    else if number = n then (number, content) :: rest
    else (n, old) :: writeHot number content rest

variable {content : Bytes} {disk : Disk} {back files front : List (Nat × Bytes)} {n number : Nat}

theorem mem_keys_writeHot :
    n ∈ (writeHot number content files).map Prod.fst ↔ n = number ∨ n ∈ files.map Prod.fst := by
  induction files with
  | nil => simp [writeHot]
  | cons entry rest ih =>
    unfold writeHot
    split
    · simp
    · split
      next heq =>
        subst heq
        simp
      · rw [map_cons, mem_cons, ih, map_cons, mem_cons]
        tauto

theorem sorted_writeHot (h : (files.map Prod.fst).Pairwise (· < ·)) :
    ((writeHot number content files).map Prod.fst).Pairwise (· < ·) := by
  induction files with
  | nil => simp [writeHot]
  | cons entry rest ih =>
    simp only [map_cons, pairwise_cons] at h
    unfold writeHot
    split
    next hlt =>
      simp only [map_cons, pairwise_cons, mem_cons, forall_eq_or_imp]
      exact ⟨⟨hlt, fun n hn => lt_trans hlt (h.1 n hn)⟩, h⟩
    · split
      next heq =>
        subst heq
        simpa using h
      next hge hne =>
        rw [map_cons, pairwise_cons]
        refine ⟨fun n hn => ?_, ih h.2⟩
        rcases mem_keys_writeHot.mp hn with rfl | hn
        · omega
        · exact h.1 n hn

def write (disk : Disk) (path : SegmentPath) (content : Bytes) : Disk :=
  match path with
  | .base => { disk with base := some content }
  | .hot number =>
    { disk with hot := writeHot number content disk.hot, sorted := sorted_writeHot disk.sorted }

/-- `open(path, "a")`, write, close. -/
def append (disk : Disk) (path : SegmentPath) (bytes : Bytes) : Disk :=
  disk.write path ((disk.read path).getD [] ++ bytes)

def sealedSegments (disk : Disk) : List (SegmentPath × Bytes) :=
  match disk.orderedHotSegments.getLast? with
  | some _ =>
    (match disk.base with
      | some content => [(SegmentPath.base, content)]
      | none => []) ++
      disk.orderedHotSegments.dropLast.map (fun entry => (SegmentPath.hot entry.1, entry.2))
  | none => []

theorem lookup_of_mem (hsorted : (files.map Prod.fst).Pairwise (· < ·))
    (h : (number, content) ∈ files) : files.lookup number = some content := by
  induction files with
  | nil => simp at h
  | cons entry rest ih =>
    obtain ⟨m, old⟩ := entry
    simp only [map_cons, pairwise_cons] at hsorted
    rcases mem_cons.mp h with heq | hmem
    · cases heq
      simp
    · have hlt : m < number := hsorted.1 number (mem_map_of_mem hmem)
      have hne : (number == m) = false := by
        rw [beq_eq_false_iff_ne]
        omega
      rw [lookup_cons, hne]
      exact ih hsorted.2 hmem

private theorem writeHot_append (hfront : ∀ n ∈ front.map Prod.fst, n < number) :
    writeHot number content (front ++ back) = front ++ writeHot number content back := by
  induction front with
  | nil => rfl
  | cons entry front ih =>
    obtain ⟨m, c⟩ := entry
    have hm : m < number := hfront m (by simp)
    rw [cons_append, writeHot, if_neg (by omega), if_neg (by omega),
      ih (fun n hn => hfront n (by simp only [map_cons, mem_cons]; exact .inr hn))]
    rfl

private theorem writeHot_of_split {old : Bytes} (hfront : ∀ n ∈ front.map Prod.fst, n < number) :
    writeHot number content (front ++ (number, old) :: back) =
      front ++ (number, content) :: back := by
  rw [writeHot_append hfront, writeHot, if_neg (lt_irrefl number), if_pos rfl]

private theorem writeHot_insert (hfront : ∀ n ∈ front.map Prod.fst, n < number)
    (hback : ∀ entry ∈ back, number < entry.1) :
    writeHot number content (front ++ back) = front ++ (number, content) :: back := by
  rw [writeHot_append hfront]
  cases back with
  | nil => rfl
  | cons entry back => rw [writeHot, if_pos (hback entry mem_cons_self)]

private theorem lookup_eq_none_of_lt (h : ∀ entry ∈ files, entry.1 ≠ number) :
    files.lookup number = none := by
  rw [lookup_eq_none_iff]
  intro entry hentry
  simpa using fun heq : number = entry.1 => h entry hentry heq.symm

theorem orderedSegments_eq (h : disk.read disk.activeSegmentPath = some content) :
    disk.orderedSegments = disk.sealedSegments ++ [(disk.activeSegmentPath, content)] := by
  unfold orderedSegments sealedSegments activeSegmentPath at *
  cases hlast : disk.orderedHotSegments.getLast? with
  | none =>
    rw [hlast] at h
    have hbase : disk.base = some content := h
    rw [hbase, List.getLast?_eq_none_iff.mp hlast]
    rfl
  | some entry =>
    rw [hlast] at h
    obtain ⟨number, last⟩ := entry
    have hmem : (number, last) ∈ disk.hot :=
      (mem_filter.mp (mem_of_getLast? hlast)).1
    have hcontent : last = content := by
      have hlookup := lookup_of_mem disk.sorted hmem
      have hread : disk.hot.lookup number = some content := h
      rw [hlookup] at hread
      exact Option.some.inj hread
    subst hcontent
    have hsplit := dropLast_append_getLast? (number, last) hlast
    simp only [append_assoc]
    congr 1
    nth_rewrite 1 [← hsplit]
    rw [map_append]
    rfl

private theorem isListed_of_le {m : Nat} (h : m ≤ n) (hn : isListed n = true) :
    isListed m = true := by
  unfold isListed at *
  simp only [decide_eq_true_eq] at *
  omega

private theorem hot_split (h : disk.orderedHotSegments.getLast? = some (number, content)) :
    ∃ front back, disk.hot = front ++ (number, content) :: back ∧
      (∀ n ∈ front.map Prod.fst, n < number) ∧
      (∀ entry ∈ front, isListed entry.1 = true) ∧ isListed number = true ∧
      (∀ entry ∈ back, number < entry.1 ∧ isListed entry.1 = false) := by
  have hlisted := mem_filter.mp (mem_of_getLast? h)
  obtain ⟨front, back, hsplit⟩ := append_of_mem hlisted.1
  have hnumber : isListed number = true := hlisted.2
  have hsorted := disk.sorted
  rw [hsplit, map_append, map_cons, pairwise_append, pairwise_cons] at hsorted
  obtain ⟨-, ⟨hback, -⟩, hcross⟩ := hsorted
  have hfront : ∀ n ∈ front.map Prod.fst, n < number :=
    fun n hn => hcross n hn number mem_cons_self
  refine ⟨front, back, hsplit, hfront, ?_, hnumber, ?_⟩
  · exact fun entry hentry =>
      isListed_of_le (le_of_lt (hfront _ (mem_map_of_mem hentry))) hnumber
  · intro entry hentry
    refine ⟨hback _ (mem_map_of_mem hentry), ?_⟩
    by_contra hne
    have hlast : disk.orderedHotSegments =
        front.filter (fun e => isListed e.1) ++
          (number, content) :: back.filter (fun e => isListed e.1) := by
      unfold orderedHotSegments
      rw [hsplit, filter_append, filter_cons_of_pos (by exact hnumber)]
    have hbackmem : entry ∈ back.filter (fun e => isListed e.1) :=
      mem_filter.mpr ⟨hentry, by simpa using hne⟩
    rw [hlast, List.getLast?_append, List.getLast?_cons] at h
    have htail : (back.filter (fun e => isListed e.1)).getLast? = some (number, content) := by
      cases hgl : (back.filter (fun e => isListed e.1)).getLast? with
      | none =>
        rw [List.getLast?_eq_none_iff.mp hgl] at hbackmem
        simp at hbackmem
      | some e =>
        rw [hgl] at h
        simpa using h
    have hself := hback number (mem_map_of_mem
      (mem_filter.mp (mem_of_getLast? htail)).1)
    exact lt_irrefl _ hself

private theorem filter_listed_of_split (hfront : ∀ entry ∈ front, isListed entry.1 = true)
    (hnumber : isListed number = true) (hback : ∀ entry ∈ back, isListed entry.1 = false)
    (c : Bytes) :
    (front ++ (number, c) :: back).filter (fun entry => isListed entry.1) =
      front ++ [(number, c)] := by
  have hfront' : front.filter (fun entry => isListed entry.1) = front :=
    filter_eq_self.mpr hfront
  have hback' : back.filter (fun entry => isListed entry.1) = [] :=
    filter_eq_nil_iff.mpr (fun e he => by simp [hback e he])
  rw [filter_append, hfront', filter_cons_of_pos (by exact hnumber), hback']

theorem write_active (disk : Disk) (content : Bytes) :
    (disk.write disk.activeSegmentPath content).activeSegmentPath = disk.activeSegmentPath ∧
      (disk.write disk.activeSegmentPath content).sealedSegments = disk.sealedSegments ∧
      (disk.write disk.activeSegmentPath content).orderedSegments =
        disk.sealedSegments ++ [(disk.activeSegmentPath, content)] := by
  cases hlast : disk.orderedHotSegments.getLast? with
  | none =>
    have hactive : disk.activeSegmentPath = .base := by
      unfold activeSegmentPath
      rw [hlast]
    have hnil := List.getLast?_eq_none_iff.mp hlast
    have hhot : (disk.write .base content).orderedHotSegments = [] := hnil
    rw [hactive]
    unfold activeSegmentPath sealedSegments orderedSegments
    rw [hhot, hnil]
    simp [write]
  | some entry =>
    obtain ⟨number, old⟩ := entry
    have hactive : disk.activeSegmentPath = .hot number := by
      unfold activeSegmentPath
      rw [hlast]
    obtain ⟨front, back, hsplit, hfront, hlisted, hnumber, hback⟩ := hot_split hlast
    have hold : disk.orderedHotSegments = front ++ [(number, old)] := by
      unfold orderedHotSegments
      rw [hsplit]
      exact filter_listed_of_split hlisted hnumber (fun e he => (hback e he).2) old
    have hnew : (disk.write (.hot number) content).orderedHotSegments =
        front ++ [(number, content)] := by
      unfold orderedHotSegments write
      dsimp only
      rw [hsplit, writeHot_of_split hfront]
      exact filter_listed_of_split hlisted hnumber (fun e he => (hback e he).2) content
    have hbase : (disk.write (.hot number) content).base = disk.base := rfl
    rw [hactive]
    unfold activeSegmentPath sealedSegments orderedSegments
    rw [hnew, hold, hbase]
    simp

theorem read_write_self (disk : Disk) (path : SegmentPath) (content : Bytes) :
    (disk.write path content).read path = some content := by
  cases path with
  | base => rfl
  | hot number =>
    have hmem : ∀ files : List (Nat × Bytes),
        (writeHot number content files).lookup number = some content := by
      intro files
      induction files with
      | nil => simp [writeHot]
      | cons entry rest ih =>
        obtain ⟨m, old⟩ := entry
        unfold writeHot
        split
        · simp
        · split
          · simp
          next hne =>
            have hbeq : (number == m) = false := by simpa using hne
            rw [lookup_cons, hbeq]
            exact ih
    exact hmem disk.hot

private theorem isListed_lt {m : Nat} (hn : isListed n = true) (hm : isListed m = false) :
    n < m := by
  unfold isListed at *
  simp only [decide_eq_true_eq, decide_eq_false_iff_not] at *
  omega

private theorem write_new (front : List (Nat × Bytes)) (hsplit : disk.hot = front ++ back)
    (hfront : ∀ entry ∈ front, entry.1 < number)
    (hlisted : ∀ entry ∈ front, isListed entry.1 = true) (hnumber : isListed number = true)
    (hback : ∀ entry ∈ back, isListed entry.1 = false) (content : Bytes) :
    disk.read (.hot number) = none ∧ disk.orderedHotSegments = front ∧
      (disk.write (.hot number) content).orderedHotSegments = front ++ [(number, content)] := by
  have habove : ∀ entry ∈ back, number < entry.1 :=
    fun entry hentry => isListed_lt hnumber (hback entry hentry)
  refine ⟨?_, ?_, ?_⟩
  · refine lookup_eq_none_of_lt (fun entry hentry => ?_)
    rw [hsplit] at hentry
    rcases mem_append.mp hentry with hmem | hmem
    · exact ne_of_lt (hfront entry hmem)
    · exact ne_of_gt (habove entry hmem)
  · unfold orderedHotSegments
    rw [hsplit, filter_append, filter_eq_self.mpr hlisted,
      filter_eq_nil_iff.mpr (fun e he => by simp [hback e he]), append_nil]
  · unfold orderedHotSegments write
    dsimp only
    rw [hsplit, writeHot_insert _ habove]
    · exact filter_listed_of_split hlisted hnumber hback content
    · intro n hn
      obtain ⟨entry, hentry, rfl⟩ := mem_map.mp hn
      exact hfront entry hentry

theorem write_next (hnext : disk.nextSegmentPath = .hot number) (hnumber : isListed number = true)
    (content : Bytes) :
    disk.read (.hot number) = none ∧
      (disk.write (.hot number) content).activeSegmentPath = .hot number ∧
      (disk.write (.hot number) content).sealedSegments = disk.orderedSegments ∧
      (disk.write (.hot number) content).orderedSegments =
        disk.orderedSegments ++ [(.hot number, content)] := by
  have hnew : disk.read (.hot number) = none ∧
      (disk.write (.hot number) content).orderedHotSegments =
        disk.orderedHotSegments ++ [(number, content)] := by
    unfold nextSegmentPath at hnext
    cases hlast : disk.orderedHotSegments.getLast? with
    | none =>
      have hnil := List.getLast?_eq_none_iff.mp hlast
      have hback : ∀ entry ∈ disk.hot, isListed entry.1 = false := by
        intro entry hentry
        by_contra hne
        have hmem : entry ∈ disk.orderedHotSegments :=
          mem_filter.mpr ⟨hentry, by simpa using hne⟩
        rw [hnil] at hmem
        simp at hmem
      have hspec := write_new [] rfl (by simp) (by simp) hnumber hback content
      rw [hspec.2.1]
      exact ⟨hspec.1, hspec.2.2⟩
    | some entry =>
      obtain ⟨last, old⟩ := entry
      rw [hlast] at hnext
      have hsucc : last + 1 = number := SegmentPath.hot.inj hnext
      obtain ⟨front, back, hsplit, hfront, hlisted, hlast', hback⟩ := hot_split hlast
      have hbelow : ∀ entry ∈ front ++ [(last, old)], entry.1 < number ∧ isListed entry.1 = true := by
        intro entry hentry
        rcases mem_append.mp hentry with hmem | hmem
        · have hlt := hfront _ (mem_map_of_mem hmem)
          exact ⟨by omega, hlisted entry hmem⟩
        · rw [mem_singleton.mp hmem]
          exact ⟨by omega, hlast'⟩
      have hfiles : disk.hot = (front ++ [(last, old)]) ++ back := by rw [hsplit]; simp
      have hspec := write_new (front ++ [(last, old)]) hfiles (fun e he => (hbelow e he).1)
        (fun e he => (hbelow e he).2) hnumber (fun e he => (hback e he).2) content
      rw [hspec.2.1]
      exact ⟨hspec.1, hspec.2.2⟩
  have hbase : (disk.write (.hot number) content).base = disk.base := rfl
  refine ⟨hnew.1, ?_, ?_, ?_⟩
  · unfold activeSegmentPath
    rw [hnew.2]
    simp
  · unfold sealedSegments orderedSegments
    rw [hnew.2, hbase]
    simp
  · unfold orderedSegments
    rw [hnew.2, hbase]
    simp

end Disk

def readSegments : List Bytes → Except ScanError (List Text)
  | [] => .ok []
  | content :: rest =>
    match readLines content with
    | none => .error .unicodeDecode
    | some lines => (readSegments rest).map (lines ++ ·)

theorem readSegments_append (left right : List Bytes) :
    readSegments (left ++ right) = (do
      let front ← readSegments left
      let rest ← readSegments right
      return front ++ rest) := by
  induction left with
  | nil =>
    simp only [nil_append, readSegments, bind, Except.bind, pure, Except.pure]
    cases readSegments right <;> rfl
  | cons content left ih =>
    simp only [cons_append, readSegments, ih, bind, Except.bind, pure, Except.pure]
    cases readLines content with
    | none => rfl
    | some lines =>
      dsimp only
      cases readSegments left with
      | error e => rfl
      | ok front =>
        simp only [Except.map]
        cases readSegments right with
        | error e => rfl
        | ok rest => simp [append_assoc]

/-- `iter_raw_event_lines`: the stripped non-empty lines of every segment in reading order. -/
def iterRawEventLines (disk : Disk) : Except ScanError (List Text) :=
  readSegments (disk.orderedSegments.map Prod.snd)

def iterCommittedRecords (disk : Disk) : Except ScanError (List EventRecord) := do
  let lines ← iterRawEventLines disk
  iterCommittedRecordsFromLines lines

theorem iterCommittedRecords_ok {disk : Disk} : iterCommittedRecords disk = .ok records ↔
    ∃ lines buffer, iterRawEventLines disk = .ok lines ∧
      visitAll [] (parsedRecords lines) = .ok (records, buffer) := by
  simp [iterCommittedRecords, iterCommittedRecordsFromLines, bind_ok, map_ok]

end Flowness.Ledger
