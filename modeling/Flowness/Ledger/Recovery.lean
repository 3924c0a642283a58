import Flowness.Ledger.Log

/-!
`EventLog.recover`: the active segment is cut after its last path-B or sentinel line that comes
before the first line it cannot parse.
-/

namespace Flowness.Ledger

open List Library Schemas

/-- A path-B record or a sentinel: the lines `recover` takes for a safe end. -/
def settles (record : EventRecord) : Bool := record.batch.isNone || record.isSentinel

def recordOfPiece (piece : Bytes) : Option EventRecord :=
  (decodeText piece).bind EventRecord.validateJson

/-- The walk over the pieces: `cursor` counts each piece and its newline, `safeEnd` is the end of
the last settling one. `path_a_pending` is never read and left out. -/
def walkPieces : (cursor safeEnd : Nat) → List Bytes → Nat
  | _, safeEnd, [] => safeEnd
  | cursor, safeEnd, line :: lines =>
    if line = [] then walkPieces (cursor + (line.length + 1)) safeEnd lines
    else match recordOfPiece line with
      | none => safeEnd
      | some record =>
        if settles record then
          walkPieces (cursor + (line.length + 1)) (cursor + (line.length + 1)) lines
        else walkPieces (cursor + (line.length + 1)) safeEnd lines

def safeEndOf (content : Bytes) : Nat := walkPieces 0 0 (splitNewlines content)

def lifecycleStateOf (contents : List Bytes) : Except ScanError (Int × List String × List Int) := do
  let lines ← readSegments contents
  let fields ← iterCommittedLifecycleFields lines
  return ((fields.map Prod.fst).foldl max (-1) + 1, fields.map Prod.snd, fields.map Prod.fst)

/-- `_derive_lifecycle_state`: next sequence number, event ids, sequence numbers. -/
def deriveLifecycleState (disk : Disk) : Except ScanError (Int × List String × List Int) :=
  lifecycleStateOf (disk.orderedSegments.map Prod.snd)

/-- `recover` on the path it took for the active segment before it had the lock: the disk it
leaves, and what it returns or raises. -/
def recoverAt (log : EventLog) (disk : Disk) (active : SegmentPath) :
    Disk × Except ScanError (EventLog × Int) :=
  match disk.read active with
  | none => (disk, .ok (log, 0))
  | some content =>
    if content = [] ∨ safeEndOf content = content.length then (disk, .ok (log, 0))
    else
      let truncated : Int := content.length - safeEndOf content
      let disk := disk.write active (content.take (safeEndOf content))
      (disk, (deriveLifecycleState disk).map fun (nextSequence, eventIdSet, sequenceSet) =>
        ({ log with nextSequence, eventIdSet, sequenceSet }, truncated))

def recover (log : EventLog) (disk : Disk) : Disk × Except ScanError (EventLog × Int) :=
  recoverAt log disk disk.activeSegmentPath

def parses (piece : Bytes) : Bool := piece = [] || (recordOfPiece piece).isSome

def pieceSettles (piece : Bytes) : Bool := (recordOfPiece piece).any settles

def keptPieces : List Bytes → List Bytes
  | [] => []
  | piece :: pieces =>
    if !parses piece then []
    else match keptPieces pieces with
      | [] => if pieceSettles piece then [piece] else []
      | kept :: more => piece :: kept :: more

def piecesAfterTear (pieces : List Bytes) : List Bytes := pieces.dropWhile parses

private theorem recordOfPiece_nil : recordOfPiece [] = none := by decide +kernel

private theorem walkPieces_eq (cursor safeEnd : Nat) (pieces : List Bytes) :
    walkPieces cursor safeEnd pieces =
      if keptPieces pieces = [] then safeEnd
      else cursor + (terminated (keptPieces pieces)).length := by
  induction pieces generalizing cursor safeEnd with
  | nil => rfl
  | cons piece pieces ih =>
    unfold walkPieces keptPieces parses pieceSettles
    by_cases hempty : piece = []
    · subst hempty
      rw [ih]
      cases hkept : keptPieces pieces with
      | nil => simp [recordOfPiece_nil]
      | cons kept more =>
        simp
        omega
    · rw [if_neg hempty]
      cases hrecord : recordOfPiece piece with
      | none => simp [hempty]
      | some record =>
        cases hsettles : settles record with
        | true =>
          simp only [ih]
          cases hkept : keptPieces pieces with
          | nil => simp [hsettles]
          | cons kept more =>
            simp
            omega
        | false =>
          simp only [ih]
          cases hkept : keptPieces pieces with
          | nil => simp [hsettles]
          | cons kept more =>
            simp
            omega

theorem safeEndOf_eq (content : Bytes) :
    safeEndOf content = (terminated (keptPieces (splitNewlines content))).length := by
  unfold safeEndOf
  rw [walkPieces_eq]
  split
  next hnil =>
    rw [hnil]
    rfl
  · omega

theorem keptPieces_spec (pieces : List Bytes) :
    ∃ pending, pieces = keptPieces pieces ++ pending ++ piecesAfterTear pieces ∧
      ∀ piece ∈ pending, pieceSettles piece = false := by
  induction pieces with
  | nil => exact ⟨[], rfl, by simp⟩
  | cons piece pieces ih =>
    obtain ⟨pending, hsplit, hpending⟩ := ih
    by_cases hparses : parses piece = true
    · have htear : piecesAfterTear (piece :: pieces) = piecesAfterTear pieces :=
        dropWhile_cons_of_pos hparses
      rw [htear, keptPieces]
      simp only [hparses, Bool.not_true]
      cases hkept : keptPieces pieces with
      | nil =>
        rw [hkept] at hsplit
        cases hsettles : pieceSettles piece with
        | true => exact ⟨pending, congrArg (piece :: ·) hsplit, hpending⟩
        | false =>
          refine ⟨piece :: pending, congrArg (piece :: ·) hsplit, ?_⟩
          intro p hp
          rcases mem_cons.mp hp with rfl | hp
          · exact hsettles
          · exact hpending p hp
      | cons kept more =>
        rw [hkept] at hsplit
        exact ⟨pending, congrArg (piece :: ·) hsplit, hpending⟩
    · have htear : piecesAfterTear (piece :: pieces) = piece :: pieces :=
        dropWhile_cons_of_neg hparses
      refine ⟨[], ?_, by simp⟩
      rw [htear, keptPieces]
      simp [hparses]

theorem keptPieces_getLast (pieces : List Bytes) (h : keptPieces pieces ≠ []) :
    ∃ front last, keptPieces pieces = front ++ [last] ∧ pieceSettles last = true := by
  induction pieces with
  | nil => contradiction
  | cons piece pieces ih =>
    rw [keptPieces] at h ⊢
    by_cases hparses : parses piece = true
    · simp only [hparses, Bool.not_true, Bool.false_eq_true, if_false] at h ⊢
      cases hkept : keptPieces pieces with
      | nil =>
        simp only [hkept] at h
        cases hsettles : pieceSettles piece with
        | true => exact ⟨[], piece, rfl, hsettles⟩
        | false => simp [hsettles] at h
      | cons kept more =>
        obtain ⟨front, last, hfront, hlast⟩ := ih (by simp [hkept])
        rw [hkept] at hfront
        exact ⟨piece :: front, last, congrArg (piece :: ·) hfront, hlast⟩
    · simp [hparses] at h

theorem keptPieces_parse (pieces : List Bytes) : ∀ piece ∈ keptPieces pieces, parses piece = true := by
  induction pieces with
  | nil => simp [keptPieces]
  | cons piece pieces ih =>
    rw [keptPieces]
    by_cases hparses : parses piece = true
    · simp only [hparses, Bool.not_true, Bool.false_eq_true, if_false]
      cases hkept : keptPieces pieces with
      | nil =>
        dsimp only
        split
        · simpa using hparses
        · simp
      | cons kept more =>
        rw [hkept] at ih
        intro p hp
        rcases mem_cons.mp hp with rfl | hp
        · exact hparses
        · exact ih p hp
    · simp [hparses]

/-- Every line parses and the last one, unterminated, is a path-B record or a sentinel. -/
def EndsUnterminated (pieces : List Bytes) : Prop :=
  piecesAfterTear pieces = [] ∧ ∃ front last, pieces = front ++ [last] ∧ pieceSettles last = true

theorem endsUnterminated_iff (hne : pieces ≠ []) :
    EndsUnterminated pieces ↔ keptPieces pieces = pieces := by
  obtain ⟨pending, hsplit, hpending⟩ := keptPieces_spec pieces
  constructor
  · rintro ⟨htear, front, last, hlast, hsettles⟩
    rw [htear, append_nil] at hsplit
    rcases eq_nil_or_concat pending with rfl | ⟨init, piece, rfl⟩
    · rw [append_nil] at hsplit
      exact hsplit.symm
    · have heq : front ++ [last] = keptPieces pieces ++ init ++ [piece] := by
        rw [← hlast, append_assoc, ← concat_eq_append]
        exact hsplit
      have hpiece : last = piece := by simpa using (append_inj' heq rfl).2
      rw [hpiece, hpending piece (by simp)] at hsettles
      contradiction
  · intro hkept
    have hnil : pending ++ piecesAfterTear pieces = [] := by
      rw [hkept] at hsplit
      simpa using hsplit
    refine ⟨(append_eq_nil_iff.mp hnil).2, ?_⟩
    have hlast := keptPieces_getLast pieces (by rw [hkept]; exact hne)
    rw [hkept] at hlast
    exact hlast

theorem visit_out_nil (h : visit buffer record = .ok (out, buffer')) :
    out = [] ↔ ¬(record.isKnown = true ∧ settles record = true) := by
  unfold visit at h
  split at h
  · contradiction
  · split at h
    next hunknown =>
      cases h
      simp only [Bool.not_eq_true'] at hunknown
      simp [hunknown]
    next hknown =>
      simp only [Bool.not_eq_true'] at hknown
      unfold settles EventRecord.batchId at *
      cases hbatch : record.batch with
      | none =>
        simp only [hbatch] at h
        cases h
        simp [hknown]
      | some slot =>
        simp only [hbatch, Option.map_some] at h
        split at h
        next hsentinel =>
          cases h
          simp [hknown, hsentinel]
        next hsentinel =>
          cases h
          simp [hsentinel]

theorem visitAll_out_nil (h : visitAll buffer records = .ok (out, buffer')) :
    out = [] ↔ ∀ record ∈ records, ¬(record.isKnown = true ∧ settles record = true) := by
  induction records generalizing buffer out with
  | nil =>
    cases h
    simp
  | cons record records ih =>
    obtain ⟨early, next, late, hvisit, hrest, rfl⟩ := visitAll_cons_ok h
    rw [append_eq_nil_iff, visit_out_nil hvisit, ih hrest]
    simp

end Flowness.Ledger
