import Flowness.Ledger.Prepared

/-!
Cold storage: one archive file a segment, the staging copies, a routing index from event id to
segment, and the lines that archiving reads from a hot segment. `str.splitlines` breaks at more
characters than the line-by-line readers do.
-/

namespace Flowness.Snapshot

open List Library Schemas Ledger Dict

/-- The characters at which `str.splitlines` breaks. -/
def isTextBreak (c : Char) : Bool :=
  c == '\n' || c == '\r' || c.toNat == 0x0B || c.toNat == 0x0C || c.toNat == 0x1C ||
    c.toNat == 0x1D || c.toNat == 0x1E || c.toNat == 0x85 || c.toNat == 0x2028 || c.toNat == 0x2029

/-- `_non_empty_lines`: the lines are kept as they are. -/
def nonEmptyLines (text : Text) : List Text :=
  (text.splitOnP isTextBreak).filter (fun line => strip line ≠ [])

structure ColdStore where
  archives : Dict Nat Bytes
  staging : Dict Nat Bytes
  index : Dict String Nat
deriving DecidableEq, Repr

namespace ColdStore

def empty : ColdStore := { archives := [], staging := [], index := [] }

/-- `update_cold_index`. -/
def updateIndex (store : ColdStore) (eventIds : List String) (segment : Nat) : ColdStore :=
  { store with index := eventIds.foldl (fun index eventId => Dict.set index eventId segment) store.index }

def stage (store : ColdStore) (segment : Nat) (copy : Bytes) : ColdStore :=
  { store with staging := Dict.set store.staging segment copy }

def rollbackPreparedArchive (store : ColdStore) (segment : Nat) : ColdStore :=
  { store with staging := Dict.erase store.staging segment }

/-- `_rename_staging_to_cold`: an archive that exists is not replaced. -/
def renameStagingToCold (store : ColdStore) (segment : Nat) : ColdStore :=
  match store.staging.get segment with
  | none => store
  | some copy =>
    let store := store.rollbackPreparedArchive segment
    if store.archives.contains segment then store
    else { store with archives := Dict.set store.archives segment copy }

def dropSegment (store : ColdStore) (segment : Nat) : ColdStore :=
  { store with index := store.index.filter (fun entry => entry.2 ≠ segment) }

end ColdStore

variable {store : ColdStore} {records : List EventRecord} {segment : Nat}

namespace ColdStore

theorem get_updateIndex (store : ColdStore) (eventIds : List String) (segment : Nat)
    (eventId : String) : (store.updateIndex eventIds segment).index.get eventId =
      if eventId ∈ eventIds then some segment else store.index.get eventId :=
  get_foldl_set store.index eventIds segment eventId

theorem updateIndex_of_routed (h : ∀ eventId ∈ eventIds, store.index.get eventId = some segment) :
    store.updateIndex eventIds segment = store := by
  have hindex : eventIds.foldl (fun index eventId => Dict.set index eventId segment) store.index =
      store.index := by
    induction eventIds with
    | nil => rfl
    | cons first rest ih =>
      rw [foldl_cons, set_of_get (h first mem_cons_self)]
      exact ih (fun eventId hid => h eventId (mem_cons_of_mem _ hid))
  unfold updateIndex
  rw [hindex]

theorem index_renameStagingToCold (store : ColdStore) (segment : Nat) :
    (store.renameStagingToCold segment).index = store.index := by
  unfold renameStagingToCold
  split
  · rfl
  · dsimp only
    split <;> rfl

theorem archives_renameStagingToCold_congr {other : ColdStore}
    (harchives : store.archives = other.archives) (hstaging : store.staging = other.staging)
    (segment : Nat) : (store.renameStagingToCold segment).archives =
      (other.renameStagingToCold segment).archives := by
  unfold renameStagingToCold rollbackPreparedArchive
  rw [hstaging]
  split
  · exact harchives
  · dsimp only
    rw [harchives]
    split <;> rfl

theorem renameStagingToCold_stage (hstaging : store.staging = []) (segment : Nat) (copy : Bytes) :
    (store.stage segment copy).renameStagingToCold segment =
      if store.archives.contains segment then store
      else { store with archives := Dict.set store.archives segment copy } := by
  obtain ⟨archives, staging, index⟩ := store
  obtain rfl : staging = [] := hstaging
  have herase : Dict.erase (Dict.set ([] : Dict Nat Bytes) segment copy) segment = [] := by
    simp [Dict.erase, Dict.set]
  unfold renameStagingToCold stage rollbackPreparedArchive
  simp only [get_set_self, herase]

section

variable {store : ColdStore} (hstaging : store.staging = []) (segment : Nat) (copy : Bytes)

include hstaging

theorem staging_renameStagingToCold_stage :
    ((store.stage segment copy).renameStagingToCold segment).staging = [] := by
  rw [renameStagingToCold_stage hstaging]
  split <;> exact hstaging

theorem get_archives_renameStagingToCold_stage (other : Nat) :
    ((store.stage segment copy).renameStagingToCold segment).archives.get other =
      if other = segment then some ((store.archives.get segment).getD copy)
      else store.archives.get other := by
  rw [renameStagingToCold_stage hstaging]
  unfold Dict.contains
  cases hget : store.archives.get segment with
  | some old =>
    rw [Option.isSome_some, if_pos rfl, Option.getD_some]
    split
    next heq =>
      rw [heq, hget]
    · rfl
  | none =>
    rw [Option.isSome_none, if_neg Bool.false_ne_true, Option.getD_none]
    split
    next heq =>
      rw [heq, get_set_self]
    next hne =>
      exact get_set_of_ne _ _ hne

theorem contains_renameStagingToCold_stage (other : Nat) :
    ((store.stage segment copy).renameStagingToCold segment).archives.contains other =
      (decide (other = segment) || store.archives.contains other) := by
  unfold Dict.contains
  rw [get_archives_renameStagingToCold_stage hstaging]
  by_cases heq : other = segment <;> simp [heq]

end

theorem get_dropSegment_of_ne (h : store.index.get eventId = some other) (hne : other ≠ segment) :
    (store.dropSegment segment).index.get eventId = some other :=
  get_filter_of_pos h (by simpa using hne)

end ColdStore

/-- The stripped non-empty lines of an archive; `none` when a line is not UTF-8. -/
def archiveLines (archive : Bytes) : Option (List Text) :=
  ((splitNewlines archive).mapM decodeText).map fun lines => (lines.map strip).filter (· ≠ [])

def archiveRecords (archive : Bytes) : Option (List EventRecord) :=
  (archiveLines archive).bind fun lines => lines.mapM EventRecord.validateJson

/-- `cold_lookup`; `none` outside is a decoding error. -/
def coldLookup (store : ColdStore) (eventId : String) : Option (Option EventRecord) :=
  match (store.index.get eventId).bind store.archives.get with
  | none => some none
  | some archive => (archiveLines archive).map fun lines =>
    (lines.filterMap EventRecord.validateJson).find? (fun record => record.eventId.val = eventId)

def coldRecordsForSegment (store : ColdStore) (segment : Nat) : Option (List EventRecord) :=
  match store.archives.get segment with
  | none => some []
  | some archive => archiveRecords archive

/-- `prepare_archive_to_cold`: the non-empty lines of the hot file, each on its own line. -/
def prepareArchiveToCold (content : Bytes) : Option Bytes :=
  (decodeText content).map fun text => frameLines (nonEmptyLines text)

def segmentEventIds (content : Bytes) : Option (List String) :=
  (decodeText content).map fun text =>
    (nonEmptyLines text).filterMap fun line =>
      ((Json.parse (strip line)).bind fun value => value.get "event_id").bind fun
        | .str eventId => some eventId
        | _ => none

/-- `get_event`: what the index of the instance has, the last record of an id, or else what cold
storage has. -/
def getEvent (warm : List EventRecord) (store : ColdStore) (eventId : String) :
    Option (Option EventRecord) :=
  match (warm.filter (fun record => record.eventId.val = eventId)).getLast? with
  | some record => some (some record)
  | none => coldLookup store eventId

/-- `_segment_records`: what `get_event` gives for the ids on the lines. -/
def segmentRecordsBy (warm : List EventRecord) (store : ColdStore) (content : Bytes) :
    Option (List EventRecord) :=
  (segmentEventIds content).bind fun eventIds =>
    (eventIds.mapM (getEvent warm store)).map List.reduceOption

/-- The lines `str.splitlines` makes of one record line. -/
def recordPieces (record : EventRecord) : List Text :=
  (record.dumpJson.splitOnP isTextBreak).filter (fun line => strip line ≠ [])

/-- No record line breaks under `str.splitlines`. -/
def Unbroken (records : List EventRecord) : Prop :=
  ∀ record ∈ records, ∀ c ∈ record.dumpJson, isTextBreak c = false

-- through the Boolean test, since a bounded quantifier over characters may be decided over all of them
instance (records : List EventRecord) : Decidable (Unbroken records) :=
  decidable_of_iff (records.all (fun record => record.dumpJson.all fun c => !isTextBreak c) = true)
    (by simp [Unbroken])

theorem strip_dumpJson (record : EventRecord) : strip record.dumpJson = record.dumpJson :=
  (EventRecord.tidy_dumpJson record).stripped

theorem nonEmptyLines_dump (records : List EventRecord) :
    nonEmptyLines (records.flatMap fun record => record.dumpJson ++ ['\n']) =
      records.flatMap recordPieces := by
  induction records with
  | nil => rfl
  | cons record records ih =>
    unfold nonEmptyLines at ih ⊢
    rw [flatMap_cons, append_assoc, singleton_append,
      splitOnP_append_cons _ _ (by decide), filter_append, ih, flatMap_cons]
    rfl

theorem recordPieces_unbroken (h : ∀ c ∈ record.dumpJson, isTextBreak c = false) :
    recordPieces record = [record.dumpJson] := by
  have hkeep : strip record.dumpJson ≠ [] := by
    rw [strip_dumpJson]
    exact (EventRecord.tidy_dumpJson record).nonempty
  unfold recordPieces
  rw [splitOnP_eq_singleton h, filter_cons_of_pos (by simpa using hkeep)]
  rfl

theorem flatMap_recordPieces (h : Unbroken records) :
    records.flatMap recordPieces = records.map EventRecord.dumpJson := by
  induction records with
  | nil => rfl
  | cons record records ih =>
    rw [flatMap_cons, recordPieces_unbroken (h record mem_cons_self),
      ih (fun r hr => h r (mem_cons_of_mem _ hr))]
    rfl

theorem decodeText_recordLines (records : List EventRecord) :
    decodeText (recordLines records) =
      some (records.flatMap fun record => record.dumpJson ++ ['\n']) := by
  have hencode : recordLines records =
      encodeText (records.flatMap fun record => record.dumpJson ++ ['\n']) := by
    induction records with
    | nil => rfl
    | cons record records ih =>
      rw [recordLines_cons, ih, flatMap_cons, encodeText_append, encodeText_append,
        append_assoc]
      rfl
  rw [hencode, decodeText_encodeText]

theorem prepareArchiveToCold_recordLines (records : List EventRecord) :
    prepareArchiveToCold (recordLines records) =
      some (frameLines (records.flatMap recordPieces)) := by
  rw [prepareArchiveToCold, decodeText_recordLines, Option.map_some, nonEmptyLines_dump]

theorem segmentEventIds_recordLines (h : Unbroken records) :
    segmentEventIds (recordLines records) =
      some (records.map fun record => record.eventId.val) := by
  rw [segmentEventIds, decodeText_recordLines, Option.map_some, nonEmptyLines_dump,
    flatMap_recordPieces h]
  congr 1
  clear h
  induction records with
  | nil => rfl
  | cons record records ih =>
    have hid : record.toJson.get "event_id" = some (.str record.eventId.val) := rfl
    rw [map_cons, filterMap_cons, strip_dumpJson, EventRecord.parse_dumpJson,
      Option.bind_some, hid, Option.bind_some, ih, map_cons]

theorem archiveLines_frameLines (h : ∀ line ∈ lines, '\n' ∉ line) :
    archiveLines (frameLines lines) = some ((lines.map strip).filter (· ≠ [])) := by
  have hpieces := splitNewlines_frameLines h
  have hdecode : (lines.map encodeText ++ [[]]).mapM decodeText = some (lines ++ [[]]) := by
    clear hpieces h
    induction lines with
    | nil => decide
    | cons line lines ih =>
      rw [map_cons, cons_append, mapM_cons, decodeText_encodeText, ih]
      rfl
  have hlast : ([[]] : List Text).map strip = [[]] := by decide
  rw [archiveLines, hpieces, hdecode, Option.map_some, map_append, hlast]
  simp

theorem pieces_unbroken {α : Type} (p : α → Bool) (xs : List α) :
    ∀ piece ∈ xs.splitOnP p, ∀ x ∈ piece, p x = false := by
  induction xs with
  | nil => simp
  | cons y ys ih =>
    rw [splitOnP_cons_eq_if_modifyHead]
    cases hy : p y with
    | true =>
      simp only [if_true, mem_cons, forall_eq_or_imp]
      exact ⟨by simp, ih⟩
    | false =>
      cases hsplit : ys.splitOnP p with
      | nil => exact absurd hsplit (splitOnP_ne_nil p ys)
      | cons first rest =>
        rw [hsplit] at ih
        simp only [Bool.false_eq_true, if_false, modifyHead_cons, mem_cons,
          forall_eq_or_imp]
        exact ⟨⟨hy, ih first mem_cons_self⟩, fun piece hpiece =>
          ih piece (mem_cons_of_mem _ hpiece)⟩

theorem newline_not_mem_recordPieces : ∀ line ∈ records.flatMap recordPieces, '\n' ∉ line := by
  intro line hline hmem
  obtain ⟨record, -, hpiece⟩ := mem_flatMap.mp hline
  have hnone := pieces_unbroken isTextBreak _ line (mem_of_mem_filter hpiece) '\n' hmem
  exact absurd hnone (by decide)

private theorem exists_first_break {α : Type} {p : α → Bool} {xs : List α}
    (h : ¬∀ x ∈ xs, p x = false) :
    ∃ front x back, xs = front ++ x :: back ∧ p x = true ∧ ∀ y ∈ front, p y = false := by
  induction xs with
  | nil => simp at h
  | cons y ys ih =>
    cases hy : p y with
    | true => exact ⟨[], y, ys, rfl, hy, by simp⟩
    | false =>
      obtain ⟨front, x, back, hsplit, hx, hfront⟩ := ih (fun hall => h (by simpa [hy] using hall))
      refine ⟨y :: front, x, back, by rw [hsplit]; rfl, hx, ?_⟩
      simpa [hy] using hfront

theorem recordPieces_broken (h : ¬∀ c ∈ record.dumpJson, isTextBreak c = false) :
    ∃ line rest, recordPieces record = line :: rest ∧ strip line ≠ [] ∧
      EventRecord.validateJson (strip line) = none ∧ EventRecord.validateJson line = none := by
  obtain ⟨front, c, back, hsplit, hc, hfront⟩ := exists_first_break h
  obtain ⟨body, hbody⟩ := Json.render_obj_braces record.toEntries
  have hdump : record.dumpJson = '{' :: (body ++ ['}']) := hbody
  have hpre : front <+: record.dumpJson := ⟨c :: back, hsplit.symm⟩
  have hne : front ≠ record.dumpJson := by
    intro heq
    have hlength := congrArg List.length hsplit
    simp [heq] at hlength
  have hopen : ∃ more, front = '{' :: more := by
    cases front with
    | nil =>
      rw [hdump, nil_append, List.cons.injEq] at hsplit
      rw [← hsplit.1] at hc
      exact absurd hc (by decide)
    | cons d more =>
      rw [hdump, cons_append, List.cons.injEq] at hsplit
      exact ⟨more, by rw [hsplit.1]⟩
  have hkeep : strip front ≠ [] := by
    obtain ⟨more, rfl⟩ := hopen
    have hmem : strip ('{' :: more) = [] → False := by
      intro hnil
      unfold strip at hnil
      rw [dropWhile_cons_of_neg (by decide), rdropWhile_eq_nil_iff] at hnil
      exact absurd (hnil '{' mem_cons_self) (by decide)
    exact hmem
  have hline : strip front ∈ nonBlankLines front := by
    rw [nonBlankLines_unbroken (fun d hd =>
      (EventRecord.tidy_dumpJson record).unbroken d (hpre.subset hd))]
    simpa using hkeep
  refine ⟨front, (back.splitOnP isTextBreak).filter (fun line => strip line ≠ []), ?_, hkeep, ?_,
    EventRecord.validateJson_of_parse_none (EventRecord.parse_prefix_dumpJson hpre hne)⟩
  · unfold recordPieces
    rw [hsplit, splitOnP_append_cons_of_forall_mem hfront c hc,
      filter_cons_of_pos (by simpa using hkeep)]
  · exact EventRecord.validateJson_of_parse_none (parse_lines_of_torn hpre hne _ hline)

theorem mapM_append_some {α β : Type} {f : α → Option β} {left right : List α}
    {out : List β} (h : (left ++ right).mapM f = some out) :
    ∃ front back, left.mapM f = some front ∧ right.mapM f = some back ∧ out = front ++ back := by
  rw [mapM_append] at h
  obtain ⟨front, hfront, h⟩ := Option.bind_eq_some_iff.mp h
  obtain ⟨back, hback, h⟩ := Option.bind_eq_some_iff.mp h
  exact ⟨front, back, hfront, hback, (Option.some.inj h).symm⟩

theorem mapM_validateJson_dumpJson (records : List EventRecord) :
    (records.map EventRecord.dumpJson).mapM EventRecord.validateJson = some records := by
  induction records with
  | nil => rfl
  | cons record records ih =>
    rw [map_cons, mapM_cons, EventRecord.validateJson_dumpJson, ih]
    rfl

section

variable {out : List EventRecord} {archive : Bytes}
    (h : prepareArchiveToCold (recordLines records) = some archive)
    (hout : archiveRecords archive = some out)
include h hout

theorem archiveRecords_prepare_unbroken : out = records ∧ Unbroken records := by
  rw [prepareArchiveToCold_recordLines] at h
  rw [← Option.some.inj h, archiveRecords, archiveLines_frameLines newline_not_mem_recordPieces,
    Option.bind_some] at hout
  clear h
  induction records generalizing out with
  | nil => exact ⟨(Option.some.inj hout).symm, by simp [Unbroken]⟩
  | cons record records ih =>
    rw [flatMap_cons, map_append, filter_append] at hout
    obtain ⟨front, back, hfront, hback, rfl⟩ := mapM_append_some hout
    obtain ⟨rfl, hunbroken⟩ := ih hback
    by_cases hbroken : ∀ c ∈ record.dumpJson, isTextBreak c = false
    · have hkeep := (EventRecord.tidy_dumpJson record).nonempty
      rw [recordPieces_unbroken hbroken, map_singleton, strip_dumpJson,
        filter_cons_of_pos (by simpa using hkeep), filter_nil, mapM_cons,
        EventRecord.validateJson_dumpJson] at hfront
      rw [← Option.some.inj hfront]
      exact ⟨rfl, forall_mem_cons.mpr ⟨hbroken, hunbroken⟩⟩
    · obtain ⟨line, rest, hpieces, hkeep, hnone, -⟩ := recordPieces_broken hbroken
      rw [hpieces, map_cons, filter_cons_of_pos (by simpa using hkeep), mapM_cons,
        hnone] at hfront
      exact absurd hfront (by simp)

theorem archiveRecords_prepare : out = records :=
  (archiveRecords_prepare_unbroken h hout).1

end

section

variable (h : Unbroken records)
include h

theorem archiveLines_recordLines :
    archiveLines (recordLines records) = some (records.map EventRecord.dumpJson) := by
  have hclean : ∀ line ∈ records.map EventRecord.dumpJson, '\n' ∉ line := by
    rw [← flatMap_recordPieces h]
    exact newline_not_mem_recordPieces
  rw [recordLines, archiveLines_frameLines hclean, map_map]
  congr 1
  clear h hclean
  induction records with
  | nil => rfl
  | cons record records ih =>
    have hkeep := (EventRecord.tidy_dumpJson record).nonempty
    rw [map_cons, Function.comp_apply, strip_dumpJson,
      filter_cons_of_pos (by simpa using hkeep), ih, map_cons]

theorem archiveRecords_recordLines : archiveRecords (recordLines records) = some records := by
  rw [archiveRecords, archiveLines_recordLines h, Option.bind_some, mapM_validateJson_dumpJson]

theorem coldLookup_recordLines (hroute : store.index.get eventId = some segment)
    (harchive : store.archives.get segment = some (recordLines records)) :
    coldLookup store eventId = some (records.find? fun record => record.eventId.val = eventId) := by
  have hparsed : (records.map EventRecord.dumpJson).filterMap EventRecord.validateJson = records := by
    clear h harchive
    induction records with
    | nil => rfl
    | cons record records ih =>
      rw [map_cons, filterMap_cons, EventRecord.validateJson_dumpJson, ih]
  unfold coldLookup
  rw [hroute, Option.bind_some, harchive]
  simp only [archiveLines_recordLines h, Option.map_some, hparsed]

theorem prepareArchiveToCold_unbroken :
    prepareArchiveToCold (recordLines records) = some (recordLines records) := by
  rw [prepareArchiveToCold_recordLines, flatMap_recordPieces h]
  rfl

end

end Flowness.Snapshot
