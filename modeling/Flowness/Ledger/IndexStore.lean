import Flowness.Ledger.EventIndex
import Flowness.Ledger.Framing
import Flowness.Library.Transition

/-!
The persisted index: the record file `event_id.idx` and 14 posting files, each replaced on its own.
A posting file carries the token of the event ids it was built for, and `load` compares it with the
ids it finds in `event_id.idx`.
-/

namespace Flowness.Ledger

open List Library Schemas Bool

/-- `events/index/`. A posting file is what `json.loads` makes of it; one that is missing or no JSON
is `none`, which `load` refuses alike. -/
structure IndexDir where
  eventIds : Option Bytes
  postings : KeyIndexName → Option Json

namespace IndexDir

def empty : IndexDir := { eventIds := none, postings := fun _ => none }

end IndexDir

inductive IndexWrite where
  | eventIds (content : Bytes)
  | posting (name : KeyIndexName) (content : Json)

def IndexWrite.apply (dir : IndexDir) : IndexWrite → IndexDir
  | .eventIds content => { dir with eventIds := some content }
  | .posting name content =>
    { dir with postings := fun n => if n = name then some content else dir.postings n }

/-- `event_id.idx`: the records one a line, without a newline at the end. -/
def eventIdLines (records : List EventRecord) : Bytes :=
  encodeText (['\n'].intercalate (records.map EventRecord.dumpJson))

def bucketsJson (buckets : Dict String (List String)) : Json :=
  .obj (buckets.map fun entry => (entry.1, .arr (entry.2.map .str)))

/-- `_generation_token`, over whatever `hashlib.sha256` makes of the ids in a line each. -/
def generationToken (sha256 : Bytes → String) (eventIds : List String) : String :=
  sha256 (frameLines (eventIds.map String.toList))

section

variable (sha256 : Bytes → String)

def stampedPosting (records : List EventRecord) (name : KeyIndexName) : Json :=
  .obj [("__gen__", .str (generationToken sha256 (EventIndex.idsOf records))),
    ("buckets", bucketsJson ((EventIndex.build records).serializableKeyIndex name))]

/-- The replaces of one `persist`, in order. -/
def persistWrites (records : List EventRecord) : List IndexWrite :=
  .eventIds (eventIdLines records) ::
    KeyIndexName.all.map fun name => .posting name (stampedPosting sha256 records name)

def persist (dir : IndexDir) (records : List EventRecord) : IndexDir :=
  (persistWrites sha256 records).foldl IndexWrite.apply dir

end

theorem persist_spec (sha256 : Bytes → String) (dir : IndexDir) (records : List EventRecord) :
    (persist sha256 dir records).eventIds = some (eventIdLines records) ∧
      ∀ name, (persist sha256 dir records).postings name =
        some (stampedPosting sha256 records name) :=
  ⟨rfl, fun name => by cases name <;> rfl⟩

theorem persist_congr (sha256 : Bytes → String) (dir other : IndexDir) (records : List EventRecord) :
    persist sha256 dir records = persist sha256 other records := by
  obtain ⟨heventIds, hpostings⟩ := persist_spec sha256 dir records
  obtain ⟨hother, hotherPostings⟩ := persist_spec sha256 other records
  have hext : ∀ left right : IndexDir, left.eventIds = right.eventIds →
      left.postings = right.postings → left = right := by
    rintro ⟨_, _⟩ ⟨_, _⟩ rfl rfl
    rfl
  apply hext
  · rw [heventIds, hother]
  · funext name
    rw [hpostings, hotherPostings]

def EventIdLists : Set (List String) :=
  {eventIds | ∀ eventId ∈ eventIds, isEventId eventId = true}

theorem idsOf_eventIdLists (records : List EventRecord) : EventIndex.idsOf records ∈ EventIdLists := by
  intro eventId hid
  obtain ⟨record, -, rfl⟩ := mem_map.mp hid
  exact record.eventId.property

private theorem eventIdChar_printable (h : isEventIdChar c = true) : 45 ≤ c.toNat := by
  unfold isEventIdChar Char.isAlphanum Char.isAlpha Char.isUpper Char.isLower Char.isDigit at h
  simp only [or_eq_true, and_eq_true, decide_eq_true_eq, beq_iff_eq] at h
  have hle : ∀ d : Char, d.val ≤ c.val → d.toNat ≤ c.toNat := fun d hd => hd
  rcases h with ((((h | h) | h) | rfl) | rfl)
  · exact le_trans (by decide) (hle 'A' h.1)
  · exact le_trans (by decide) (hle 'a' h.1)
  · exact le_trans (by decide) (hle '0' h.1)
  · decide
  · decide

private theorem newline_not_mem_eventId (h : isEventId eventId = true) : '\n' ∉ eventId.toList := by
  intro hmem
  unfold isEventId at h
  split at h
  next name hlist =>
    rw [and_eq_true] at h
    have hname : '\n' ∈ name := by simpa [hlist] using hmem
    have hprintable := eventIdChar_printable (all_eq_true.mp h.2 _ hname)
    exact absurd hprintable (by decide)
  · contradiction

theorem generationToken_injOn {sha256 : Bytes → String} (h : Function.Injective sha256) :
    Set.InjOn (generationToken sha256) EventIdLists := by
  intro left hleft right hright heq
  have hlines : ∀ eventIds ∈ EventIdLists, ∀ line ∈ eventIds.map String.toList, '\n' ∉ line := by
    intro eventIds hids line hline
    obtain ⟨eventId, hid, rfl⟩ := mem_map.mp hline
    exact newline_not_mem_eventId (hids eventId hid)
  have htexts := frameLines_injOn (hlines left hleft) (hlines right hright) (h heq)
  exact map_injective_iff.mpr (fun _ _ => String.toList_injective) htexts

def idKey : Text := "\"event_id\":\"evt-".toList

def sequenceNumberKey : Text := "\",\"sequence_number\":".toList

/-- `_EVENT_ID_SEQ_RE` at the start of a text. -/
def matchAt (text : Text) : Option (String × Nat) :=
  if !idKey.isPrefixOf text then none
  else
    let rest := text.drop idKey.length
    let name := rest.takeWhile isEventIdChar
    let rest := rest.dropWhile isEventIdChar
    if name = [] ∨ !sequenceNumberKey.isPrefixOf rest then none
    else
      let digits := (rest.drop sequenceNumberKey.length).takeWhile Char.isDigit
      if digits = [] then none
      else some (String.ofList ("evt-".toList ++ name), Nat.ofDigitChars 10 digits 0)

/-- `_EVENT_ID_SEQ_RE.search`: the first match in a line. -/
def searchIdSeq : Text → Option (String × Nat)
  | [] => none
  | c :: rest => (matchAt (c :: rest)).orElse fun _ => searchIdSeq rest

/-- A line of `event_id.idx` as the scan sees it. -/
structure ScannedLine where
  eventId : String
  sequenceNumber : Nat
  offset : Nat
  line : Text

/-- The parse-free scan of `event_id.idx`; the file is UTF-8, as every writer encodes it. -/
def scanPieces : Nat → List Bytes → Option (List ScannedLine)
  | _, [] => some []
  | pos, piece :: rest =>
    if piece = [] then scanPieces (pos + 1) rest
    else do
      let line ← decodeText piece
      let (eventId, sequenceNumber) ← searchIdSeq line
      let scanned ← scanPieces (pos + piece.length + 1) rest
      return { eventId, sequenceNumber, offset := pos, line } :: scanned

def asStrings : Json → Option (List String)
  | .arr items => items.mapM Json.text?
  | _ => none

/-- The buckets of a posting file; `load` leaves the shape of the lists to their readers. -/
def asBuckets : Json → Option (Dict String (List String))
  | .obj entries => entries.mapM fun entry => (asStrings entry.2).map (entry.1, ·)
  | _ => none

def readPosting (generation : String) (file : Json) : Option (Dict String (List String)) :=
  if file.get "__gen__" = some (.str generation) then (file.get "buckets").bind asBuckets else none

/-- `LazyEventIndex`; the records it has made are in `cache`, the file it has opened is `mapped`. -/
structure LazyEventIndex where
  offsets : Dict String Nat
  postings : Dict KeyIndexName (Dict String (List String))
  order : List String
  seqs : List Nat
  seqSet : List Int
  maxSeq : Int
  cache : Dict String EventRecord := []
  mapped : Option Bytes := none

def LazyEventIndex.posting (index : LazyEventIndex) (name : KeyIndexName) :
    Dict String (List String) :=
  (Dict.get index.postings name).getD []

def tailListed (postings : Dict KeyIndexName (Dict String (List String))) (tail : EventRecord) : Bool :=
  KeyIndexName.all.all fun name =>
    ((EventIndex.build [tail]).serializableKeyIndex name).keys.all fun key =>
      decide (tail.eventId.val ∈ (Dict.get ((Dict.get postings name).getD []) key).getD [])

/-- `EventLogIndexStore.load`; `none` is no index, for whatever reason. -/
def load (sha256 : Bytes → String) (dir : IndexDir) : Option LazyEventIndex := do
  let content ← dir.eventIds
  let scanned ← scanPieces 0 (splitNewlines content)
  let order := scanned.map ScannedLine.eventId
  let seqs := scanned.map ScannedLine.sequenceNumber
  let offsets := EventIndex.comprehend (scanned.map fun line => (line.eventId, line.offset))
  let generation := generationToken sha256 order
  let postings ← KeyIndexName.all.mapM fun name => do
    let file ← dir.postings name
    let buckets ← readPosting generation file
    return (name, buckets)
  match scanned.getLast? with
  | none => return { offsets, postings, order, seqs, seqSet := [], maxSeq := -1 }
  | some tailLine =>
    let tail ← EventRecord.validateJson tailLine.line
    guard (tailListed postings tail)
    let seqSet ← ((Dict.get postings .sequence).getD []).keys.mapM fun key => Json.parseInt key.toList
    return { offsets, postings, order, seqs, seqSet, maxSeq := seqSet.foldl max (-1) }

private theorem escapeChar_eventIdChar (h : isEventIdChar c = true) : Json.escapeChar c = [c] := by
  have hprintable := eventIdChar_printable h
  have hne : ∀ d : Char, isEventIdChar d = false → c ≠ d := by
    rintro d hd rfl
    rw [h] at hd
    contradiction
  unfold Json.escapeChar
  rw [if_neg (hne _ (by decide)), if_neg (hne _ (by decide)), if_neg (hne _ (by decide)),
    if_neg (hne _ (by decide)), if_neg (hne _ (by decide)), if_neg (by omega), if_neg (by omega),
    if_neg (by omega)]

private theorem dumpJson_start (record : EventRecord) :
    ∃ name rest, record.dumpJson = '{' :: (idKey ++ (name ++ (sequenceNumberKey ++
        (Json.renderInt record.sequenceNumber ++ ',' :: rest)))) ∧
      name ≠ [] ∧ name.all isEventIdChar = true ∧
      record.eventId.val = String.ofList ("evt-".toList ++ name) := by
  have hid := record.eventId.property
  unfold isEventId at hid
  split at hid
  next name hlist =>
    rw [and_eq_true, decide_eq_true_eq] at hid
    have hescape : name.flatMap Json.escapeChar = name := by
      have hall := all_eq_true.mp hid.2
      clear hid hlist
      induction name with
      | nil => rfl
      | cons c name ih =>
        rw [flatMap_cons, escapeChar_eventIdChar (hall c mem_cons_self),
          ih (fun d hd => hall d (mem_cons_of_mem _ hd))]
        rfl
    have hrender : Json.renderString record.eventId.val =
        '"' :: 'e' :: 'v' :: 't' :: '-' :: (name ++ ['"']) := by
      unfold Json.renderString
      rw [hlist]
      simp only [flatMap_cons, hescape]
      rfl
    obtain ⟨rest, hrest⟩ : ∃ rest, Json.renderEntries (record.toEntries.drop 2) = ',' :: rest :=
      ⟨_, rfl⟩
    have hdump : record.dumpJson = '{' :: (Json.renderString "event_id" ++ ':' ::
        (Json.renderString record.eventId.val ++ ',' :: (Json.renderString "sequence_number" ++ ':' ::
          (Json.renderInt record.sequenceNumber ++ Json.renderEntries (record.toEntries.drop 2))))) :=
      rfl
    have hkey : Json.renderString "event_id" ++ [':', '"', 'e', 'v', 't', '-'] = idKey := by decide
    have hseparator : ['"', ','] ++ Json.renderString "sequence_number" ++ [':'] =
        sequenceNumberKey := by decide
    refine ⟨name, rest, hdump.trans ?_, hid.1, hid.2, ?_⟩
    · simp [← hkey, ← hseparator, hrender, hrest]
    · rw [← String.ofList_toList (s := record.eventId.val), hlist]
      rfl
  · contradiction

private theorem searchIdSeq_of_match (h : matchAt text = some found) :
    searchIdSeq text = some found := by
  cases text with
  | nil =>
    have hnone : matchAt [] = none := by decide
    contradiction
  | cons c rest =>
    unfold searchIdSeq
    rw [h]
    rfl

private theorem takeWhile_stop (hfront : ∀ d ∈ front, p d = true) (hc : p c = false) (rest : Text) :
    (front ++ c :: rest).takeWhile p = front ∧ (front ++ c :: rest).dropWhile p = c :: rest := by
  rw [takeWhile_append_of_pos hfront, dropWhile_append_of_pos hfront]
  simp [hc]

theorem searchIdSeq_dumpJson (record : EventRecord) :
    searchIdSeq record.dumpJson = some (record.eventId.val, record.sequenceNumber) := by
  obtain ⟨name, rest, hdump, hne, hname, hid⟩ := dumpJson_start record
  have hall : ∀ c ∈ name, isEventIdChar c = true := all_eq_true.mp hname
  have hnumber : ∀ c ∈ Nat.toDigits 10 record.sequenceNumber, c.isDigit = true :=
    fun c hc => Nat.isDigit_of_mem_toDigits (by decide) (by decide) hc
  have hrender : Json.renderInt record.sequenceNumber = Nat.toDigits 10 record.sequenceNumber := by
    unfold Json.renderInt
    rw [if_neg (by omega), Int.natAbs_natCast]
  obtain ⟨more, hmore⟩ : ∃ more, sequenceNumberKey = '"' :: more := ⟨_, rfl⟩
  have hmatch : matchAt (idKey ++ (name ++ (sequenceNumberKey ++
      (Json.renderInt record.sequenceNumber ++ ',' :: rest)))) =
      some (record.eventId.val, record.sequenceNumber) := by
    have hname' := takeWhile_stop hall (c := '"') (by decide)
      (more ++ (Json.renderInt record.sequenceNumber ++ ',' :: rest))
    rw [← cons_append, ← hmore, hrender] at hname'
    have hdigits := (takeWhile_stop hnumber (c := ',') (by decide) rest).1
    unfold matchAt
    simp [hname'.1, hname'.2, hne, hrender, hdigits, hid]
  have hopen : matchAt record.dumpJson = none := by
    rfl
  rw [hdump] at hopen ⊢
  unfold searchIdSeq
  exact searchIdSeq_of_match hmatch

theorem splitNewlines_eventIdLines (h : records ≠ []) :
    splitNewlines (eventIdLines records) = records.map recordPiece := by
  have hunbroken : ∀ line ∈ records.map EventRecord.dumpJson, '\n' ∉ line := by
    intro line hline hmem
    obtain ⟨record, -, rfl⟩ := mem_map.mp hline
    have hbreak := (EventRecord.tidy_dumpJson record).unbroken _ hmem
    exact absurd hbreak (by decide)
  rw [eventIdLines, splitNewlines_encodeText, splitOn_intercalate _ hunbroken (by simpa using h),
    map_map]
  rfl

theorem recordPiece_ne_nil (record : EventRecord) : recordPiece record ≠ [] := by
  unfold recordPiece
  rw [ne_eq, encodeText_eq_nil]
  exact (EventRecord.tidy_dumpJson record).nonempty

theorem scanPieces_eventIdLines (records : List EventRecord) :
    ∃ scanned, scanPieces 0 (splitNewlines (eventIdLines records)) = some scanned ∧
      scanned.map ScannedLine.eventId = EventIndex.idsOf records ∧
      scanned.map ScannedLine.sequenceNumber = records.map EventRecord.sequenceNumber ∧
      scanned.map ScannedLine.line = records.map EventRecord.dumpJson := by
  have hpieces : ∀ (pos : Nat) (records : List EventRecord),
      ∃ scanned, scanPieces pos (records.map recordPiece) = some scanned ∧
        scanned.map ScannedLine.eventId = EventIndex.idsOf records ∧
        scanned.map ScannedLine.sequenceNumber = records.map EventRecord.sequenceNumber ∧
        scanned.map ScannedLine.line = records.map EventRecord.dumpJson := by
    intro pos records
    induction records generalizing pos with
    | nil => exact ⟨[], rfl, rfl, rfl, rfl⟩
    | cons record records ih =>
      obtain ⟨scanned, hscan, hids, hseqs, hlines⟩ := ih (pos + (recordPiece record).length + 1)
      refine ⟨{ eventId := record.eventId.val, sequenceNumber := record.sequenceNumber,
                offset := pos, line := record.dumpJson } :: scanned, ?_, ?_, ?_, ?_⟩
      · have hdecode : decodeText (recordPiece record) = some record.dumpJson :=
          decodeText_encodeText _
        rw [map_cons, scanPieces, if_neg (recordPiece_ne_nil record), hdecode]
        simp [searchIdSeq_dumpJson, hscan]
      · rw [map_cons, hids]
        rfl
      · rw [map_cons, hseqs, map_cons]
      · rw [map_cons, hlines, map_cons]
  cases records with
  | nil => exact ⟨[], rfl, rfl, rfl, rfl⟩
  | cons record records =>
    rw [splitNewlines_eventIdLines (by simp)]
    exact hpieces 0 (record :: records)

/-- The records on the lines of `event_id.idx`. -/
def eventIdRecords (content : Bytes) : Option (List EventRecord) :=
  ((splitNewlines content).filter (· ≠ [])).mapM recordOfPiece

private theorem mapM_map_some {α β : Type} {f : β → α} {g : α → Option β} (h : ∀ b, g (f b) = some b)
    (bs : List β) : (bs.map f).mapM g = some bs := by
  induction bs with
  | nil => rfl
  | cons b bs ih =>
    rw [map_cons, mapM_cons, h, ih]
    rfl

theorem eventIdRecords_eventIdLines (records : List EventRecord) :
    eventIdRecords (eventIdLines records) = some records := by
  cases records with
  | nil => rfl
  | cons record records =>
    have hkeep : ((record :: records).map recordPiece).filter (· ≠ []) =
        (record :: records).map recordPiece := by
      apply filter_eq_self.mpr
      intro piece hpiece
      obtain ⟨r, -, rfl⟩ := mem_map.mp hpiece
      simpa using recordPiece_ne_nil r
    rw [eventIdRecords, splitNewlines_eventIdLines (by simp), hkeep]
    exact mapM_map_some recordOfPiece_recordPiece _

theorem eventIdLines_injective : Function.Injective eventIdLines := by
  intro left right heq
  have hrecords := eventIdRecords_eventIdLines left
  rw [heq, eventIdRecords_eventIdLines] at hrecords
  exact (Option.some.inj hrecords).symm

theorem asBuckets_bucketsJson (buckets : Dict String (List String)) :
    asBuckets (bucketsJson buckets) = some buckets := by
  apply mapM_map_some
  intro entry
  have hstrings : asStrings (.arr (entry.2.map .str)) = some entry.2 :=
    mapM_map_some (g := Json.text?) (fun _ => rfl) _
  rw [hstrings]
  rfl

theorem readPosting_stampedPosting (sha256 : Bytes → String) (records : List EventRecord)
    (name : KeyIndexName) :
    readPosting (generationToken sha256 (EventIndex.idsOf records))
        (stampedPosting sha256 records name) =
      some ((EventIndex.build records).serializableKeyIndex name) := by
  unfold readPosting
  have hgen : (stampedPosting sha256 records name).get "__gen__" =
      some (.str (generationToken sha256 (EventIndex.idsOf records))) := rfl
  have hbuckets : (stampedPosting sha256 records name).get "buckets" =
      some (bucketsJson ((EventIndex.build records).serializableKeyIndex name)) := rfl
  rw [if_pos hgen, hbuckets, Option.bind_some, asBuckets_bucketsJson]

theorem readPosting_stamped (sha256 : Bytes → String)
    (h : readPosting generation (stampedPosting sha256 records name) = some buckets) :
    generationToken sha256 (EventIndex.idsOf records) = generation ∧
      buckets = (EventIndex.build records).serializableKeyIndex name := by
  have hstamp : generationToken sha256 (EventIndex.idsOf records) = generation := by
    unfold readPosting at h
    split at h
    next hstamp =>
      exact Json.str.inj (Option.some.inj hstamp)
    · contradiction
  rw [← hstamp, readPosting_stampedPosting] at h
  exact ⟨hstamp, (Option.some.inj h).symm⟩

/-- The directory and what each `persist` that has begun still has to replace. -/
structure PersistState where
  dir : IndexDir
  writers : List (List IndexWrite)

namespace PersistState

def fresh : PersistState := { dir := IndexDir.empty, writers := [] }

/-- A `persist` begins, or one of those that have begun makes its next replace; one that died makes
none any more. -/
inductive Action where
  | start (records : List EventRecord)
  | replace (i : Nat)

variable (sha256 : Bytes → String) (content : String → EventRecord)

def step (state : PersistState) : Action → Option PersistState
  | .start records =>
    some { state with writers := state.writers ++ [persistWrites sha256 records] }
  | .replace i =>
    match state.writers[i]? with
    | some (write :: rest) =>
      some { dir := write.apply state.dir, writers := state.writers.set i rest }
    | _ => none

def OneContent (_ : PersistState) : Action → Prop
  | .start records => ∀ record ∈ records, content record.eventId.val = record
  | .replace _ => True

/-- A file as one `persist` writes it. -/
def Written : IndexWrite → Prop
  | .eventIds bytes => ∃ records : List EventRecord,
      (∀ record ∈ records, content record.eventId.val = record) ∧ bytes = eventIdLines records
  | .posting name file => ∃ records : List EventRecord,
      (∀ record ∈ records, content record.eventId.val = record) ∧
        file = stampedPosting sha256 records name

structure AllWritten (state : PersistState) : Prop where
  eventIds : ∀ bytes, state.dir.eventIds = some bytes →
    Written sha256 content (.eventIds bytes)
  postings : ∀ name file, state.dir.postings name = some file →
    Written sha256 content (.posting name file)
  writers : ∀ writer ∈ state.writers, ∀ write ∈ writer, Written sha256 content write

variable {sha256 content} {state next : PersistState}

theorem written_persistWrites (h : ∀ record ∈ records, content record.eventId.val = record) :
    ∀ write ∈ persistWrites sha256 records, Written sha256 content write := by
  intro write hwrite
  rcases mem_cons.mp hwrite with rfl | hwrite
  · exact ⟨records, h, rfl⟩
  · obtain ⟨name, -, rfl⟩ := mem_map.mp hwrite
    exact ⟨records, h, rfl⟩

theorem AllWritten.step (h : AllWritten sha256 content state)
    (hguard : OneContent content state action)
    (hstep : step sha256 state action = some next) :
    AllWritten sha256 content next := by
  cases action with
  | start records =>
    cases hstep
    refine ⟨h.eventIds, h.postings, ?_⟩
    intro writer hwriter
    rcases mem_append.mp hwriter with hwriter | hwriter
    · exact h.writers writer hwriter
    · rw [mem_singleton.mp hwriter]
      exact written_persistWrites hguard
  | replace i =>
    simp only [PersistState.step] at hstep
    split at hstep
    next write rest hget =>
      cases hstep
      have hmine := h.writers _ (mem_of_getElem? hget)
      have hwrite := hmine write mem_cons_self
      refine ⟨?_, ?_, ?_⟩
      · intro bytes hbytes
        cases write with
        | eventIds content =>
          cases hbytes
          exact hwrite
        | posting name content => exact h.eventIds bytes hbytes
      · intro name file hfile
        cases write with
        | eventIds content => exact h.postings name file hfile
        | posting name' content =>
          simp only [IndexWrite.apply] at hfile
          split at hfile
          next hname =>
            subst hname
            cases hfile
            exact hwrite
          · exact h.postings name file hfile
      · intro writer hwriter
        rcases mem_or_eq_of_mem_set hwriter with hwriter | rfl
        · exact h.writers writer hwriter
        · exact fun w hw => hmine w (mem_cons_of_mem _ hw)
    · contradiction

private theorem load_some {dir : IndexDir} {index : LazyEventIndex}
    (h : load sha256 dir = some index) :
    ∃ content scanned, dir.eventIds = some content ∧
      scanPieces 0 (splitNewlines content) = some scanned ∧
      index.order = scanned.map ScannedLine.eventId ∧
      index.seqs = scanned.map ScannedLine.sequenceNumber ∧
      KeyIndexName.all.mapM (fun name => do
        let file ← dir.postings name
        let buckets ← readPosting (generationToken sha256 (scanned.map ScannedLine.eventId)) file
        return (name, buckets)) = some index.postings ∧
      ((scanned = [] ∧ index.seqSet = [] ∧ index.maxSeq = -1) ∨
        (scanned ≠ [] ∧
          (index.posting .sequence).keys.mapM (fun key => Json.parseInt key.toList) =
            some index.seqSet ∧ index.maxSeq = index.seqSet.foldl max (-1))) := by
  unfold load at h
  simp only [bind, Option.bind_eq_some_iff] at h
  obtain ⟨content, hcontent, scanned, hscanned, postings, hpostings, h⟩ := h
  refine ⟨content, scanned, hcontent, hscanned, ?_⟩
  cases hlast : scanned.getLast? with
  | none =>
    rw [hlast] at h
    cases h
    exact ⟨rfl, rfl, hpostings, .inl ⟨List.getLast?_eq_none_iff.mp hlast, rfl, rfl⟩⟩
  | some tailLine =>
    rw [hlast] at h
    simp only [Option.bind_eq_some_iff] at h
    obtain ⟨tail, -, -, -, seqSet, hseqs, h⟩ := h
    cases h
    refine ⟨rfl, rfl, hpostings, .inr ⟨?_, hseqs, rfl⟩⟩
    rintro rfl
    simp at hlast

private theorem get_of_mapM {ν : Type} {f : KeyIndexName → Option ν} {names : List KeyIndexName}
    {entries : Dict KeyIndexName ν} (h : names.mapM (fun name => (f name).map (name, ·)) = some entries) :
    ∀ name ∈ names, ∃ value, f name = some value ∧ Dict.get entries name = some value := by
  induction names generalizing entries with
  | nil => simp
  | cons first names ih =>
    rw [mapM_cons] at h
    simp only [bind, Option.bind_eq_some_iff, Option.map_eq_some_iff] at h
    obtain ⟨_, ⟨value, hvalue, rfl⟩, rest, hrest, h⟩ := h
    cases h
    intro name hname
    rw [Dict.get_cons]
    split
    next heq =>
      subst heq
      exact ⟨value, hvalue, rfl⟩
    next hne =>
      rcases mem_cons.mp hname with rfl | hname
      · contradiction
      · exact ih hrest name hname

private theorem keys_sequence (index : EventIndex) :
    (index.serializableKeyIndex .sequence).keys.mapM (fun key => Json.parseInt key.toList) =
      some index.sequenceSet := by
  unfold EventIndex.sequenceSet EventIndex.serializableKeyIndex Dict.keys
  induction index.bySequence with
  | nil => rfl
  | cons entry entries ih =>
    have hparse : Json.parseInt (EventIndex.sequenceKey entry.1).toList = some (Int.ofNat entry.1) := by
      unfold EventIndex.sequenceKey
      rw [String.toList_ofList]
      exact Json.parseInt_renderInt _
    simp only [map_cons, mapM_cons, hparse, ih]
    rfl

private theorem eq_of_ids (hleft : ∀ record ∈ left, content record.eventId.val = record)
    (hright : ∀ record ∈ right, content record.eventId.val = record)
    (h : EventIndex.idsOf left = EventIndex.idsOf right) : left = right := by
  have hmap : ∀ records : List EventRecord, (∀ record ∈ records, content record.eventId.val = record) →
      (EventIndex.idsOf records).map content = records := by
    intro records hrecords
    induction records with
    | nil => rfl
    | cons record records ih =>
      have hrest := ih fun r hr => hrecords r (mem_cons_of_mem _ hr)
      simp only [EventIndex.idsOf, map_cons, List.cons.injEq] at hrest ⊢
      exact ⟨hrecords record mem_cons_self, hrest⟩
  rw [← hmap left hleft, h, hmap right hright]

/-- What `load` took is the index of the records in `event_id.idx`. -/
structure Faithful (dir : IndexDir) (index : LazyEventIndex) (records : List EventRecord) : Prop where
  scanned : dir.eventIds.bind eventIdRecords = some records
  order : index.order = EventIndex.idsOf records
  seqs : index.seqs = records.map EventRecord.sequenceNumber
  postings : ∀ name, index.posting name = (EventIndex.build records).serializableKeyIndex name
  sets : index.seqSet = (EventIndex.build records).sequenceSet ∧
    index.maxSeq = (EventIndex.build records).maxSequence

theorem AllWritten.load (hinjective : Set.InjOn (generationToken sha256) EventIdLists)
    (h : AllWritten sha256 content state) {index : LazyEventIndex}
    (hload : load sha256 state.dir = some index) :
    ∃ records, Faithful state.dir index records := by
  obtain ⟨bytes, scanned, hbytes, hscan, horder, hseqs, hpostings, hsets⟩ := load_some hload
  obtain ⟨records, hcontent, rfl⟩ := h.eventIds bytes hbytes
  obtain ⟨scanned', hscan', hids, hnumbers, -⟩ := scanPieces_eventIdLines records
  rw [hscan] at hscan'
  cases hscan'
  have hposting : ∀ name,
      index.posting name = (EventIndex.build records).serializableKeyIndex name := by
    intro name
    have hread : KeyIndexName.all.mapM (fun name => ((state.dir.postings name).bind
        (readPosting (generationToken sha256 (scanned.map ScannedLine.eventId)))).map (name, ·)) =
        some index.postings := by
      rw [← hpostings]
      congr 1
      funext name
      cases state.dir.postings name with
      | none => rfl
      | some file =>
        simp only [Option.bind_some, bind]
        cases readPosting (generationToken sha256 (scanned.map ScannedLine.eventId)) file <;> rfl
    obtain ⟨buckets, hfile, hbuckets⟩ := get_of_mapM hread name (KeyIndexName.mem_all name)
    obtain ⟨file, hfile, hbuckets'⟩ := Option.bind_eq_some_iff.mp hfile
    obtain ⟨stamped, hstamped, rfl⟩ := h.postings name file hfile
    obtain ⟨hgeneration, rfl⟩ := readPosting_stamped sha256 hbuckets'
    -- The stamp is the token of the scanned ids, so the file was built for the scanned records.
    have hsame : stamped = records := eq_of_ids hstamped hcontent (hinjective
      (idsOf_eventIdLists _) (idsOf_eventIdLists _) (hgeneration.trans (by rw [hids])))
    rw [LazyEventIndex.posting, hbuckets, hsame]
    rfl
  refine ⟨records, ?_, horder.trans hids, hseqs.trans hnumbers, hposting, ?_⟩
  · rw [hbytes]
    exact eventIdRecords_eventIdLines records
  · rcases hsets with ⟨rfl, hset, hmax⟩ | ⟨-, hset, hmax⟩
    · have hnone : records = [] := map_eq_nil_iff.mp hids.symm
      subst hnone
      exact ⟨hset, hmax⟩
    · rw [hposting, keys_sequence] at hset
      obtain hset := Option.some.inj hset
      rw [← hset] at hmax
      exact ⟨hset.symm, hmax⟩

/-- Whatever the interleaving, an index that `load` takes is the one of the records in
`event_id.idx`. -/
theorem torn_sets_not_adopted (hinjective : Set.InjOn (generationToken sha256) EventIdLists)
    {actions : List Action} (hrun : Run (PersistState.step sha256) (OneContent content) fresh actions state)
    {index : LazyEventIndex} (hload : Ledger.load sha256 state.dir = some index) :
    ∃ records, Faithful state.dir index records := by
  have hall : AllWritten sha256 content state := by
    refine Run.invariant (I := AllWritten sha256 content) ?_ ?_ hrun
    · refine ⟨?_, ?_, ?_⟩
      · intro bytes hbytes
        contradiction
      · intro name file hfile
        contradiction
      · intro writer hwriter
        contradiction
    · exact fun _ _ _ hinv hguard hstep => hinv.step hguard hstep
  exact hall.load hinjective hload

private theorem run_replaces (h : start.writers[i]? = some writes) :
    Run (PersistState.step sha256) (OneContent content) start
      (List.replicate writes.length (.replace i))
      { dir := writes.foldl IndexWrite.apply start.dir, writers := start.writers.set i [] } := by
  induction writes generalizing start with
  | nil =>
    have hsame : start.writers.set i [] = start.writers := by
      obtain ⟨hi, hget⟩ := List.getElem?_eq_some_iff.mp h
      rw [← hget, set_getElem_self]
    rw [hsame]
    exact Run.nil
  | cons write writes ih =>
    have hstep : PersistState.step sha256 start (.replace i) =
        some { dir := write.apply start.dir, writers := start.writers.set i writes } := by
      simp only [PersistState.step, h]
    have hi : i < start.writers.length := (List.getElem?_eq_some_iff.mp h).1
    have hget : (start.writers.set i writes)[i]? = some writes := by simp [hi]
    have hrest := @ih { dir := write.apply start.dir, writers := start.writers.set i writes } hget
    rw [set_set] at hrest
    exact Run.cons trivial hstep hrest

theorem run_persist (content : String → EventRecord) {records : List EventRecord}
    (h : ∀ record ∈ records, content record.eventId.val = record) :
    Run (PersistState.step sha256) (OneContent content) fresh
      (.start records :: List.replicate (persistWrites sha256 records).length (.replace 0))
      { dir := persist sha256 IndexDir.empty records, writers := [[]] } :=
  Run.cons h rfl (run_replaces rfl)

theorem load_persist (dir : IndexDir) {records : List EventRecord} {tail : EventRecord}
    (hlast : records.getLast? = some tail)
    (htail : tailListed (KeyIndexName.all.map fun name =>
      (name, (EventIndex.build records).serializableKeyIndex name)) tail = true) :
    (Ledger.load sha256 (persist sha256 dir records)).isSome = true := by
  obtain ⟨heventIds, hpostings⟩ := persist_spec sha256 dir records
  obtain ⟨scanned, hscan, hids, -, hlines⟩ := scanPieces_eventIdLines records
  have hread : KeyIndexName.all.mapM (fun name => do
      let file ← (persist sha256 dir records).postings name
      let buckets ← readPosting (generationToken sha256 (scanned.map ScannedLine.eventId)) file
      return (name, buckets)) = some (KeyIndexName.all.map fun name =>
        (name, (EventIndex.build records).serializableKeyIndex name)) := by
    have hone : ∀ name, (do
        let file ← (persist sha256 dir records).postings name
        let buckets ← readPosting (generationToken sha256 (scanned.map ScannedLine.eventId)) file
        return (name, buckets)) =
        some (name, (EventIndex.build records).serializableKeyIndex name) := by
      intro name
      rw [hpostings, hids]
      simp only [bind, Option.bind_some, readPosting_stampedPosting]
      rfl
    simp only [hone]
    rfl
  obtain ⟨tailLine, htailLine, hline⟩ : ∃ tailLine, scanned.getLast? = some tailLine ∧
      tailLine.line = tail.dumpJson := by
    have hlast' : (scanned.map ScannedLine.line).getLast? = some tail.dumpJson := by
      rw [hlines, List.getLast?_map, hlast]
      rfl
    rw [List.getLast?_map] at hlast'
    exact Option.map_eq_some_iff.mp hlast'
  have hset : ((Dict.get (KeyIndexName.all.map fun name =>
      (name, (EventIndex.build records).serializableKeyIndex name)) .sequence).getD []).keys.mapM
        (fun key => Json.parseInt key.toList) = some (EventIndex.build records).sequenceSet :=
    keys_sequence (EventIndex.build records)
  unfold Ledger.load
  simp only [bind] at hread ⊢
  simp only [heventIds, hscan, hread, htailLine, hline, EventRecord.validateJson_dumpJson, htail,
    hset, Option.bind_some, guard, if_true]
  rfl

def sampleSha256 (bytes : Bytes) : String :=
  if bytes = encodeText "evt-1\n".toList then
    "9f03a5344864d39f87421e6979e814adedd7e34a27a4a46f878d234a9a5da454"
  else if bytes = [] then "e3b0c44298fc1c149afbf4c8996fb92427ae41e4649b934ca495991b7852b855"
  else String.ofList ('#' :: bytes.map fun byte => Char.ofNat byte.toNat)

private def bytesOf (digest : String) : Bytes :=
  match digest.toList with
  | '9' :: _ => encodeText "evt-1\n".toList
  | '#' :: codes => codes.map fun code => UInt8.ofNat code.toNat
  | _ => []

private theorem bytesOf_sampleSha256 : Function.LeftInverse bytesOf sampleSha256 := by
  have hbyte : ∀ byte : UInt8, UInt8.ofNat (Char.ofNat byte.toNat).toNat = byte := by
    intro byte
    have hvalid : byte.toNat.isValidChar := .inl (by have := byte.toNat_lt; omega)
    rw [Char.ofNat, dif_pos hvalid]
    exact UInt8.ofNat_toNat
  intro bytes
  unfold sampleSha256
  split_ifs with hevent hnone
  · exact hevent.symm
  · exact hnone.symm
  · simp [bytesOf, Function.comp_def, hbyte]

/-- A writer that persists an empty log makes one replace before another one makes all of its. -/
theorem sample_sets_not_adopted : ∃ dir writers index records,
    Run (PersistState.step sampleSha256) (OneContent fun _ => sampleRecord) fresh
        ([.start [], .start [sampleRecord], .replace 0] ++ List.replicate 15 (.replace 1))
        { dir, writers } ∧
      Ledger.load sampleSha256 dir = some index ∧ Faithful dir index records := by
  have hlast : [sampleRecord].getLast? = some sampleRecord := rfl
  let emptied := IndexWrite.apply IndexDir.empty (.eventIds (eventIdLines []))
  have hstart : Run (PersistState.step sampleSha256) (OneContent fun _ => sampleRecord) fresh
      [.start [], .start [sampleRecord], .replace 0]
      { dir := emptied, writers := [(persistWrites sampleSha256 []).tail,
          persistWrites sampleSha256 [sampleRecord]] } :=
    Run.cons (by simp [OneContent]) rfl (Run.cons (by simp [OneContent]) rfl
      (Run.cons trivial rfl Run.nil))
  have hrun := hstart.append (run_replaces (i := 1) rfl)
  obtain ⟨index, hload⟩ := Option.isSome_iff_exists.mp (load_persist emptied hlast (by decide +kernel))
  obtain ⟨records, hfaithful⟩ := torn_sets_not_adopted
    (generationToken_injOn bytesOf_sampleSha256.injective) hrun hload
  exact ⟨_, _, index, records, hrun, hload, hfaithful⟩

end PersistState

end Flowness.Ledger
