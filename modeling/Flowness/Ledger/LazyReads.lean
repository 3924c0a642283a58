import Flowness.Ledger.IndexStore

/-!
Reads through an index that makes its records on demand: the offsets are taken from `event_id.idx`
when the index is loaded, the file they are applied to is opened when a record is first needed, and
other processes replace the file in between.
-/

namespace Flowness.Ledger

open List Library Schemas Dict

def lineAt (content : Bytes) (offset : Nat) : Bytes :=
  (content.drop offset).takeWhile (· ≠ newline)

/-- What a lookup of one event id comes to; `raised` is the exception of a file that cannot be
mapped or of a line that is no record. -/
inductive Lookup where
  | found (record : EventRecord)
  | missing
  | raised

namespace LazyEventIndex

/-- `_mmap`: the file is opened at the first need, and an empty one cannot be mapped. -/
def openFile (dir : IndexDir) (index : LazyEventIndex) : Option Bytes :=
  index.mapped.orElse fun _ => dir.eventIds.filter (· ≠ [])

def materialize (dir : IndexDir) (index : LazyEventIndex) (eventId : String) :
    Lookup × LazyEventIndex :=
  match Dict.get index.cache eventId, Dict.get index.offsets eventId with
  | some record, _ => (.found record, index)
  | none, none => (.missing, index)
  | none, some offset =>
    match index.openFile dir with
    | none => (.raised, index)
    | some content =>
      match recordOfPiece (lineAt content offset) with
      | none => (.raised, { index with mapped := some content })
      | some record =>
        (.found record,
          { index with mapped := some content, cache := Dict.set index.cache eventId record })

end LazyEventIndex

/-- The directory with its writers, the files a `load` under way has read, the index it gave, the
`event_id.idx` that index was made from, and the answers given so far. -/
structure ReadState where
  store : PersistState
  loading : Option IndexDir := none
  index : Option LazyEventIndex := none
  base : Bytes := []
  answers : List (String × Lookup) := []

namespace ReadState

def fresh : ReadState := { store := PersistState.fresh }

/-- Other processes persist or prune, file by file. The reader loads, one file after another, and
looks events up; a bucket lookup is one of these for each event id of the bucket. -/
inductive Action where
  | write (action : PersistState.Action)
  | scan
  | readPosting (name : KeyIndexName)
  | adopt
  | lookup (eventId : String)

variable (sha256 : Bytes → String)

def step (state : ReadState) : Action → Option ReadState
  | .write action =>
    (PersistState.step sha256 state.store action).map fun store => { state with store := store }
  | .scan =>
    state.store.dir.eventIds.map fun content =>
      { state with loading := some { IndexDir.empty with eventIds := some content } }
  | .readPosting name =>
    state.loading.map fun files =>
      { state with
        loading := some
          { files with postings := fun other =>
              if other = name then state.store.dir.postings name else files.postings other } }
  | .adopt =>
    state.loading.map fun files =>
      { state with
        loading := none, index := load sha256 files, base := files.eventIds.getD [] }
  | .lookup eventId =>
    state.index.map fun index =>
      let (answer, index) := index.materialize state.store.dir eventId
      { state with index := some index, answers := state.answers ++ [(eventId, answer)] }

/-- The lines of the old file are there in the new one, each at its offset. -/
def KeepsLines (old new : Bytes) : Prop := old = [] ∨ splitNewlines old <+: splitNewlines new

/-- Between the scan and the first record only a file that keeps the scanned one comes in the place
of `event_id.idx`. -/
def Undisturbed (keeps : Bytes → Bytes → Prop) (state : ReadState) : Action → Prop
  | .write (.replace i) => ∀ new rest, state.store.writers[i]? = some (.eventIds new :: rest) →
      (∀ files ∈ state.loading, ∀ old ∈ files.eventIds, keeps old new) ∧
        ∀ index ∈ state.index, index.mapped = none → keeps state.base new
  | _ => True

theorem scanPieces_offset (h : scanPieces pos pieces = some scanned) (hline : line ∈ scanned) :
    ∃ before piece after, pieces = before ++ piece :: after ∧
      line.offset = pos + (before.map fun piece => piece.length + 1).sum ∧
      (decodeText piece).bind searchIdSeq = some (line.eventId, line.sequenceNumber) := by
  induction pieces generalizing pos scanned with
  | nil =>
    cases h
    cases hline
  | cons piece pieces ih =>
    rw [scanPieces] at h
    split at h
    next hempty =>
      obtain ⟨before, found, after, rfl, hoffset, hfound⟩ := ih h hline
      refine ⟨piece :: before, found, after, rfl, ?_, hfound⟩
      rw [hempty, map_cons, sum_cons, length_nil]
      omega
    · simp only [bind, Option.bind_eq_some_iff] at h
      obtain ⟨text, htext, ⟨eventId, number⟩, hsearch, rest, hrest, hscanned⟩ := h
      cases hscanned
      rcases mem_cons.mp hline with rfl | hline
      · refine ⟨[], piece, pieces, rfl, rfl, ?_⟩
        rw [htext]
        exact hsearch
      · obtain ⟨before, found, after, rfl, hoffset, hfound⟩ := ih hrest hline
        refine ⟨piece :: before, found, after, rfl, ?_, hfound⟩
        rw [map_cons, sum_cons]
        omega

theorem lineAt_append (offset : Nat) :
    lineAt (front ++ rest) (front.length + offset) = lineAt rest offset := by
  rw [lineAt, lineAt, ← drop_drop, drop_left]

theorem lineAt_intercalate {before after : List Bytes} {piece : Bytes} (h : newline ∉ piece) :
    lineAt ([newline].intercalate (before ++ piece :: after))
      (before.map fun piece => piece.length + 1).sum = piece := by
  induction before with
  | nil =>
    have htake : ∀ byte ∈ piece, decide (byte ≠ newline) = true := by
      intro byte hbyte
      exact decide_eq_true fun heq => h (heq ▸ hbyte)
    rw [nil_append, map_nil, sum_nil, lineAt, drop_zero]
    cases after with
    | nil =>
      rw [intercalate_singleton]
      exact takeWhile_eq_self_iff.mpr htake
    | cons next after =>
      rw [intercalate_cons_cons, append_assoc, takeWhile_append_of_pos htake]
      simp
  | cons first before ih =>
    have hne : before ++ piece :: after ≠ [] := by simp
    rw [cons_append, intercalate_cons_of_ne_nil hne, map_cons, sum_cons]
    have hlength : first.length + 1 = (first ++ [newline]).length := by simp
    rw [hlength, lineAt_append, ih]

theorem lineAt_of_keepsLines {records : List EventRecord} {scanned : List ScannedLine}
    (hscan : scanPieces 0 (splitNewlines (eventIdLines records)) = some scanned)
    {line : ScannedLine} (hline : line ∈ scanned) {content : Bytes}
    (hkeeps : KeepsLines (eventIdLines records) content) :
    content ≠ [] ∧ ∃ record, recordOfPiece (lineAt content line.offset) = some record ∧
      record.eventId.val = line.eventId := by
  have hrecords : records ≠ [] := by
    rintro rfl
    cases hscan
    cases hline
  rw [splitNewlines_eventIdLines hrecords] at hscan
  obtain ⟨before, piece, after, hpieces, hoffset, hfound⟩ := scanPieces_offset hscan hline
  obtain ⟨record, -, rfl⟩ : ∃ record ∈ records, recordPiece record = piece := by
    rw [← mem_map, hpieces]
    simp
  have hprefix : records.map recordPiece <+: splitNewlines content := by
    rcases hkeeps with hempty | hkeeps
    · have hpieces := splitNewlines_eventIdLines hrecords
      rw [hempty] at hpieces
      obtain ⟨first, rest, rfl⟩ := exists_cons_of_ne_nil hrecords
      exact absurd (List.cons.inj hpieces).1.symm (recordPiece_ne_nil first)
    · rwa [splitNewlines_eventIdLines hrecords] at hkeeps
  obtain ⟨more, hmore⟩ := hprefix
  rw [hpieces, append_assoc, cons_append] at hmore
  have hcontent : content =
      [newline].intercalate (before ++ recordPiece record :: (after ++ more)) := by
    rw [hmore]
    exact (intercalate_splitOn newline).symm
  have hpiece : lineAt content line.offset = recordPiece record := by
    rw [hcontent, hoffset, Nat.zero_add]
    exact lineAt_intercalate (newline_not_mem_recordPiece record)
  refine ⟨?_, record, by rw [hpiece, recordOfPiece_recordPiece], ?_⟩
  · rintro rfl
    have hnil : lineAt [] line.offset = [] := by simp [lineAt]
    rw [hnil] at hpiece
    exact recordPiece_ne_nil record hpiece.symm
  · rw [recordPiece, decodeText_encodeText, Option.bind_some, searchIdSeq_dumpJson] at hfound
    exact (Prod.mk.inj (Option.some.inj hfound)).1

/-- The offsets of the index are those of the lines of a file. -/
def OffsetsOf (base : Bytes) (index : LazyEventIndex) : Prop :=
  ∃ scanned, scanPieces 0 (splitNewlines base) = some scanned ∧
    index.offsets = EventIndex.comprehend (scanned.map fun line => (line.eventId, line.offset))

def WrittenFile (bytes : Bytes) : Prop := ∃ records : List EventRecord, bytes = eventIdLines records

/-- A record under the id asked for, or none where there is none. -/
def Right (answer : String × Lookup) : Prop :=
  answer.2 ≠ .raised ∧ ∀ record, answer.2 = .found record → record.eventId.val = answer.1

/-- The index reads, or will read, a file that keeps the one its offsets are from. -/
structure Reads (keeps : Bytes → Bytes → Prop) (base : Bytes) (dir : IndexDir)
    (index : LazyEventIndex) : Prop where
  offsets : OffsetsOf base index
  written : WrittenFile base
  file : ∃ content, (index.mapped.orElse fun _ => dir.eventIds) = some content ∧
    keeps base content
  cache : ∀ eventId record, Dict.get index.cache eventId = some record →
    record.eventId.val = eventId

structure Serves (keeps : Bytes → Bytes → Prop) (state : ReadState) : Prop where
  file : ∀ bytes, state.store.dir.eventIds = some bytes → WrittenFile bytes
  writers : ∀ writer ∈ state.store.writers, ∀ bytes, .eventIds bytes ∈ writer → WrittenFile bytes
  loading : ∀ files, state.loading = some files → ∃ old now, files.eventIds = some old ∧
    WrittenFile old ∧ state.store.dir.eventIds = some now ∧ keeps old now
  index : ∀ index, state.index = some index → Reads keeps state.base state.store.dir index
  answers : ∀ answer ∈ state.answers, Right answer

theorem comprehend_mem {ν : Type} {entries : List (String × ν)} {key : String} {value : ν}
    (h : Dict.get (EventIndex.comprehend entries) key = some value) : (key, value) ∈ entries := by
  induction entries using List.reverseRecOn with
  | nil => cases h
  | append_singleton entries last ih =>
    rw [EventIndex.comprehend, foldl_concat] at h
    by_cases hkey : key = last.1
    · subst hkey
      rw [get_set_self] at h
      cases h
      simp
    · rw [get_set_of_ne _ _ hkey] at h
      exact mem_append_left _ (ih h)

theorem Reads.materialize {keeps : Bytes → Bytes → Prop}
    (hlines : ∀ old new, keeps old new → KeepsLines old new) {base : Bytes} {dir : IndexDir}
    {index : LazyEventIndex} (h : Reads keeps base dir index) (eventId : String) :
    Right (eventId, (index.materialize dir eventId).1) ∧
      Reads keeps base dir (index.materialize dir eventId).2 := by
  unfold LazyEventIndex.materialize
  cases hcache : Dict.get index.cache eventId with
  | some record =>
    refine ⟨⟨by simp, fun found hfound => ?_⟩, h⟩
    rw [← Lookup.found.inj hfound]
    exact h.cache eventId record hcache
  | none =>
    cases hoffset : Dict.get index.offsets eventId with
    | none => exact ⟨⟨by simp, by simp⟩, h⟩
    | some offset =>
      obtain ⟨scanned, hscan, hoffsets⟩ := h.offsets
      obtain ⟨records, hbase⟩ := h.written
      rw [hoffsets] at hoffset
      obtain ⟨line, hline, heq⟩ := mem_map.mp (comprehend_mem hoffset)
      cases heq
      obtain ⟨content, hfile, hkeeps⟩ := h.file
      rw [hbase] at hscan
      obtain ⟨hne, record, hrecord, hid⟩ := lineAt_of_keepsLines hscan hline
        (hbase ▸ hlines base content hkeeps)
      have hopen : index.openFile dir = some content := by
        unfold LazyEventIndex.openFile
        cases hmapped : index.mapped with
        | some mapped =>
          rw [hmapped] at hfile
          exact hfile
        | none =>
          rw [hmapped] at hfile
          have hdir : dir.eventIds = some content := hfile
          simp [hdir, hne]
      simp only [hopen, hrecord]
      refine ⟨⟨by simp, fun found hfound => ?_⟩, ⟨scanned, hbase ▸ hscan, hoffsets⟩, ⟨records, hbase⟩,
        ⟨content, rfl, hkeeps⟩, fun other found hfound => ?_⟩
      · rw [← Lookup.found.inj hfound]
        exact hid
      · by_cases hother : other = line.eventId
        · subst hother
          rw [get_set_self] at hfound
          cases hfound
          exact hid
        · rw [get_set_of_ne _ _ hother] at hfound
          exact h.cache other found hfound

theorem load_offsets {index : LazyEventIndex} (h : load sha256 dir = some index) :
    ∃ content, dir.eventIds = some content ∧ OffsetsOf content index ∧ index.cache = [] ∧
      index.mapped = none := by
  unfold load at h
  simp only [bind, Option.bind_eq_some_iff] at h
  obtain ⟨content, hcontent, scanned, hscanned, postings, -, h⟩ := h
  refine ⟨content, hcontent, ?_⟩
  cases hlast : scanned.getLast? with
  | none =>
    rw [hlast] at h
    cases h
    exact ⟨⟨scanned, hscanned, rfl⟩, rfl, rfl⟩
  | some tailLine =>
    rw [hlast] at h
    simp only [Option.bind_eq_some_iff] at h
    obtain ⟨tail, -, -, -, seqSet, -, h⟩ := h
    cases h
    exact ⟨⟨scanned, hscanned, rfl⟩, rfl, rfl⟩

variable {sha256} {keeps : Bytes → Bytes → Prop} {state next : ReadState} {action : Action}

section

variable {store : PersistState} {action : PersistState.Action}

theorem written_writers
    (h : ∀ writer ∈ store.writers, ∀ bytes, .eventIds bytes ∈ writer → WrittenFile bytes)
    (hstep : PersistState.step sha256 store action = some store') :
    ∀ writer ∈ store'.writers, ∀ bytes, .eventIds bytes ∈ writer → WrittenFile bytes := by
  intro writer hwriter bytes hbytes
  cases action with
  | start records =>
    cases hstep
    rcases mem_append.mp hwriter with hold | hnew
    · exact h writer hold bytes hbytes
    · obtain rfl := mem_singleton.mp hnew
      rcases mem_cons.mp hbytes with heq | hposting
      · exact ⟨records, IndexWrite.eventIds.inj heq⟩
      · obtain ⟨name, -, heq⟩ := mem_map.mp hposting
        cases heq
  | replace i =>
    simp only [PersistState.step] at hstep
    split at hstep
    next write rest hget =>
      cases hstep
      have hmine := h _ (mem_of_getElem? hget)
      rcases mem_or_eq_of_mem_set hwriter with hold | rfl
      · exact h writer hold bytes hbytes
      · exact hmine bytes (mem_cons_of_mem _ hbytes)
    · cases hstep

theorem eventIds_step (hstep : PersistState.step sha256 store action = some store') :
    store'.dir.eventIds = store.dir.eventIds ∨
      ∃ i new rest, action = .replace i ∧ store.writers[i]? = some (.eventIds new :: rest) ∧
        store'.dir.eventIds = some new := by
  cases action with
  | start records =>
    cases hstep
    exact .inl rfl
  | replace i =>
    simp only [PersistState.step] at hstep
    split at hstep
    next write rest hget =>
      cases hstep
      cases write with
      | eventIds new => exact .inr ⟨i, new, rest, rfl, hget, rfl⟩
      | posting name content => exact .inl rfl
    · cases hstep

end

theorem Serves.write (h : Serves keeps state) {action : PersistState.Action}
    (hguard : Undisturbed keeps state (.write action)) {store : PersistState}
    (hstep : PersistState.step sha256 state.store action = some store) :
    Serves keeps { state with store := store } := by
  have hwriters := written_writers h.writers hstep
  rcases eventIds_step hstep with hsame | ⟨i, new, rest, rfl, hget, hnew⟩
  · refine ⟨fun bytes hbytes => h.file bytes (hsame ▸ hbytes), hwriters, ?_, ?_, h.answers⟩
    · intro files hfiles
      rw [hsame]
      exact h.loading files hfiles
    · intro index hindex
      have hreads := h.index index hindex
      refine ⟨hreads.offsets, hreads.written, ?_, hreads.cache⟩
      rw [hsame]
      exact hreads.file
  · obtain ⟨hloading, hindexes⟩ := hguard new rest hget
    have hwritten := h.writers _ (mem_of_getElem? hget) new mem_cons_self
    refine ⟨fun bytes hbytes => ?_, hwriters, ?_, ?_, h.answers⟩
    · cases hnew.symm.trans hbytes
      exact hwritten
    · intro files hfiles
      obtain ⟨old, now, hold, hfile, -, -⟩ := h.loading files hfiles
      exact ⟨old, new, hold, hfile, hnew, hloading files hfiles old hold⟩
    · intro index hindex
      have hreads := h.index index hindex
      refine ⟨hreads.offsets, hreads.written, ?_, hreads.cache⟩
      rw [hnew]
      cases hmapped : index.mapped with
      | none => exact ⟨new, rfl, hindexes index hindex hmapped⟩
      | some mapped =>
        obtain ⟨content, hfile, hkeeps⟩ := hreads.file
        rw [hmapped] at hfile
        exact ⟨content, hfile, hkeeps⟩

section Runs

variable (hrefl : ∀ content, keeps content content)
  (hlines : ∀ old new, keeps old new → KeepsLines old new)

include hrefl hlines

theorem Serves.step (h : Serves keeps state) (hguard : Undisturbed keeps state action)
    (hstep : step sha256 state action = some next) : Serves keeps next := by
  cases action with
  | write action =>
    obtain ⟨store, hstore, rfl⟩ := Option.map_eq_some_iff.mp hstep
    exact h.write hguard hstore
  | scan =>
    obtain ⟨content, hcontent, rfl⟩ := Option.map_eq_some_iff.mp hstep
    refine ⟨h.file, h.writers, fun files hfiles => ?_, h.index, h.answers⟩
    cases hfiles
    exact ⟨content, content, rfl, h.file content hcontent, hcontent, hrefl content⟩
  | readPosting name =>
    obtain ⟨files, hfiles, rfl⟩ := Option.map_eq_some_iff.mp hstep
    refine ⟨h.file, h.writers, fun files' hfiles' => ?_, h.index, h.answers⟩
    cases hfiles'
    exact h.loading files hfiles
  | adopt =>
    obtain ⟨files, hfiles, rfl⟩ := Option.map_eq_some_iff.mp hstep
    refine ⟨h.file, h.writers, by simp, fun index hindex => ?_, h.answers⟩
    obtain ⟨old, now, hold, hwritten, hnow, hkeeps⟩ := h.loading files hfiles
    obtain ⟨content, hcontent, hoffsets, hcache, hmapped⟩ := load_offsets sha256 hindex
    cases hold.symm.trans hcontent
    have hbase : files.eventIds.getD [] = old := by rw [hold]; rfl
    refine ⟨by rwa [hbase], by rwa [hbase], ⟨now, by rw [hmapped]; exact hnow, by rwa [hbase]⟩, ?_⟩
    simp [hcache]
  | lookup eventId =>
    obtain ⟨index, hindex, rfl⟩ := Option.map_eq_some_iff.mp hstep
    obtain ⟨hright, hreads⟩ := (h.index index hindex).materialize hlines eventId
    refine ⟨h.file, h.writers, h.loading, fun index' hindex' => ?_, fun answer hanswer => ?_⟩
    · cases hindex'
      exact hreads
    · rcases mem_append.mp hanswer with hold | hlast
      · exact h.answers answer hold
      · rw [mem_singleton.mp hlast]
        exact hright

theorem Serves.of_run (hrun : Run (ReadState.step sha256) (Undisturbed keeps) fresh actions state) :
    Serves keeps state := by
  refine hrun.invariant ?_ fun _ _ _ hinv hguard hstep => hinv.step hrefl hlines hguard hstep
  exact ⟨by simp [fresh, PersistState.fresh, IndexDir.empty], by simp [fresh, PersistState.fresh],
    by simp [fresh], by simp [fresh], by simp [fresh]⟩

end Runs

theorem keepsLines_refl (content : Bytes) : KeepsLines content content :=
  .inr (prefix_refl _)

/-- While nobody puts another file in the place of the scanned one before the first record is made,
every lookup finds the record of its id or none, and offsets are applied to no other file. -/
theorem undisturbed_lookups_right (sha256 : Bytes → String) (actions : List Action)
    (state : ReadState) (hrun : Run (step sha256) (Undisturbed (· = ·)) fresh actions state) :
    (∀ answer ∈ state.answers, Right answer) ∧
      ∀ index, state.index = some index → ∀ content, index.mapped = some content →
        content = state.base := by
  have hserves := Serves.of_run (fun _ => rfl) (fun old _ heq => heq ▸ keepsLines_refl old) hrun
  refine ⟨hserves.answers, fun index hindex content hmapped => ?_⟩
  obtain ⟨file, hfile, hkeeps⟩ := (hserves.index index hindex).file
  rw [hmapped] at hfile
  exact (Option.some.inj hfile).trans hkeeps.symm

theorem run_writes {guard : PersistState → PersistState.Action → Prop} {store : PersistState}
    (h : Run (PersistState.step sha256) guard PersistState.fresh actions store) :
    Run (step sha256) (Undisturbed keeps) fresh (actions.map .write) { fresh with store := store } := by
  induction h with
  | nil => exact Run.nil
  | @snoc actions store next action _ _ hstep ih =>
    have hguard : Undisturbed keeps { fresh with store := store } (.write action) := by
      cases action with
      | start records => trivial
      | replace i => exact fun _ _ _ => ⟨by simp [fresh], by simp [fresh]⟩
    have hnext : step sha256 { fresh with store := store } (.write action) =
        some { fresh with store := next } := by
      simp only [step, hstep, Option.map_some]
    rw [map_append, map_singleton]
    exact Run.snoc ih hguard hnext

def loadActions : List Action := .scan :: KeyIndexName.all.map .readPosting ++ [.adopt]

theorem foldlM_readPostings (names : List KeyIndexName) {state : ReadState}
    (h : state.loading = some files) :
    (names.map Action.readPosting).foldlM (step sha256) state =
      some { state with
        loading := some
          { files with postings := fun name =>
              if name ∈ names then state.store.dir.postings name else files.postings name } } := by
  induction names generalizing state files with
  | nil =>
    simp only [map_nil, foldlM_nil, not_mem_nil, if_false, ← h]
    rfl
  | cons first names ih =>
    have hstep : step sha256 state (.readPosting first) = some { state with
        loading := some
          { files with postings := fun other =>
              if other = first then state.store.dir.postings first else files.postings other } } := by
      simp only [step, h, Option.map_some]
    rw [map_cons, foldlM_cons, hstep, Option.bind_eq_bind, Option.bind_some, ih rfl]
    congr 4
    funext name
    by_cases hrest : name ∈ names
    · simp [hrest]
    · by_cases hfirst : name = first
      · simp [hfirst]
      · simp [hrest, hfirst]

theorem foldlM_loadActions (state : ReadState) (hcontent : state.store.dir.eventIds =
  some content) : loadActions.foldlM (step sha256) state =
      some { state with
        loading := none, index := load sha256 state.store.dir, base := content } := by
  have hscan : step sha256 state .scan =
      some { state with loading := some { IndexDir.empty with eventIds := some content } } := by
    simp only [step, hcontent, Option.map_some]
  have hfiles : ({ IndexDir.empty with
      eventIds := some content
      postings := fun name =>
        if name ∈ KeyIndexName.all then state.store.dir.postings name
        else IndexDir.empty.postings name } : IndexDir) = state.store.dir := by
    simp only [KeyIndexName.mem_all, if_true, ← hcontent]
  rw [loadActions, cons_append, foldlM_cons, hscan, Option.bind_eq_bind, Option.bind_some,
    foldlM_append, foldlM_readPostings KeyIndexName.all rfl, Option.bind_eq_bind,
    Option.bind_some]
  simp only [foldlM_cons, foldlM_nil, step, Option.map_some, Option.bind_eq_bind,
    Option.bind_some, hfiles, hcontent]
  rfl

def laterRecord : EventRecord := { sampleRecord with eventId := secondId, sequenceNumber := 1 }

theorem offset_first {index : LazyEventIndex}
    (h : OffsetsOf (eventIdLines [sampleRecord, laterRecord]) index) :
    Dict.get index.offsets sampleId.val = some 0 := by
  obtain ⟨scanned, hscan, hoffsets⟩ := h
  rw [splitNewlines_eventIdLines (by simp)] at hscan
  have hdecode : ∀ record, decodeText (recordPiece record) = some record.dumpJson :=
    fun record => decodeText_encodeText _
  simp only [map_cons, map_nil, scanPieces, recordPiece_ne_nil, if_false, hdecode, bind,
    Option.bind_some, searchIdSeq_dumpJson, pure] at hscan
  cases hscan
  rw [hoffsets]
  have hne : sampleId.val ≠ secondId.val := by decide
  simp only [map_cons, map_nil, EventIndex.comprehend, foldl_cons, foldl_nil]
  rw [get_set_of_ne _ _ (show sampleId.val ≠ laterRecord.eventId.val from hne)]
  exact get_set_self _ _ _

theorem undisturbed_load (h : label ∈ loadActions) : Undisturbed keeps state label := by
  rw [loadActions, cons_append, mem_cons, mem_append, mem_map,
    mem_singleton] at h
  rcases h with rfl | ⟨name, _, rfl⟩ | rfl <;> trivial

def sampleFiles : IndexDir :=
  persist PersistState.sampleSha256 IndexDir.empty [sampleRecord, laterRecord]

def loaded (index : LazyEventIndex) : ReadState :=
  { store := { dir := sampleFiles, writers := [[]] }
    index := some index
    base := eventIdLines [sampleRecord, laterRecord] }

theorem sampleFiles_eventIds :
    sampleFiles.eventIds = some (eventIdLines [sampleRecord, laterRecord]) :=
  (persist_spec PersistState.sampleSha256 IndexDir.empty [sampleRecord, laterRecord]).1

theorem run_sampleLoad : ∃ actions index,
    Run (step PersistState.sampleSha256) (Undisturbed (· = ·)) fresh actions (loaded index) ∧
      Dict.get index.offsets sampleId.val = some 0 ∧ index.cache = [] ∧ index.mapped = none := by
  have hlast : [sampleRecord, laterRecord].getLast? = some laterRecord := rfl
  have hsome : (load PersistState.sampleSha256 sampleFiles).isSome = true :=
    PersistState.load_persist IndexDir.empty hlast (by decide +kernel)
  obtain ⟨index, hload⟩ := Option.isSome_iff_exists.mp hsome
  have hcontent : ∀ record ∈ [sampleRecord, laterRecord],
      (if record.eventId.val = sampleId.val then sampleRecord else laterRecord) = record := by
    decide +kernel
  have hpersisted := @PersistState.run_persist PersistState.sampleSha256
    (fun eventId => if eventId = sampleId.val then sampleRecord else laterRecord) _ hcontent
  obtain ⟨content, hfile, hoffsets, hcache, hmapped⟩ := load_offsets PersistState.sampleSha256 hload
  cases sampleFiles_eventIds.symm.trans hfile
  have hloaded : Run (step PersistState.sampleSha256) (Undisturbed (· = ·))
      { fresh with store := { dir := sampleFiles, writers := [[]] } } loadActions (loaded index) := by
    apply Run.of_foldlM
    · exact fun label hlabel state => undisturbed_load hlabel
    · rw [foldlM_loadActions _ sampleFiles_eventIds, hload]
      rfl
  exact ⟨_, index, (run_writes hpersisted).append hloaded, offset_first hoffsets, hcache, hmapped⟩

theorem step_lookup_first {record : EventRecord} {records : List EventRecord} {index : LazyEventIndex}
    (hindex : state.index = some index) (hoffset : Dict.get index.offsets sampleId.val = some 0)
    (hcache : index.cache = []) (hmapped : index.mapped = none)
    (hfile : state.store.dir.eventIds = some (eventIdLines (record :: records))) :
    ∃ next, step sha256 state (.lookup sampleId.val) = some next ∧
      (sampleId.val, .found record) ∈ next.answers := by
  have hpieces := splitNewlines_eventIdLines (cons_ne_nil record records)
  have hline : lineAt (eventIdLines (record :: records)) 0 = recordPiece record := by
    have hcontent : eventIdLines (record :: records) =
        [newline].intercalate ((record :: records).map recordPiece) := by
      rw [← hpieces]
      exact (intercalate_splitOn newline).symm
    rw [hcontent]
    exact @lineAt_intercalate [] _ _ (newline_not_mem_recordPiece record)
  have hne : eventIdLines (record :: records) ≠ [] := by
    intro hempty
    rw [hempty] at hline
    exact recordPiece_ne_nil record hline.symm
  have hopen : index.openFile state.store.dir = some (eventIdLines (record :: records)) := by
    rw [LazyEventIndex.openFile, hmapped, hfile]
    simp [hne]
  have hanswer : (index.materialize state.store.dir sampleId.val).1 = .found record := by
    simp only [LazyEventIndex.materialize, hcache, get_nil, hoffset, hopen, hline,
      recordOfPiece_recordPiece]
  refine ⟨_, by rw [step, hindex, Option.map_some], mem_append_right _ ?_⟩
  rw [hanswer]
  exact mem_singleton.mpr rfl

/-- A reader that nobody disturbs finds the first record. -/
theorem undisturbed_sample : ∃ actions state,
    Run (step PersistState.sampleSha256) (Undisturbed (· = ·)) fresh actions state ∧
      (sampleId.val, .found sampleRecord) ∈ state.answers ∧
      ∀ answer ∈ state.answers, Right answer := by
  obtain ⟨actions, index, hrun, hoffset, hcache, hmapped⟩ := run_sampleLoad
  have hfile : (loaded index).store.dir.eventIds =
      some (eventIdLines [sampleRecord, laterRecord]) := sampleFiles_eventIds
  obtain ⟨state, hlookup, hfound⟩ := step_lookup_first rfl hoffset hcache hmapped hfile
  have hguard : Undisturbed (· = ·) (loaded index) (.lookup sampleId.val) := trivial
  have hlast := Run.snoc hrun hguard hlookup
  exact ⟨_, state, hlast, hfound, (undisturbed_lookups_right _ _ _ hlast).1⟩

def pruned (index : LazyEventIndex) : ReadState :=
  { loaded index with
    store :=
      { dir := { sampleFiles with eventIds := some (eventIdLines [laterRecord]) }
        writers := [[], (persistWrites PersistState.sampleSha256 [laterRecord]).tail] } }

/-- Another process prunes the first record while the reader has offsets only, and the reader takes
the second one for it. -/
theorem pruned_file_misread : ∃ actions state,
    Run (step PersistState.sampleSha256) (fun _ _ => True) fresh actions state ∧
      (sampleId.val, .found laterRecord) ∈ state.answers ∧
      ¬ ∀ answer ∈ state.answers, Right answer := by
  obtain ⟨actions, index, hrun, hoffset, hcache, hmapped⟩ := run_sampleLoad
  have hrun : Run (step PersistState.sampleSha256) (fun _ _ => True) fresh actions (loaded index) :=
    hrun.weaken fun _ _ _ => trivial
  have hpruned : [Action.write (.start [laterRecord]), .write (.replace 1)].foldlM
      (step PersistState.sampleSha256) (loaded index) = some (pruned index) := rfl
  have hfile : (pruned index).store.dir.eventIds = some (eventIdLines [laterRecord]) := rfl
  obtain ⟨state, hlookup, hfound⟩ := step_lookup_first rfl hoffset hcache hmapped hfile
  refine ⟨_, state, Run.snoc (hrun.append (Run.of_steps hpruned)) trivial hlookup, hfound,
    fun hright => ?_⟩
  have hid := (hright _ hfound).2 laterRecord rfl
  exact absurd hid (by decide)

end ReadState

end Flowness.Ledger
