import Flowness.Library.HashChain
import Flowness.PublicLedger.CommittedView

/-!
The stream as `_load` takes it from the file, whoever wrote it: lines that are any JSON, rows that
are mappings with any members.
-/

namespace Flowness.PublicLedger

open List Library

structure RawStream where
  lines : List (Option Json)
  tail : Nat
deriving Repr

/-- The numbers that float literals denote, and `_sha` by the canonical text. -/
structure RawEnv where
  value : String → ℚ
  sha : Json → String

/-- `row.get(key)`; a missing member is None. -/
def field (row : PyValue) (key : String) : PyValue :=
  match row with
  | .dict entries => (Dict.get entries (.str key)).getD .none
  | _ => .none

def isMapping : PyValue → Bool
  | .dict _ => true
  | _ => false

def textOf : PyValue → Option String
  | .str text => some text
  | _ => none

def optionalValue : Option String → PyValue
  | some text => .str text
  | none => .none

def unsigned : PyValue → PyValue
  | .dict entries => .dict (entries.filter fun entry => entry.1 ≠ .str "record_hash")
  | other => other

def recordHash (row : PyValue) : String := (textOf (field row "record_hash")).getD ""

def recordId (row : PyValue) : String := (textOf (field row "record_id")).getD ""

/-- One line of the loop of `_load`. -/
def loadRow (env : RawEnv) (rows : List PyValue) :
    Option Json → Except LedgerError (List PyValue)
  | none => .error (.ledger s!"invalid complete record at line {rows.length + 1}")
  | some tree => do
    let row := tree.loads
    require (isMapping row) (.ledger s!"record at line {rows.length + 1} is not an object")
    require ((field row "format").eq env.value (.str FORMAT) &&
        (field row "sequence").eq env.value (.int (rows.length + 1)) &&
        (field row "previous_record_hash").eq env.value
          (optionalValue (headHash recordHash rows)) &&
        ((unsigned row).dumps env.value).any (fun text =>
          (field row "record_hash").eq env.value (.str (env.sha text))) &&
        (textOf (field row "record_id")).isSome)
      (.ledger s!"invalid immutable record at line {rows.length + 1}")
    .ok (rows ++ [row])

/-- `_load`. -/
def loadRaw (env : RawEnv) (stream : RawStream) : Except LedgerError (List PyValue × Nat) := do
  let rows ← stream.lines.foldlM (loadRow env) []
  require (decide (rows.map recordId).Nodup) (.ledger "duplicate record_id")
  .ok (rows, stream.tail)

def rowText (env : RawEnv) (row : PyValue) : Option Json × String :=
  ((unsigned row).dumps env.value, recordHash row)

section

variable {value : String → ℚ} {entries : List (PyKey × PyValue)} {row : PyValue} {key : String}

theorem get_of_dumps (h : (PyValue.dict entries).dumps value = some text)
    (hstr : ∀ entry ∈ entries, entry.1.isStr = true) (hnodup : (Dict.keys entries).Nodup)
    (key : String) :
    text.get key = (Dict.get entries (.str key)).bind fun item => item.dumps value := by
  obtain ⟨members, sorted, hmembers, hsorted, rfl⟩ := dumps_dict value h
  have hperm := sortItems_perm value hsorted
  have hkeys : Dict.keys members = Dict.keys entries := by
    exact (forall₂_map_eq hmembers fun _ _ hboth => hboth.1).symm
  have hmemberStr : ∀ member ∈ members, member.1.isStr = true := by
    intro member hmem
    obtain ⟨entry, hentry, hkey, -⟩ := (forall₂_exists hmembers).2 member hmem
    exact hkey ▸ hstr entry hentry
  have hsortedStr : ∀ member ∈ sorted, member.1.isStr = true :=
    fun member hmem => hmemberStr member (hperm.mem_iff.mp hmem)
  have hsortedKeys : (Dict.keys sorted).Nodup := by
    unfold Dict.keys at hkeys ⊢
    rw [(hperm.map Prod.fst).nodup_iff, hkeys]
    exact hnodup
  have htexts : (Dict.keys (sorted.map fun entry => (entry.1.text, entry.2))).Nodup := by
    have hinjOn : (Dict.keys sorted).Pairwise fun a b => a.text ≠ b.text := by
      refine List.Pairwise.imp_of_mem ?_ (nodup_iff_pairwise_ne.mp hsortedKeys)
      intro a b ha hb hne htext
      obtain ⟨first, hfirst, rfl⟩ := mem_map.mp ha
      obtain ⟨second, hsecond, rfl⟩ := mem_map.mp hb
      exact hne (isStr_text_inj (hsortedStr first hfirst) (hsortedStr second hsecond) htext)
    rw [Dict.keys, pairwise_map] at hinjOn
    rw [nodup_iff_pairwise_ne, Dict.keys, map_map, pairwise_map]
    exact hinjOn
  show Dict.get (sorted.map fun entry => (entry.1.text, entry.2)) key = _
  refine Option.ext fun found => ?_
  rw [← Dict.mem_iff_get htexts, Option.bind_eq_some_iff]
  constructor
  · intro hmem
    obtain ⟨member, hmember, heq⟩ := mem_map.mp hmem
    obtain ⟨entry, hentry, hkey, hdumps⟩ :=
      (forall₂_exists hmembers).2 member (hperm.mem_iff.mp hmember)
    cases heq
    have hsame : entry.1 = .str member.1.text :=
      isStr_text_inj (hstr entry hentry) rfl (by rw [hkey]; rfl)
    refine ⟨entry.2, (Dict.mem_iff_get hnodup).mp ?_, hdumps⟩
    rw [← hsame]
    exact hentry
  · rintro ⟨item, hget, hdumps⟩
    obtain ⟨member, hmember, hkey, hmemberDumps⟩ :=
      (forall₂_exists hmembers).1 _ ((Dict.mem_iff_get hnodup).mpr hget)
    refine mem_map.mpr ⟨member, hperm.mem_iff.mpr hmember, ?_⟩
    rw [hdumps] at hmemberDumps
    rw [← hkey, Option.some.inj hmemberDumps]
    rfl

theorem field_unsigned (row : PyValue) (hkey : key ≠ "record_hash") : field (unsigned row) key =
    field row key := by
  cases row with
  | dict entries =>
    have hkept : (PyKey.str key ≠ .str "record_hash") := fun heq => hkey (PyKey.str.inj heq)
    show (Dict.get (entries.filter _) (.str key)).getD .none = _
    rw [Dict.get_filter_keys entries fun other => decide (other ≠ .str "record_hash"),
      if_pos (decide_eq_true hkept)]
    rfl
  | _ => rfl

/-- A mapping that is read from JSON has distinct string keys. -/
structure Keyed (row : PyValue) : Prop where
  mapping : ∃ entries, row = .dict entries ∧ (∀ entry ∈ entries, entry.1.isStr = true) ∧
    (Dict.keys entries).Nodup

theorem keyed_loads {tree : Json} (h : isMapping tree.loads = true) : Keyed tree.loads := by
  cases tree with
  | obj entries =>
    exact ⟨_, rfl, fun entry hmem => loads_keys hmem, (foldl_set_keys [] _ nodup_nil).1⟩
  | _ => cases h

theorem Keyed.unsigned (h : Keyed row) : Keyed (unsigned row) := by
  obtain ⟨entries, rfl, hstr, hnodup⟩ := h.mapping
  refine ⟨_, rfl, fun entry hmem => hstr entry (mem_filter.mp hmem).1, ?_⟩
  exact hnodup.sublist (filter_sublist.map _)

theorem textOf_field (hkeyed : Keyed row) (h : row.dumps value = some text) :
    textOf (field row key) = match text.get key with
      | some (.str found) => some found
      | _ => none := by
  obtain ⟨entries, rfl, hstr, hnodup⟩ := hkeyed.mapping
  rw [get_of_dumps h hstr hnodup key]
  show textOf ((Dict.get entries (.str key)).getD .none) = _
  cases Dict.get entries (.str key) with
  | none => rfl
  | some item =>
    rw [Option.bind_some]
    cases item with
    | list items | tuple items =>
      rw [PyValue.dumps]
      cases PyValue.dumpsItems value items <;> rfl
    | dict entries =>
      rw [PyValue.dumps]
      cases (PyValue.dumpsEntries value entries).bind (sortItems value) <;> rfl
    | _ => rfl

end

section

variable {env : RawEnv} {rows next : List PyValue} {row : PyValue} {line : Option Json}
  {stream other : RawStream} {tail : Nat}

def previousHash (row : PyValue) : Option String := textOf (field row "previous_record_hash")

/-- What `_load` has checked of a row by itself. -/
structure GoodRow (env : RawEnv) (row : PyValue) : Prop where
  keyed : Keyed row
  hashed : ∃ text, (unsigned row).dumps env.value = some text ∧ recordHash row = env.sha text

theorem eq_str {v : PyValue} {value : String → ℚ} {text : String} :
    v.eq value (.str text) = true ↔ v = .str text := by
  cases v <;> simp [PyValue.eq, PyValue.number?]

theorem textOf_of_eq_optional {value : String → ℚ} (h : v.eq value (optionalValue text) = true) :
    textOf v = text := by
  cases text with
  | some text => rw [eq_str.mp h, textOf]
  | none => cases v <;> simp_all [optionalValue, PyValue.eq, PyValue.number?, textOf]

theorem loadRow_ok (h : loadRow env rows line = .ok next) :
    ∃ tree, line = some tree ∧ next = rows ++ [tree.loads] ∧ GoodRow env tree.loads ∧
      previousHash tree.loads = headHash recordHash rows := by
  cases line with
  | none => cases h
  | some tree =>
    simp only [loadRow, bind_ok, require_ok, exists_const, Bool.and_eq_true, Option.any_eq_true,
      Except.ok.injEq] at h
    obtain ⟨hmapping, ⟨⟨⟨-, hprevious⟩, text, htext, hhash⟩, -⟩, rfl⟩ := h
    refine ⟨tree, rfl, rfl, ⟨keyed_loads hmapping, text, htext, ?_⟩, textOf_of_eq_optional hprevious⟩
    rw [recordHash, eq_str.mp hhash]
    rfl

theorem linked_of_loadRows {lines : List (Option Json)}
    (h : lines.foldlM (loadRow env) [] = .ok rows) :
    Linked recordHash previousHash (GoodRow env) rows := by
  induction lines using List.reverseRecOn generalizing rows with
  | nil =>
    obtain rfl : [] = rows := Except.ok.inj h
    exact .nil
  | append_singleton lines line ih =>
    obtain ⟨before, hbefore, hline⟩ := foldlM_snoc_ok.mp h
    obtain ⟨tree, -, rfl, hgood, hprevious⟩ := loadRow_ok hline
    exact .snoc (ih hbefore) hgood hprevious

theorem linked_of_loadRaw (h : loadRaw env stream = .ok (rows, tail)) :
    Linked recordHash previousHash (GoodRow env) rows := by
  simp only [loadRaw, bind_ok, require_ok, exists_const] at h
  obtain ⟨found, hfound, -, rfl, -⟩ := h
  exact linked_of_loadRows hfound

theorem row_pinned (hsha : Function.Injective env.sha) (ha : GoodRow env a) (hb : GoodRow env b)
    (h : recordHash a = recordHash b) :
    rowText env a = rowText env b ∧ previousHash a = previousHash b := by
  obtain ⟨text, htext, hhash⟩ := ha.hashed
  obtain ⟨text', htext', hhash'⟩ := hb.hashed
  have hsame : text = text' := hsha (hhash.symm.trans (h.trans hhash'))
  subst hsame
  have hkey : "previous_record_hash" ≠ "record_hash" := by
    decide
  constructor
  · rw [rowText, rowText, htext, htext', h]
  · rw [previousHash, previousHash, ← field_unsigned _ hkey, ← field_unsigned b hkey,
      textOf_field ha.keyed.unsigned htext, textOf_field hb.keyed.unsigned htext']

theorem rows_pinned (hsha : Function.Injective env.sha) (h : loadRaw env stream = .ok (rows, tail))
    (h' : loadRaw env other = .ok (others, tail')) (count count' : Nat)
    (hhead : headHash recordHash (rows.take count) = headHash recordHash (others.take count')) :
    (rows.take count).map (rowText env) = (others.take count').map (rowText env) :=
  ((linked_of_loadRaw h).take count).pinned (fun _ _ => row_pinned hsha)
    ((linked_of_loadRaw h').take count') hhead

end

def RowBody.json (body : RowBody Json) : Json :=
  .obj [("format", .str body.format), ("kind", .str body.kind), ("occurred_at", .str body.occurredAt),
    ("outcome", optionalText body.outcome), ("payload", body.payload),
    ("previous_record_hash", optionalText body.previousRecordHash),
    ("proposal_id", .str body.proposalId), ("record_id", .str body.recordId),
    ("sequence", .int body.sequence)]

def RawEnv.ledger (env : RawEnv) (size : Line → Nat) : LedgerEnv :=
  ⟨env.value, fun body => env.sha body.json, size⟩

def LedgerFile.raw (file : LedgerFile) : RawStream :=
  ⟨file.lines.map fun line => some line.json, file.tail⟩

/-- What `_load` makes of a line. -/
def Row.row (line : Line) : PyValue := line.json.loads

section

variable {env : RawEnv} {size : Line → Nat} {file : LedgerFile} {line : Line} {rows : List PyValue}

theorem loads_optionalText (text : Option String) :
    (optionalText text).loads = optionalValue text := by
  cases text <;> rfl

theorem dumps_optionalValue (value : String → ℚ) (text : Option String) :
    (optionalValue text).dumps value = some (optionalText text) := by
  cases text <;> rfl

theorem textOf_optionalValue (text : Option String) : textOf (optionalValue text) = text := by
  cases text <;> rfl

theorem row_eq (line : Line) : line.row = .dict
    [(.str "format", .str line.format), (.str "kind", .str line.kind),
      (.str "occurred_at", .str line.occurredAt), (.str "outcome", optionalValue line.outcome),
      (.str "payload", line.payload.loads),
      (.str "previous_record_hash", optionalValue line.previousRecordHash),
      (.str "proposal_id", .str line.proposalId), (.str "record_hash", .str line.recordHash),
      (.str "record_id", .str line.recordId), (.str "sequence", .int line.sequence)] := by
  rw [Row.row, Row.json, Json.loads, foldl_set_of_nodup [] _ ?_]
  · simp [Json.loadsEntries, Json.loads, loads_optionalText]
  · refine loadsEntries_keys_nodup ?_
    show ["format", "kind", "occurred_at", "outcome", "payload", "previous_record_hash",
      "proposal_id", "record_hash", "record_id", "sequence"].Nodup
    decide

theorem unsigned_row (line : Line) : unsigned line.row = .dict
    [(.str "format", .str line.format), (.str "kind", .str line.kind),
      (.str "occurred_at", .str line.occurredAt), (.str "outcome", optionalValue line.outcome),
      (.str "payload", line.payload.loads),
      (.str "previous_record_hash", optionalValue line.previousRecordHash),
      (.str "proposal_id", .str line.proposalId), (.str "record_id", .str line.recordId),
      (.str "sequence", .int line.sequence)] := by
  rw [row_eq, unsigned]
  simp

theorem unsigned_dumps (value : String → ℚ) (line : Line) : (unsigned line.row).dumps value =
    (line.loads.payload.dumps value).map fun payload =>
      RowBody.json { line.toRowBody with payload := payload } := by
  have hkeys : ["format", "kind", "occurred_at", "outcome", "payload", "previous_record_hash",
      "proposal_id", "record_id", "sequence"].Pairwise (· ≤ ·) := by
    decide
  rw [unsigned_row, show line.loads.payload = line.payload.loads from rfl]
  cases hdumps : line.payload.loads.dumps value with
  | none => simp [PyValue.dumpsEntries, PyValue.dumps, dumps_optionalValue, hdumps]
  | some payload =>
    simp only [PyValue.dumpsEntries, PyValue.dumps, dumps_optionalValue, hdumps, Option.bind_some,
      Option.map_some]
    rw [sortItems_sorted]
    · rfl
    · simp [PyKey.isStr]
    · rw [← pairwise_map (f := fun entry : PyKey × Json => entry.1.text) (R := (· ≤ ·))]
      exact hkeys

theorem recordHash_row (line : Line) : recordHash line.row = line.recordHash := by
  rfl

theorem recordId_row (line : Line) : recordId line.row = line.recordId := by
  rfl

theorem headHash_rows (lines : List Line) : headHash recordHash (lines.map Row.row) =
    (lines.map fun line => line.loads).getLast?.map fun last => last.recordHash := by
  rw [headHash, List.getLast?_map, List.getLast?_map, Option.map_map, Option.map_map]
  congr 1

theorem eq_optional {text other : Option String} {value : String → ℚ} :
    (optionalValue text).eq value (optionalValue other) = true ↔ text = other := by
  constructor
  · intro h
    exact (textOf_optionalValue text).symm.trans (textOf_of_eq_optional h)
  · rintro rfl
    cases text <;> simp [optionalValue, PyValue.eq]

theorem eq_next {number count : Nat} {value : String → ℚ} :
    (PyValue.int number).eq value (.int (count + 1)) = true ↔ number = count + 1 := by
  simp only [PyValue.eq, PyValue.number?, Option.any_some, PyNumber.eq, decide_eq_true_eq,
    PyNumber.finite.injEq]
  exact_mod_cast Iff.rfl

theorem loadRow_row {lines : List Line} {next : List PyValue} :
    loadRow env (lines.map Row.row) (some line.json) = .ok next ↔
      Accepted (env.ledger size) (lines.map fun line => line.loads) line ∧
        next = (lines ++ [line]).map Row.row := by
  have hfields : field line.row "format" = .str line.format ∧
      field line.row "sequence" = .int line.sequence ∧
      field line.row "previous_record_hash" = optionalValue line.previousRecordHash ∧
      field line.row "record_hash" = .str line.recordHash ∧
      field line.row "record_id" = .str line.recordId := by
    rw [row_eq]
    exact ⟨rfl, rfl, rfl, rfl, rfl⟩
  obtain ⟨hformat, hsequence, hprevious, hrecorded, hid⟩ := hfields
  have hmapping : isMapping line.row = true := by
    rfl
  have hhash : ((unsigned line.row).dumps env.value).any (fun text =>
        (PyValue.str line.recordHash).eq env.value (.str (env.sha text))) = true ↔
      (line.loads.canonical (env.ledger size)).map (env.ledger size).sha = some line.recordHash := by
    rw [unsigned_dumps]
    show _ ↔ ((line.loads.payload.dumps env.value).map _).map _ = _
    cases line.loads.payload.dumps env.value with
    | none => simp
    | some payload =>
      simp only [Option.map_some, Option.any_some, eq_str, PyValue.str.injEq, Option.some.injEq]
      exact eq_comm
  simp only [loadRow, show line.json.loads = line.row from rfl, bind_ok, require_ok, exists_const,
    hmapping, hformat, hsequence, hprevious, hrecorded, hid, hhash, headHash_rows, eq_str,
    eq_optional, eq_next, Bool.and_eq_true, textOf, Option.isSome_some, PyValue.str.injEq,
    Except.ok.injEq, and_true, true_and, map_append, map_singleton, Accepted,
    length_map]
  constructor
  · rintro ⟨⟨⟨⟨hf, hs⟩, hp⟩, hh⟩, rfl⟩
    exact ⟨⟨hf, hs, hp, hh⟩, rfl⟩
  · rintro ⟨⟨hf, hs, hp, hh⟩, rfl⟩
    exact ⟨⟨⟨⟨hf, hs⟩, hp⟩, hh⟩, rfl⟩

theorem loadRows_lines (size : Line → Nat) {lines : List Line} :
    (lines.map fun line => some line.json).foldlM (loadRow env) [] = .ok rows ↔
      (∃ records, lines.foldlM (loadRecord (env.ledger size)) [] = .ok records) ∧
        rows = lines.map Row.row := by
  induction lines using List.reverseRecOn generalizing rows with
  | nil =>
    constructor
    · intro h
      exact ⟨⟨[], rfl⟩, (Except.ok.inj h).symm⟩
    · rintro ⟨-, rfl⟩
      rfl
  | append_singleton lines line ih =>
    rw [map_append, map_singleton, foldlM_snoc_ok]
    constructor
    · rintro ⟨before, hbefore, hline⟩
      obtain ⟨⟨records, hrecords⟩, rfl⟩ := ih.mp hbefore
      obtain ⟨haccepted, rfl⟩ := loadRow_row.mp hline
      have hloaded := loadRecords_eq hrecords
      rw [nil_append] at hloaded
      subst hloaded
      exact ⟨⟨_, foldlM_snoc_ok.mpr ⟨_, hrecords, loadRecord_ok.mpr ⟨haccepted, rfl⟩⟩⟩, rfl⟩
    · rintro ⟨⟨records, hrecords⟩, rfl⟩
      obtain ⟨before, hbefore, hline⟩ := foldlM_snoc_ok.mp hrecords
      have hloaded := loadRecords_eq hbefore
      rw [nil_append] at hloaded
      subst hloaded
      exact ⟨_, ih.mpr ⟨⟨_, hbefore⟩, rfl⟩, loadRow_row.mpr ⟨(loadRecord_ok.mp hline).1, rfl⟩⟩

theorem loadRaw_raw {tail : Nat} : loadRaw env file.raw = .ok (rows, tail) ↔
    (∃ records, load (env.ledger size) file = .ok (records, tail)) ∧
      rows = file.lines.map Row.row := by
  have hids : (file.lines.map Row.row).map recordId = file.ids := by
    rw [map_map, LedgerFile.ids]
    exact map_congr_left fun line _ => recordId_row line
  simp only [loadRaw, bind_ok, require_ok, exists_const, decide_eq_true_eq, Except.ok.injEq,
    Prod.mk.injEq, LedgerFile.raw, loadRows_lines size]
  constructor
  · rintro ⟨_, ⟨⟨records, hrecords⟩, rfl⟩, hnodup, rfl, rfl⟩
    refine ⟨⟨records, load_ok.mpr ⟨hrecords, ?_, rfl⟩⟩, rfl⟩
    rw [loadRecords_eq hrecords, nil_append, map_map]
    rw [hids] at hnodup
    exact hnodup
  · rintro ⟨⟨records, hload⟩, rfl⟩
    obtain ⟨hrecords, hnodup, htail⟩ := load_ok.mp hload
    refine ⟨_, ⟨⟨records, hrecords⟩, rfl⟩, ?_, rfl, htail⟩
    rw [hids, ← load_ids hload]
    exact hnodup

end

end Flowness.PublicLedger
