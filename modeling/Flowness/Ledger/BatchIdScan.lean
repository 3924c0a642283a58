import Mathlib.Data.List.Infix
import Flowness.Schemas.RecordJson

/-!
What byte-level readers find in the line of a record without parsing it: the quoted names it mentions
and the text of its batch id.
-/

namespace Flowness.Ledger

open List Library Schemas Json

/-- `f'"{value}"'`. -/
def quoted (value : String) : Text := '"' :: (value.toList ++ ['"'])

/-- `needle in line`. -/
def mentions (value : String) (line : Text) : Bool := quoted value <:+: line

/-- `_BATCH_ID_RE` at the start of a text: `null`, or the text up to the next quote. -/
def batchIdAt (text : Text) : Option (Option Text) :=
  if (quoted "batch_id").isPrefixOf text then
    match (text.drop (quoted "batch_id").length).dropWhile isSpace with
    | ':' :: rest =>
      match rest.dropWhile isSpace with
      | '"' :: rest => if '"' ∈ rest then some (some (rest.takeWhile (· ≠ '"'))) else none
      | rest => if "null".toList.isPrefixOf rest then some none else none
    | _ => none
  else none

/-- `_BATCH_ID_RE.search(line)`: the first place that matches. -/
def searchBatchId : Text → Option (Option Text)
  | [] => none
  | c :: text => (batchIdAt (c :: text)).orElse fun _ => searchBatchId text

/-- `match.group(1) if match else None`. -/
def lineBatchId (line : Text) : Option Text := (searchBatchId line).join

def readBatchId (batchId : String) : Text :=
  (batchId.toList.flatMap escapeChar).takeWhile (· ≠ '"')

theorem searchBatchId_cons (h : batchIdAt (c :: text) = none) :
    searchBatchId (c :: text) = searchBatchId text := by
  simp [searchBatchId, h]

theorem searchBatchId_of_match (h : batchIdAt text = some found) :
    searchBatchId text = some found := by
  cases text with
  | nil => contradiction
  | cons c text => simp [searchBatchId, h]

theorem batchIdAt_of_not_mentioned (h : (quoted "batch_id").isPrefixOf text = false) :
    batchIdAt text = none := by
  unfold batchIdAt
  rw [h]
  rfl

theorem batchIdAt_of_ne (h : c ≠ '"') (text : Text) : batchIdAt (c :: text) = none := by
  apply batchIdAt_of_not_mentioned
  rw [quoted, List.isPrefixOf, beq_eq_false_iff_ne.mpr h.symm, Bool.false_and]

theorem searchBatchId_append (h : ∀ c ∈ front, c ≠ '"') (text : Text) :
    searchBatchId (front ++ text) = searchBatchId text := by
  induction front with
  | nil => rfl
  | cons c front ih =>
    have hc : batchIdAt (c :: (front ++ text)) = none := batchIdAt_of_ne (h c mem_cons_self) _
    rw [cons_append, searchBatchId_cons hc]
    exact ih fun d hd => h d (mem_cons_of_mem _ hd)

theorem forall_mem_of_all {α : Type} {p : α → Prop} [DecidablePred p] {l : List α}
    (h : l.all (fun a => decide (p a)) = true) : ∀ a ∈ l, p a :=
  fun a ha => of_decide_eq_true (all_eq_true.mp h a ha)

theorem escapeChar_cases (c : Char) :
    escapeChar c = [c] ∧ c ≠ '"' ∨ ∃ rest, escapeChar c = '\\' :: rest := by
  unfold escapeChar
  split
  · exact .inr ⟨_, rfl⟩
  next hquote =>
    repeat' split
    all_goals first | exact .inr ⟨_, rfl⟩ | exact .inl ⟨rfl, hquote⟩

theorem not_quote_mem_escapeChar {c : Char} (h : c ≠ '"') : ∀ d ∈ escapeChar c, d ≠ '"' := by
  have hchecked : ∀ n < 32, ['\\', 'u', '0', '0', hexDigit (n / 16), hexDigit (n % 16)].all
      (fun d => decide (d ≠ '"')) = true := by
    decide
  have hdigits : ∀ n < 32, ∀ d ∈ ['\\', 'u', '0', '0', hexDigit (n / 16), hexDigit (n % 16)],
      d ≠ '"' := fun n hn => forall_mem_of_all (hchecked n hn)
  unfold escapeChar
  rw [if_neg h]
  repeat' split
  all_goals first | exact hdigits _ ‹_› | simp [h]

theorem eq_of_quoted_word (hplain : ∀ c ∈ word, c ≠ '"' ∧ c ≠ '\\') {chars rest : Text}
    (h : (word ++ ['"']).isPrefixOf (chars.flatMap escapeChar ++ '"' :: rest) = true) :
    chars.flatMap escapeChar = word := by
  induction word generalizing chars with
  | nil =>
    cases chars with
    | nil => rfl
    | cons c chars =>
      rcases escapeChar_cases c with ⟨hc, hne⟩ | ⟨tail, hc⟩
      · simp [hc, List.isPrefixOf, Ne.symm hne] at h
      · simp [hc, List.isPrefixOf] at h
  | cons a word ih =>
    have ha := hplain a (by simp)
    cases chars with
    | nil => simp [List.isPrefixOf, ha.1] at h
    | cons c chars =>
      rcases escapeChar_cases c with ⟨hc, -⟩ | ⟨tail, hc⟩
      · simp only [flatMap_cons, hc, cons_append, nil_append, List.isPrefixOf,
          Bool.and_eq_true, beq_iff_eq] at h ⊢
        rw [ih (fun d hd => hplain d (by simp [hd])) h.2, h.1]
      · simp [hc, List.isPrefixOf, ha.2] at h

theorem batchIdAt_of_ne_word {chars rest : Text}
    (h : chars.flatMap escapeChar ≠ "batch_id".toList) :
    batchIdAt ('"' :: (chars.flatMap escapeChar ++ '"' :: rest)) = none := by
  apply batchIdAt_of_not_mentioned
  rw [quoted, List.isPrefixOf, Bool.and_eq_false_iff]
  exact .inr (Bool.eq_false_iff.mpr fun hword => h (eq_of_quoted_word (forall_mem_of_all (by decide)) hword))

theorem batchIdAt_string (chars rest : Text) :
    batchIdAt ('"' :: (chars.flatMap escapeChar ++ '"' :: ',' :: rest)) = none := by
  by_cases hword : chars.flatMap escapeChar = "batch_id".toList
  · rw [hword]
    rfl
  · exact batchIdAt_of_ne_word hword

theorem searchBatchId_chars (chars rest : Text) :
    searchBatchId (chars.flatMap escapeChar ++ '"' :: ',' :: rest) =
      searchBatchId (',' :: rest) := by
  induction chars with
  | nil => exact searchBatchId_cons rfl
  | cons c chars ih =>
    rw [flatMap_cons, append_assoc]
    by_cases hquote : c = '"'
    · subst hquote
      have hslash : batchIdAt ('\\' :: '"' ::
          (chars.flatMap escapeChar ++ '"' :: ',' :: rest)) = none :=
        batchIdAt_of_ne (by decide) _
      have hescape : escapeChar '"' = ['\\', '"'] := rfl
      rw [hescape, cons_append, singleton_append, searchBatchId_cons hslash,
        searchBatchId_cons (batchIdAt_string chars rest), ih]
    · rw [searchBatchId_append (not_quote_mem_escapeChar hquote), ih]

theorem searchBatchId_value (value : String) (rest : Text) :
    searchBatchId (renderString value ++ ',' :: rest) = searchBatchId (',' :: rest) := by
  rw [renderString, cons_append, append_assoc, singleton_append,
    searchBatchId_cons (batchIdAt_string _ _), searchBatchId_chars]

theorem flatMap_escapeChar {chars : Text} (h : ∀ c ∈ chars, escapeChar c = [c]) :
    chars.flatMap escapeChar = chars := by
  induction chars with
  | nil => rfl
  | cons c chars ih =>
    rw [flatMap_cons, h c mem_cons_self, ih fun d hd => h d (mem_cons_of_mem _ hd)]
    rfl

theorem renderString_plain {value : String} (h : ∀ c ∈ value.toList, escapeChar c = [c]) :
    renderString value = quoted value := by
  rw [renderString, flatMap_escapeChar h, quoted]

theorem searchBatchId_key {key : String} (hplain : ∀ c ∈ key.toList, escapeChar c = [c] ∧ c ≠ '"')
    (hkey : key.toList ≠ "batch_id".toList) (rest : Text) :
    searchBatchId (renderString key ++ ':' :: rest) = searchBatchId (':' :: rest) := by
  have hchars := flatMap_escapeChar fun c hc => (hplain c hc).1
  have hopen : batchIdAt ('"' :: (key.toList ++ '"' :: ':' :: rest)) = none := by
    have hno := @batchIdAt_of_ne_word key.toList (':' :: rest) (hchars.symm ▸ hkey)
    rwa [hchars] at hno
  have hclose : batchIdAt ('"' :: ':' :: rest) = none := rfl
  rw [renderString, hchars, cons_append, append_assoc, singleton_append,
    searchBatchId_cons hopen, searchBatchId_append (fun c hc => (hplain c hc).2),
    searchBatchId_cons hclose]

def optionalField : Option String → Text
  | none => "null".toList
  | some value => renderString value

theorem dumpJson_eq (record : EventRecord) : ∃ rest, record.dumpJson =
    '{' :: (renderString "event_id" ++ ':' :: (renderString record.eventId.val ++
      ',' :: (renderString "sequence_number" ++ ':' :: (renderInt record.sequenceNumber ++
      ',' :: (renderString "timestamp" ++ ':' :: (renderString record.timestamp.val ++
      ',' :: (renderString "transaction_id" ++
        ':' :: (optionalField (record.batch.map BatchSlot.transactionId) ++
      ',' :: (renderString "batch_id" ++
        ':' :: (optionalField record.batchId ++ ',' :: rest)))))))))) := by
  cases hbatch : record.batch
  all_goals
    unfold EventRecord.dumpJson EventRecord.toJson EventRecord.toEntries EventRecord.batchId
    rw [hbatch]
    exact ⟨_, rfl⟩

theorem searchBatchId_optionalField (value : Option String) (rest : Text) :
    searchBatchId (optionalField value ++ ',' :: rest) = searchBatchId (',' :: rest) := by
  cases value with
  | none => exact searchBatchId_append (forall_mem_of_all (by decide)) _
  | some value => exact searchBatchId_value value rest

theorem takeWhile_quote (front rest : Text) :
    (front ++ '"' :: rest).takeWhile (· ≠ '"') = front.takeWhile (· ≠ '"') := by
  induction front with
  | nil => simp
  | cons c front ih => rw [cons_append, takeWhile_cons, takeWhile_cons, ih]

theorem searchBatchId_batchId (value : Option String) (rest : Text) :
    searchBatchId (renderString "batch_id" ++ ':' :: (optionalField value ++ ',' :: rest)) =
      some (value.map readBatchId) := by
  cases value with
  | none => rfl
  | some value =>
    have hread : batchIdAt (quoted "batch_id" ++ ':' :: '"' ::
        (value.toList.flatMap escapeChar ++ '"' :: ',' :: rest)) =
          some (some (readBatchId value)) := by
      have hclosed : '"' ∈ value.toList.flatMap escapeChar ++ '"' :: ',' :: rest := by simp
      rw [readBatchId, ← takeWhile_quote _ (',' :: rest)]
      exact if_pos hclosed
    have htext : renderString "batch_id" ++ ':' :: (optionalField (some value) ++ ',' :: rest) =
        quoted "batch_id" ++ ':' :: '"' ::
          (value.toList.flatMap escapeChar ++ '"' :: ',' :: rest) := by
      simp [optionalField, renderString, quoted, escapeChar]
    rw [htext]
    exact searchBatchId_of_match hread

theorem lineBatchId_dumpJson (record : EventRecord) :
    lineBatchId record.dumpJson = record.batchId.map readBatchId := by
  obtain ⟨rest, hline⟩ := dumpJson_eq record
  have hint : ∀ c ∈ renderInt record.sequenceNumber, c ≠ '"' := by
    intro c hc heq
    have hnumber := all_eq_true.mp (renderInt_number record.sequenceNumber) c hc
    rw [heq] at hnumber
    contradiction
  have hcomma : ∀ text, searchBatchId (',' :: text) = searchBatchId text := fun text =>
    searchBatchId_cons (batchIdAt_of_ne (by decide) text)
  have hcolon : ∀ text, searchBatchId (':' :: text) = searchBatchId text := fun text =>
    searchBatchId_cons (batchIdAt_of_ne (by decide) text)
  have hbrace : ∀ text, searchBatchId ('{' :: text) = searchBatchId text := fun text =>
    searchBatchId_cons (batchIdAt_of_ne (by decide) text)
  have hfound : searchBatchId record.dumpJson = some (record.batchId.map readBatchId) := by
    rw [hline, hbrace, searchBatchId_key (forall_mem_of_all (by decide)) (by decide), hcolon,
      searchBatchId_value, hcomma,
      searchBatchId_key (forall_mem_of_all (by decide)) (by decide), hcolon,
      searchBatchId_append hint, hcomma,
      searchBatchId_key (forall_mem_of_all (by decide)) (by decide), hcolon,
      searchBatchId_value, hcomma,
      searchBatchId_key (forall_mem_of_all (by decide)) (by decide), hcolon,
      searchBatchId_optionalField, hcomma, searchBatchId_batchId]
  rw [lineBatchId, hfound, Option.join_some]

theorem renderString_within {key value : String} {entries : List (String × Json)}
    (h : (key, Json.str value) ∈ entries) :
    renderString value <:+: renderEntries entries := by
  induction entries with
  | nil => contradiction
  | cons entry entries ih =>
    obtain ⟨own, field⟩ := entry
    rw [renderEntries]
    rcases mem_cons.mp h with heq | hmem
    · cases heq
      exact ⟨',' :: (renderString key ++ [':']), renderEntries entries, by simp [render]⟩
    · obtain ⟨front, back, hrest⟩ := ih hmem
      exact ⟨',' :: (renderString own ++ ':' :: (field.render ++ front)), back, by simp [← hrest]⟩

theorem plain_eventType (eventType : EventType) :
    ∀ c ∈ (StrEnum.value eventType).toList, escapeChar c = [c] := by
  have hall : ∀ member ∈ (StrEnum.members : List EventType),
      (StrEnum.value member).toList.all (fun c => decide (escapeChar c = [c])) = true := by
    decide +kernel
  exact forall_mem_of_all (hall eventType (StrEnum.mem_members eventType))

theorem mentions_eventType (record : EventRecord) :
    mentions (StrEnum.value record.eventType) record.dumpJson = true := by
  have hfields : renderString (StrEnum.value record.eventType) <:+:
      renderEntries record.toEntries.tail :=
    @renderString_within "event_type" _ _ (by simp [EventRecord.toEntries])
  have hline : renderEntries record.toEntries.tail <:+: record.dumpJson :=
    ⟨'{' :: (renderString "event_id" ++ ':' :: renderString record.eventId.val), [],
      by simp [EventRecord.dumpJson, EventRecord.toJson, EventRecord.toEntries, render]⟩
  rw [renderString_plain (plain_eventType _)] at hfields
  exact decide_eq_true (hfields.trans hline)

end Flowness.Ledger
