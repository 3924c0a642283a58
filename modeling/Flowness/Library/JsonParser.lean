import Flowness.Library.Json

/-!
The JSON grammar over character lists. The fuel bounds the nesting; `parse` starts with one
unit for each character, which `parse_render` shows to be enough.
-/

namespace Flowness.Library

open Option Bool

namespace Json

def isJsonSpace (c : Char) : Bool := c == ' ' || c == '\t' || c == '\n' || c == '\r'

def skipSpace (text : Text) : Text := text.dropWhile isJsonSpace

def hexValue (c : Char) : Option Nat :=
  if c.isDigit then some (c.toNat - '0'.toNat)
  else if 'a' ≤ c ∧ c ≤ 'f' then some (c.toNat - 'a'.toNat + 10)
  else if 'A' ≤ c ∧ c ≤ 'F' then some (c.toNat - 'A'.toNat + 10)
  else none

def hexUnit (a b c d : Char) : Option Nat := do
  let a ← hexValue a
  let b ← hexValue b
  let c ← hexValue c
  let d ← hexValue d
  return ((a * 16 + b) * 16 + c) * 16 + d

/-- The escape after a backslash that is not `\\u`. -/
def unescape (c : Char) : Option Char :=
  if c = '"' ∨ c = '\\' ∨ c = '/' then some c
  else if c = 'n' then some '\n'
  else if c = 'r' then some '\r'
  else if c = 't' then some '\t'
  else if c = 'b' then some (Char.ofNat 8)
  else if c = 'f' then some (Char.ofNat 12)
  else none

def isSurrogate (unit : Nat) : Bool := 0xD800 ≤ unit && unit ≤ 0xDFFF

/-- The code point of a surrogate pair. -/
def joinSurrogates (high low : Nat) : Option Char :=
  if high < 0xDC00 ∧ 0xDC00 ≤ low ∧ low ≤ 0xDFFF then
    some (Char.ofNat (0x10000 + (high - 0xD800) * 0x400 + (low - 0xDC00)))
  else none

/-- The body of a string after its opening quote. A lone surrogate is not text. -/
def parseStringBody : Text → Option (Text × Text)
  | [] => none
  | c :: rest =>
    if c = '"' then some ([], rest)
    else if c.toNat < 32 then none
    else if c ≠ '\\' then (parseStringBody rest).map (Prod.map (c :: ·) id)
    else match rest with
      | [] => none
      | e :: rest =>
        if e ≠ 'u' then
          match unescape e with
          | none => none
          | some c => (parseStringBody rest).map (Prod.map (c :: ·) id)
        else match rest with
          | a :: b :: c :: d :: rest =>
            match hexUnit a b c d with
            | none => none
            | some unit =>
              if ¬isSurrogate unit then
                (parseStringBody rest).map (Prod.map (Char.ofNat unit :: ·) id)
              else match rest with
                | s :: u :: a :: b :: c :: d :: rest =>
                  if s ≠ '\\' ∨ u ≠ 'u' then none
                  else match (hexUnit a b c d).bind (joinSurrogates unit) with
                    | none => none
                    | some c => (parseStringBody rest).map (Prod.map (c :: ·) id)
                | _ => none
          | _ => none

/-- An integer token is the canonical text of its value, or `-0`. -/
def parseInt (token : Text) : Option Int :=
  let value : Int :=
    if token.head? = some '-' then -(Nat.ofDigitChars 10 token.tail 0 : Nat)
    else (Nat.ofDigitChars 10 token 0 : Nat)
  if token = renderInt value ∨ token = ['-', '0'] then some value else none

/-- A number is the longest run of number characters; a point or an exponent makes it a float. -/
def parseNumber (text : Text) : Option (Json × Text) :=
  let token := text.takeWhile isNumberChar
  let rest := text.dropWhile isNumberChar
  if token.any (fun c => c == '.' || c == 'e' || c == 'E') then
    if isFloatLiteral token then some (.float (String.ofList token), rest) else none
  else (parseInt token).map fun n => (.int n, rest)

def parseLiteral (literal : Text) (value : Json) (text : Text) : Option (Json × Text) :=
  if literal.isPrefixOf text then some (value, text.drop literal.length) else none

/-- A quoted key and its colon. -/
def parseKey (text : Text) : Option (String × Text) :=
  match skipSpace text with
  | [] => none
  | c :: rest =>
    if c ≠ '"' then none
    else match parseStringBody rest with
      | none => none
      | some (key, rest) =>
        match skipSpace rest with
        | [] => none
        | c :: rest => if c = ':' then some (String.ofList key, rest) else none

mutual

def parseValue : Nat → Text → Option (Json × Text)
  | 0, _ => none
  | fuel + 1, text =>
    match skipSpace text with
    | [] => none
    | c :: rest =>
      if c = '{' then
        match skipSpace rest with
        | [] => none
        | d :: after =>
          if d = '}' then some (.obj [], after) else parseEntries fuel [] (d :: after)
      else if c = '[' then
        match skipSpace rest with
        | [] => none
        | d :: after => if d = ']' then some (.arr [], after) else parseItems fuel [] (d :: after)
      else if c = '"' then
        (parseStringBody rest).map (Prod.map (fun body => .str (String.ofList body)) id)
      else if c = 'n' then parseLiteral ['u', 'l', 'l'] .null rest
      else if c = 't' then parseLiteral ['r', 'u', 'e'] (.bool true) rest
      else if c = 'f' then parseLiteral ['a', 'l', 's', 'e'] (.bool false) rest
      else parseNumber (c :: rest)

def parseItems : Nat → List Json → Text → Option (Json × Text)
  | 0, _, _ => none
  | fuel + 1, items, text =>
    match parseValue fuel text with
    | none => none
    | some (item, rest) =>
      match skipSpace rest with
      | [] => none
      | c :: rest =>
        if c = ',' then parseItems fuel (items ++ [item]) rest
        else if c = ']' then some (.arr (items ++ [item]), rest)
        else none

/-- A repeated key keeps its first place and its last value. -/
def parseEntries : Nat → List (String × Json) → Text → Option (Json × Text)
  | 0, _, _ => none
  | fuel + 1, entries, text =>
    match parseKey text with
    | none => none
    | some (key, rest) =>
      match parseValue fuel rest with
      | none => none
      | some (value, rest) =>
        match skipSpace rest with
        | [] => none
        | c :: rest =>
          if c = ',' then parseEntries fuel (Dict.set entries key value) rest
          else if c = '}' then some (.obj (Dict.set entries key value), rest)
          else none

end

/-- `json.loads`: one value and nothing but white space around it. -/
def parse (text : Text) : Option Json :=
  match parseValue (text.length + 1) text with
  | some (value, rest) => if skipSpace rest = [] then some value else none
  | none => none

example : parse " \x7b\"a\" : [1, -2.5e3], \"a\":\"\\u00e9\\n\"\x7d".toList =
    some (.obj [("a", .str "é\n")]) := by decide +kernel

variable {c : Char} {value : Json} {fuel : Nat} {rest text token : Text}

theorem skipSpace_cons (h : isJsonSpace c = false) (text : Text) :
    skipSpace (c :: text) = c :: text := by
  unfold skipSpace
  rw [List.dropWhile_cons, h]
  rfl

private theorem hexUnit_hexDigits : ∀ n < 32,
    hexUnit '0' '0' (hexDigit (n / 16)) (hexDigit (n % 16)) = some n ∧ isSurrogate n = false := by
  decide

private theorem parseStringBody_unescape (he : e ≠ 'u') (h : unescape e = some c) (rest : Text) :
    parseStringBody ('\\' :: e :: rest) = (parseStringBody rest).map (Prod.map (c :: ·) id) := by
  rw [parseStringBody.eq_def]
  simp [he, h]

private theorem parseStringBody_escapeChar (c : Char) (rest : Text) :
    parseStringBody (escapeChar c ++ rest) = (parseStringBody rest).map (Prod.map (c :: ·) id) := by
  unfold escapeChar
  split
  next h =>
    exact parseStringBody_unescape (by decide) (by rw [h]; rfl) rest
  split
  next h =>
    exact parseStringBody_unescape (by decide) (by rw [h]; rfl) rest
  split
  next h =>
    exact parseStringBody_unescape (by decide) (by rw [h]; rfl) rest
  split
  next h =>
    exact parseStringBody_unescape (by decide) (by rw [h]; rfl) rest
  split
  next h =>
    exact parseStringBody_unescape (by decide) (by rw [h]; rfl) rest
  split
  next h =>
    have hc : Char.ofNat 8 = c := by rw [← h, Char.ofNat_toNat]
    exact parseStringBody_unescape (by decide) (by rw [← hc]; rfl) rest
  split
  next h =>
    have hc : Char.ofNat 12 = c := by rw [← h, Char.ofNat_toNat]
    exact parseStringBody_unescape (by decide) (by rw [← hc]; rfl) rest
  split
  next h =>
    obtain ⟨hunit, hplain⟩ := hexUnit_hexDigits c.toNat h
    rw [parseStringBody.eq_def]
    simp [hunit, hplain]
  next hquote hslash _ _ _ _ _ hcontrol =>
    rw [parseStringBody.eq_def]
    simp [hquote, hslash, hcontrol]

theorem parseStringBody_escaped (body rest : Text) :
    parseStringBody (body.flatMap escapeChar ++ '"' :: rest) = some (body, rest) := by
  induction body with
  | nil =>
    rw [List.flatMap_nil, parseStringBody.eq_def]
    rfl
  | cons c body ih =>
    rw [List.flatMap_cons, List.append_assoc, parseStringBody_escapeChar, ih]
    rfl

/-- What may follow a number: the end of the text or a character no number contains. -/
def EndsNumber (rest : Text) : Prop := ∀ c, rest.head? = some c → isNumberChar c = false

theorem endsNumber_nil : EndsNumber [] := by
  intro c h
  simp at h

theorem endsNumber_cons (h : isNumberChar c = false) (rest : Text) : EndsNumber (c :: rest) := by
  intro d hd
  have hcd : c = d := by simpa using hd
  rw [← hcd]
  exact h

private theorem takeWhile_token (htoken : token.all isNumberChar = true) (hrest : EndsNumber rest) :
    (token ++ rest).takeWhile isNumberChar = token ∧
      (token ++ rest).dropWhile isNumberChar = rest := by
  have hall : ∀ c ∈ token, isNumberChar c = true := List.all_eq_true.mp htoken
  rw [List.takeWhile_append_of_pos hall, List.dropWhile_append_of_pos hall]
  cases rest with
  | nil => simp
  | cons c rest =>
    have hc : isNumberChar c = false := hrest c rfl
    simp [hc]

private theorem isDigit_of_mem_toDigits (h : c ∈ Nat.toDigits 10 n) : c.isDigit = true :=
  Nat.isDigit_of_mem_toDigits (by decide) (by decide) h

theorem renderInt_number (n : Int) : (renderInt n).all isNumberChar = true := by
  refine List.all_eq_true.mpr (fun c hc => ?_)
  unfold renderInt at hc
  split at hc
  · rcases List.mem_cons.mp hc with rfl | hc
    · rfl
    · simp [isNumberChar, isDigit_of_mem_toDigits hc]
  · simp [isNumberChar, isDigit_of_mem_toDigits hc]

private theorem digit_not_point (h : c.isDigit = true) :
    (c == '.' || c == 'e' || c == 'E') = false := by
  have hpoint : c ≠ '.' := by
    rintro rfl
    contradiction
  have he : c ≠ 'e' := by
    rintro rfl
    contradiction
  have hE : c ≠ 'E' := by
    rintro rfl
    contradiction
  simp [hpoint, he, hE]

private theorem renderInt_plain (n : Int) :
    (renderInt n).any (fun c => c == '.' || c == 'e' || c == 'E') = false := by
  refine List.any_eq_false.mpr (fun c hc => ?_)
  rw [not_eq_true]
  unfold renderInt at hc
  split at hc
  · rcases List.mem_cons.mp hc with rfl | hc
    · rfl
    · exact digit_not_point (isDigit_of_mem_toDigits hc)
  · exact digit_not_point (isDigit_of_mem_toDigits hc)

private theorem head_toDigits_ne_minus (n : Nat) : (Nat.toDigits 10 n).head? ≠ some '-' := by
  intro h
  have hmem : '-' ∈ Nat.toDigits 10 n := List.mem_of_mem_head? h
  have hdigit := isDigit_of_mem_toDigits hmem
  contradiction

theorem parseInt_renderInt (n : Int) : parseInt (renderInt n) = some n := by
  unfold parseInt
  have hvalue : (if (renderInt n).head? = some '-' then
      -((Nat.ofDigitChars 10 (renderInt n).tail 0 : Nat) : Int)
      else (Nat.ofDigitChars 10 (renderInt n) 0 : Nat)) = n := by
    unfold renderInt
    by_cases hn : n < 0
    · rw [if_pos hn, List.head?_cons, if_pos rfl, List.tail_cons, Nat.ofDigitChars_ten_toDigits]
      omega
    · rw [if_neg hn, if_neg (head_toDigits_ne_minus _), Nat.ofDigitChars_ten_toDigits]
      omega
  simp only [hvalue]
  simp

private theorem parseNumber_renderInt (n : Int) (h : EndsNumber rest) :
    parseNumber (renderInt n ++ rest) = some (.int n, rest) := by
  obtain ⟨htake, hdrop⟩ := takeWhile_token (renderInt_number n) h
  unfold parseNumber
  simp only [htake, hdrop, renderInt_plain, parseInt_renderInt]
  rfl

private theorem numberChar_dispatch (h : isNumberChar c = true) :
    isJsonSpace c = false ∧ c ≠ '{' ∧ c ≠ '[' ∧ c ≠ '"' ∧ c ≠ 'n' ∧ c ≠ 't' ∧ c ≠ 'f' := by
  have hne : ∀ d, isNumberChar d = false → c ≠ d := by
    rintro d hd rfl
    rw [hd] at h
    contradiction
  refine ⟨?_, hne _ rfl, hne _ rfl, hne _ rfl, hne _ rfl, hne _ rfl, hne _ rfl⟩
  have hspace := hne ' ' rfl
  have htab := hne '\t' rfl
  have hline := hne '\n' rfl
  have hreturn := hne '\r' rfl
  simp [isJsonSpace, hspace, htab, hline, hreturn]

private theorem parseValue_number (hne : token ≠ []) (h : token.all isNumberChar = true)
    (fuel : Nat) (rest : Text) :
    parseValue (fuel + 1) (token ++ rest) = parseNumber (token ++ rest) := by
  cases token with
  | nil => contradiction
  | cons c token =>
    have hc : isNumberChar c = true := List.all_eq_true.mp h c List.mem_cons_self
    obtain ⟨hspace, h1, h2, h3, h4, h5, h6⟩ := numberChar_dispatch hc
    rw [List.cons_append, parseValue, skipSpace_cons hspace]
    simp [h1, h2, h3, h4, h5, h6]

private theorem renderInt_ne_nil (n : Int) : renderInt n ≠ [] := by
  unfold renderInt
  split
  · simp
  · exact Nat.toDigits_ne_nil

theorem isFloatLiteral_number (h : isFloatLiteral token = true) :
    token.all isNumberChar = true := by
  unfold isFloatLiteral at h
  simp only [and_eq_true] at h
  exact h.1.2

private theorem isFloatLiteral_ne_nil (h : isFloatLiteral token = true) : token ≠ [] := by
  rintro rfl
  contradiction

private theorem isFraction_marked (h : isFraction text = true) :
    ∃ c ∈ text, (c == '.' || c == 'e' || c == 'E') = true := by
  cases text with
  | nil => contradiction
  | cons c rest =>
    refine ⟨c, List.mem_cons_self, ?_⟩
    by_cases hpoint : c = '.'
    · simp [hpoint]
    · simp only [isFraction, hpoint, if_false, isExponent, and_eq_true] at h
      rw [Bool.or_assoc, h.1.1, Bool.or_true]

/-- A float literal carries the point or the exponent that tells it from an integer. -/
private theorem isFloatLiteral_marked (h : isFloatLiteral token = true) :
    token.any (fun c => c == '.' || c == 'e' || c == 'E') = true := by
  unfold isFloatLiteral at h
  simp only [and_eq_true] at h
  obtain ⟨c, hc, hmark⟩ := isFraction_marked h.2
  have hunsigned : c ∈ unsign token := (List.dropWhile_sublist _).mem hc
  refine List.any_eq_true.mpr ⟨c, ?_, hmark⟩
  unfold unsign at hunsigned
  split at hunsigned
  · exact List.mem_of_mem_tail hunsigned
  · exact hunsigned

private theorem parseNumber_float (hfloat : isFloatLiteral token = true) (h : EndsNumber rest) :
    parseNumber (token ++ rest) = some (.float (String.ofList token), rest) := by
  obtain ⟨htake, hdrop⟩ := takeWhile_token (isFloatLiteral_number hfloat) h
  unfold parseNumber
  simp only [htake, hdrop, isFloatLiteral_marked hfloat, hfloat, if_true]

private theorem renderString_append (key : String) (rest : Text) :
    renderString key ++ rest = '"' :: (key.toList.flatMap escapeChar ++ '"' :: rest) := by
  simp [renderString]

private theorem parseKey_renderString (key : String) (rest : Text) :
    parseKey (renderString key ++ ':' :: rest) = some (key, rest) := by
  rw [renderString_append]
  unfold parseKey
  rw [skipSpace_cons rfl]
  simp only [ne_eq, if_false, parseStringBody_escaped]
  rw [skipSpace_cons rfl]
  simp

private theorem endsNumber_renderItems (items : List Json) (rest : Text) :
    EndsNumber (renderItems items ++ rest) := by
  cases items <;> exact endsNumber_cons rfl _

private theorem endsNumber_renderEntries (entries : List (String × Json)) (rest : Text) :
    EndsNumber (renderEntries entries ++ rest) := by
  cases entries <;> exact endsNumber_cons rfl _

/-- A rendered value starts with a character that is neither space nor a closing bracket. -/
private theorem skipSpace_render (h : value.proper = true) (rest : Text) :
    ∃ c after, skipSpace (value.render ++ rest) = c :: after ∧ c :: after = value.render ++ rest ∧
      c ≠ ']' := by
  have hcons : ∀ (c : Char) (tail : Text), isJsonSpace c = false → c ≠ ']' →
      value.render = c :: tail →
      ∃ c after, skipSpace (value.render ++ rest) = c :: after ∧
        c :: after = value.render ++ rest ∧ c ≠ ']' := by
    intro c tail hspace hclose hrender
    refine ⟨c, tail ++ rest, ?_, ?_, hclose⟩
    · rw [hrender, List.cons_append, skipSpace_cons hspace]
    · rw [hrender, List.cons_append]
  have hnumber : value.render ≠ [] → value.render.all isNumberChar = true →
      ∃ c after, skipSpace (value.render ++ rest) = c :: after ∧
        c :: after = value.render ++ rest ∧ c ≠ ']' := by
    intro hne hall
    obtain ⟨c, tail, hrender⟩ := List.exists_cons_of_ne_nil hne
    have hc : isNumberChar c = true :=
      List.all_eq_true.mp hall c (hrender ▸ List.mem_cons_self)
    refine hcons c tail (numberChar_dispatch hc).1 ?_ hrender
    rintro rfl
    contradiction
  cases value with
  | null => exact hcons 'n' _ rfl (by decide) rfl
  | bool b =>
    cases b
    · exact hcons 'f' _ rfl (by decide) rfl
    · exact hcons 't' _ rfl (by decide) rfl
  | int n => exact hnumber (renderInt_ne_nil n) (renderInt_number n)
  | float literal => exact hnumber (isFloatLiteral_ne_nil h) (isFloatLiteral_number h)
  | str s => exact hcons '"' _ rfl (by decide) rfl
  | arr items =>
    cases items with
    | nil => exact hcons '[' _ rfl (by decide) rfl
    | cons item items => exact hcons '[' _ rfl (by decide) rfl
  | obj entries =>
    cases entries with
    | nil => exact hcons '{' _ rfl (by decide) rfl
    | cons entry entries => exact hcons '{' _ rfl (by decide) rfl

mutual

theorem parseValue_render : ∀ (value : Json) (fuel : Nat) (rest : Text),
    value.proper = true → value.render.length ≤ fuel → EndsNumber rest →
    parseValue fuel (value.render ++ rest) = some (value, rest)
  | .null, 0, rest, _, h, _ => by simp [render] at h
  | .null, fuel + 1, rest, _, _, _ => by
    simp [render, parseValue, skipSpace_cons, isJsonSpace, parseLiteral]
  | .bool true, 0, rest, _, h, _ => by simp [render] at h
  | .bool true, fuel + 1, rest, _, _, _ => by
    simp [render, parseValue, skipSpace_cons, isJsonSpace, parseLiteral]
  | .bool false, 0, rest, _, h, _ => by simp [render] at h
  | .bool false, fuel + 1, rest, _, _, _ => by
    simp [render, parseValue, skipSpace_cons, isJsonSpace, parseLiteral]
  | .int n, 0, rest, _, h, _ => by
    have hne := List.length_pos_iff.mpr (renderInt_ne_nil n)
    simp only [render] at h
    omega
  | .int n, fuel + 1, rest, _, _, hrest => by
    rw [render, parseValue_number (renderInt_ne_nil n) (renderInt_number n),
      parseNumber_renderInt n hrest]
  | .float literal, 0, rest, hproper, h, _ => by
    have hne := List.length_pos_iff.mpr (isFloatLiteral_ne_nil hproper)
    simp only [render] at h
    omega
  | .float literal, fuel + 1, rest, hproper, _, hrest => by
    rw [render, parseValue_number (isFloatLiteral_ne_nil hproper) (isFloatLiteral_number hproper),
      parseNumber_float hproper hrest, String.ofList_toList]
  | .str s, 0, rest, _, h, _ => by simp [render, renderString] at h
  | .str s, fuel + 1, rest, _, _, _ => by
    rw [render, renderString_append, parseValue, skipSpace_cons rfl]
    simp [parseStringBody_escaped]
  | .arr [], 0, rest, _, h, _ => by simp [render] at h
  | .arr [], fuel + 1, rest, _, _, _ => by
    simp [render, parseValue, skipSpace_cons, isJsonSpace]
  | .arr (item :: items), 0, rest, _, h, _ => by simp [render] at h
  | .arr (item :: items), fuel + 1, rest, hproper, h, _ => by
    simp only [proper, properItems, and_eq_true] at hproper
    simp only [render, List.length_cons, List.length_append] at h
    have hitems := parseItems_render item items fuel [] rest hproper.1 hproper.2 (by omega)
    obtain ⟨c, after, hskip, hback, hclose⟩ := skipSpace_render hproper.1 (renderItems items ++ rest)
    rw [render, List.cons_append, List.append_assoc, parseValue, skipSpace_cons rfl]
    simp only [hskip, hclose, if_false, Char.reduceEq, if_true]
    rw [hback, hitems, List.nil_append]
  | .obj [], 0, rest, _, h, _ => by simp [render] at h
  | .obj [], fuel + 1, rest, _, _, _ => by
    simp [render, parseValue, skipSpace_cons, isJsonSpace]
  | .obj ((key, value) :: entries), 0, rest, _, h, _ => by simp [render] at h
  | .obj ((key, value) :: entries), fuel + 1, rest, hproper, h, _ => by
    simp only [proper, properEntries, and_eq_true, decide_eq_true_eq] at hproper
    simp only [render, List.length_cons, List.length_append] at h
    have hentries := parseEntries_render key value entries fuel [] rest hproper.2.1 hproper.2.2
      (by simpa [Dict.keys] using hproper.1) (by omega)
    rw [render, List.cons_append, List.append_assoc, List.cons_append, List.append_assoc,
      parseValue, skipSpace_cons rfl]
    simp only [if_true]
    rw [renderString_append, skipSpace_cons rfl]
    simp only [Char.reduceEq, if_false]
    rw [← renderString_append, hentries, List.nil_append]

private theorem parseItems_render : ∀ (item : Json) (items : List Json) (fuel : Nat)
    (front : List Json) (rest : Text), item.proper = true → properItems items = true →
    item.render.length + (renderItems items).length ≤ fuel →
    parseItems fuel front (item.render ++ (renderItems items ++ rest)) =
      some (.arr (front ++ item :: items), rest)
  | item, [], 0, front, rest, _, _, h => by simp [renderItems] at h
  | item, [], fuel + 1, front, rest, hitem, _, h => by
    simp only [renderItems, List.length_cons, List.length_nil] at h
    have hvalue := parseValue_render item fuel (renderItems [] ++ rest) hitem (by omega)
      (endsNumber_renderItems [] rest)
    rw [parseItems, hvalue]
    simp [renderItems, skipSpace_cons, isJsonSpace]
  | item, next :: items, 0, front, rest, _, _, h => by simp [renderItems] at h
  | item, next :: items, fuel + 1, front, rest, hitem, hitems, h => by
    simp only [renderItems, List.length_cons, List.length_append] at h
    simp only [properItems, and_eq_true] at hitems
    have hvalue := parseValue_render item fuel (renderItems (next :: items) ++ rest) hitem (by omega)
      (endsNumber_renderItems (next :: items) rest)
    have hrest := parseItems_render next items fuel (front ++ [item]) rest hitems.1 hitems.2
      (by omega)
    rw [parseItems, hvalue]
    simp only [renderItems, List.cons_append, List.append_assoc]
    rw [skipSpace_cons rfl]
    simp [hrest]

private theorem parseEntries_render : ∀ (key : String) (value : Json)
    (entries : List (String × Json)) (fuel : Nat) (front : List (String × Json)) (rest : Text),
    value.proper = true → properEntries entries = true →
    (Dict.keys (front ++ (key, value) :: entries)).Nodup →
    (renderString key).length + 1 + value.render.length + (renderEntries entries).length ≤ fuel →
    parseEntries fuel front
        (renderString key ++ ':' :: (value.render ++ (renderEntries entries ++ rest))) =
      some (.obj (front ++ (key, value) :: entries), rest)
  | key, value, entries, 0, front, rest, _, _, _, h => by omega
  | key, value, [], fuel + 1, front, rest, hvalue, _, hnodup, h => by
    simp only [renderEntries, List.length_cons, List.length_nil] at h
    have hfresh : key ∉ Dict.keys front := by
      intro hmem
      simp only [Dict.keys, List.map_append, List.map_cons] at hnodup
      exact (List.nodup_append.mp hnodup).2.2 _ hmem _ List.mem_cons_self rfl
    have hparse := parseValue_render value fuel (renderEntries [] ++ rest) hvalue (by omega)
      (endsNumber_renderEntries [] rest)
    rw [parseEntries, parseKey_renderString]
    simp only [hparse]
    simp [renderEntries, skipSpace_cons, isJsonSpace, Dict.set_of_not_mem hfresh]
  | key, value, (next, value') :: entries, fuel + 1, front, rest, hvalue, hentries, hnodup, h => by
    simp only [renderEntries, List.length_cons, List.length_append] at h
    simp only [properEntries, and_eq_true] at hentries
    have hfresh : key ∉ Dict.keys front := by
      intro hmem
      simp only [Dict.keys, List.map_append, List.map_cons] at hnodup
      exact (List.nodup_append.mp hnodup).2.2 _ hmem _ List.mem_cons_self rfl
    have hparse := parseValue_render value fuel (renderEntries ((next, value') :: entries) ++ rest)
      hvalue (by omega) (endsNumber_renderEntries _ rest)
    have hrest := parseEntries_render next value' entries fuel (front ++ [(key, value)]) rest
      hentries.1 hentries.2 (by simpa using hnodup) (by omega)
    rw [parseEntries, parseKey_renderString]
    simp only [hparse, Dict.set_of_not_mem hfresh]
    simp only [renderEntries, List.cons_append, List.append_assoc]
    rw [skipSpace_cons rfl]
    simp [hrest]

end

theorem parse_render (h : value.proper = true) : parse value.render = some value := by
  have hvalue := parseValue_render value (value.render.length + 1) [] h (by omega) endsNumber_nil
  rw [List.append_nil] at hvalue
  unfold parse
  rw [hvalue]
  rfl

private theorem dropWhile_append_left (h : text.dropWhile p ≠ []) (more : Text) :
    (text ++ more).dropWhile p = text.dropWhile p ++ more ∧
      (text ++ more).takeWhile p = text.takeWhile p := by
  induction text with
  | nil => simp at h
  | cons c text ih =>
    rw [List.cons_append]
    by_cases hc : p c = true
    · simp only [List.dropWhile_cons, hc, if_true, List.takeWhile_cons] at h ⊢
      exact ⟨(ih h).1, by rw [(ih h).2]⟩
    · simp [hc]

private theorem skipSpace_append (h : skipSpace text = c :: after) (more : Text) :
    skipSpace (text ++ more) = c :: (after ++ more) := by
  unfold skipSpace at h ⊢
  have hne : text.dropWhile isJsonSpace ≠ [] := by simp [h]
  rw [(dropWhile_append_left hne more).1, h, List.cons_append]

private theorem parseStringBody_append (h : parseStringBody text = some (body, rest)) (more :
  Text) : parseStringBody (text ++ more) = some (body, rest ++ more) := by
  have hmap : ∀ {c : Char} {o : Option (Text × Text)} {body rest : Text},
      o.map (Prod.map (c :: ·) id) = some (body, rest) →
      ∃ tail, o = some (tail, rest) ∧ body = c :: tail := by
    intro c o body rest ho
    obtain ⟨⟨tail, rest'⟩, hsome, hpair⟩ := map_eq_some_iff.mp ho
    obtain ⟨rfl, rfl⟩ := hpair
    exact ⟨tail, hsome, rfl⟩
  fun_induction parseStringBody text generalizing body rest with
  | case2 after =>
    cases h
    rw [List.cons_append, parseStringBody.eq_def]
    rfl
  | case4 c after hquote hcontrol hslash ih =>
    obtain ⟨tail, hbody, rfl⟩ := hmap h
    rw [List.cons_append, parseStringBody.eq_def]
    simp [hquote, hcontrol, hslash, ih hbody]
  | case7 c hquote hcontrol hslash e after hu d hescape ih =>
    obtain ⟨tail, hbody, rfl⟩ := hmap h
    rw [List.cons_append, List.cons_append, parseStringBody.eq_def]
    simp [hquote, hcontrol, hslash, hu, hescape, ih hbody]
  | case9 c hquote hcontrol hslash e hu a b x d after unit hunit hplain ih =>
    obtain ⟨tail, hbody, rfl⟩ := hmap h
    rw [parseStringBody.eq_def]
    simp [hquote, hcontrol, hslash, hu, hunit, hplain, ih hbody]
  | case12 c hquote hcontrol hslash e hu a b x d unit hunit hpair s u a' b' x' d' after hsu joined
      hjoined ih =>
    obtain ⟨tail, hbody, rfl⟩ := hmap h
    rw [parseStringBody.eq_def]
    simp [hquote, hcontrol, hslash, hu, hunit, hpair, hsu, hjoined, ih hbody]
  | _ => contradiction

private theorem parseLiteral_append (h : parseLiteral literal value text = some (parsed, rest))
    (more : Text) : parseLiteral literal value (text ++ more) = some (parsed, rest ++ more) := by
  unfold parseLiteral at h ⊢
  split at h
  next hpre =>
    cases h
    obtain ⟨tail, rfl⟩ := List.isPrefixOf_iff_prefix.mp hpre
    have hlonger : literal.isPrefixOf (literal ++ tail ++ more) = true :=
      List.isPrefixOf_iff_prefix.mpr ⟨tail ++ more, (List.append_assoc _ _ _).symm⟩
    rw [if_pos hlonger, List.append_assoc, List.drop_left, List.drop_left]
  · contradiction

private theorem parseNumber_append (h : parseNumber text = some (value, rest)) (hrest : rest ≠ [])
    (more : Text) : parseNumber (text ++ more) = some (value, rest ++ more) := by
  have hdrop : text.dropWhile isNumberChar = rest := by
    unfold parseNumber at h
    dsimp only at h
    split at h
    · split at h
      · exact (Prod.mk.inj (some.inj h)).2
      · contradiction
    · obtain ⟨n, -, hpair⟩ := map_eq_some_iff.mp h
      exact (Prod.mk.inj hpair).2
  have hne : text.dropWhile isNumberChar ≠ [] := hdrop ▸ hrest
  obtain ⟨hafter, htoken⟩ := dropWhile_append_left hne more
  unfold parseNumber at h ⊢
  simp only [hafter, htoken, hdrop] at h ⊢
  split at h
  next hmark =>
    rw [if_pos hmark]
    split at h
    next hfloat =>
      rw [if_pos hfloat, (Prod.mk.inj (some.inj h)).1]
    · contradiction
  next hmark =>
    rw [if_neg hmark]
    obtain ⟨n, hn, hpair⟩ := map_eq_some_iff.mp h
    rw [hn, map_some, (Prod.mk.inj hpair).1]

private theorem parseKey_append (h : parseKey text = some (key, rest)) (more : Text) :
    parseKey (text ++ more) = some (key, rest ++ more) := by
  unfold parseKey at h ⊢
  cases hskip : skipSpace text with
  | nil => simp [hskip] at h
  | cons c after =>
    rw [skipSpace_append hskip more]
    simp only [hskip] at h
    by_cases hquote : c = '"'
    · cases hbody : parseStringBody after with
      | none => simp [hquote, hbody] at h
      | some pair =>
        obtain ⟨body, tail⟩ := pair
        simp only [hquote, hbody, ne_eq, not_true_eq_false, if_false] at h
        simp only [hquote, parseStringBody_append hbody more, ne_eq, not_true_eq_false, if_false]
        cases htail : skipSpace tail with
        | nil => simp [htail] at h
        | cons d final =>
          rw [skipSpace_append htail more]
          simp only [htail] at h
          by_cases hcolon : d = ':'
          · simp only [hcolon, if_true, some.injEq, Prod.mk.injEq] at h ⊢
            exact ⟨h.1, by rw [h.2]⟩
          · simp [hcolon] at h
    · simp [hquote] at h

/-- Parsers that found their value before the text ended find it in every longer text, with any
larger fuel. -/
private structure Extends (fuel : Nat) : Prop where
  value : ∀ text value rest, parseValue fuel text = some (value, rest) →
    (rest ≠ [] ∨ (skipSpace text).head? = some '{') → ∀ more fuel', fuel ≤ fuel' →
    parseValue fuel' (text ++ more) = some (value, rest ++ more)
  items : ∀ front text value rest, parseItems fuel front text = some (value, rest) →
    ∀ more fuel', fuel ≤ fuel' → parseItems fuel' front (text ++ more) = some (value, rest ++ more)
  entries : ∀ front text value rest, parseEntries fuel front text = some (value, rest) →
    ∀ more fuel', fuel ≤ fuel' →
    parseEntries fuel' front (text ++ more) = some (value, rest ++ more)

private theorem parseValue_extends {fuel : Nat} (ih : Extends fuel) (text : Text) (value : Json)
    (rest : Text) (h : parseValue (fuel + 1) text = some (value, rest))
    (hrest : rest ≠ [] ∨ (skipSpace text).head? = some '{') (more : Text) (fuel' : Nat)
    (hfuel : fuel ≤ fuel') :
    parseValue (fuel' + 1) (text ++ more) = some (value, rest ++ more) := by
  rw [parseValue] at h ⊢
  cases hskip : skipSpace text with
  | nil => simp [hskip] at h
  | cons c after =>
    rw [skipSpace_append hskip more]
    simp only [hskip] at h hrest ⊢
    by_cases hobj : c = '{'
    · simp only [hobj, if_true] at h ⊢
      cases hafter : skipSpace after with
      | nil => simp [hafter] at h
      | cons d tail =>
        rw [skipSpace_append hafter more]
        simp only [hafter] at h ⊢
        by_cases hclose : d = '}'
        · simp only [hclose, if_true, some.injEq, Prod.mk.injEq] at h ⊢
          exact ⟨h.1, by rw [h.2]⟩
        · rw [if_neg hclose] at h ⊢
          exact ih.entries _ _ _ _ h more fuel' hfuel
    by_cases harr : c = '['
    · simp only [harr, Char.reduceEq, if_false, if_true] at h ⊢
      cases hafter : skipSpace after with
      | nil => simp [hafter] at h
      | cons d tail =>
        rw [skipSpace_append hafter more]
        simp only [hafter] at h ⊢
        by_cases hclose : d = ']'
        · simp only [hclose, if_true, some.injEq, Prod.mk.injEq] at h ⊢
          exact ⟨h.1, by rw [h.2]⟩
        · rw [if_neg hclose] at h ⊢
          exact ih.items _ _ _ _ h more fuel' hfuel
    simp only [hobj, harr, if_false] at h ⊢
    split at h
    next hquote =>
      obtain ⟨⟨body, tail⟩, hbody, hpair⟩ := map_eq_some_iff.mp h
      cases hpair
      rw [if_pos hquote, parseStringBody_append hbody more]
      rfl
    rename_i hquote
    rw [if_neg hquote]
    split at h
    next hn =>
      rw [if_pos hn]
      exact parseLiteral_append h more
    rename_i hn
    rw [if_neg hn]
    split at h
    next ht =>
      rw [if_pos ht]
      exact parseLiteral_append h more
    rename_i ht
    rw [if_neg ht]
    split at h
    next hf =>
      rw [if_pos hf]
      exact parseLiteral_append h more
    rename_i hf
    rw [if_neg hf, ← List.cons_append]
    refine parseNumber_append h ?_ more
    rcases hrest with hrest | hrest
    · exact hrest
    · exact absurd (some.inj hrest) hobj

private theorem parseItems_extends (ih : Extends fuel) (front : List Json) (text : Text)
    (value : Json) (rest : Text) (h : parseItems (fuel + 1) front text = some (value, rest))
    (more : Text) (fuel' : Nat) (hfuel : fuel ≤ fuel') :
    parseItems (fuel' + 1) front (text ++ more) = some (value, rest ++ more) := by
  rw [parseItems] at h ⊢
  cases hvalue : parseValue fuel text with
  | none => simp [hvalue] at h
  | some pair =>
    obtain ⟨item, after⟩ := pair
    simp only [hvalue] at h
    cases hskip : skipSpace after with
    | nil => simp [hskip] at h
    | cons c tail =>
      have hne : after ≠ [] := by
        rintro rfl
        simp [skipSpace] at hskip
      rw [ih.value _ _ _ hvalue (.inl hne) more fuel' hfuel]
      simp only [hskip, skipSpace_append hskip more] at h ⊢
      split at h
      next hcomma =>
        rw [if_pos hcomma]
        exact ih.items _ _ _ _ h more fuel' hfuel
      next hcomma =>
        rw [if_neg hcomma]
        split at h
        next hclose =>
          cases h
          rw [if_pos hclose]
        · contradiction

private theorem parseEntries_extends (ih : Extends fuel) (front : List (String × Json))
    (text : Text) (value : Json) (rest : Text)
    (h : parseEntries (fuel + 1) front text = some (value, rest)) (more : Text) (fuel' : Nat)
    (hfuel : fuel ≤ fuel') :
    parseEntries (fuel' + 1) front (text ++ more) = some (value, rest ++ more) := by
  rw [parseEntries] at h ⊢
  cases hkey : parseKey text with
  | none => simp [hkey] at h
  | some pair =>
    obtain ⟨key, after⟩ := pair
    rw [parseKey_append hkey more]
    simp only [hkey] at h ⊢
    cases hvalue : parseValue fuel after with
    | none => simp [hvalue] at h
    | some pair =>
      obtain ⟨item, tail⟩ := pair
      simp only [hvalue] at h
      cases hskip : skipSpace tail with
      | nil => simp [hskip] at h
      | cons c final =>
        have hne : tail ≠ [] := by
          rintro rfl
          simp [skipSpace] at hskip
        rw [ih.value _ _ _ hvalue (.inl hne) more fuel' hfuel]
        simp only [hskip, skipSpace_append hskip more] at h ⊢
        split at h
        next hcomma =>
          rw [if_pos hcomma]
          exact ih.entries _ _ _ _ h more fuel' hfuel
        next hcomma =>
          rw [if_neg hcomma]
          split at h
          next hclose =>
            cases h
            rw [if_pos hclose]
          · contradiction

private theorem extends_all (fuel : Nat) : Extends fuel := by
  induction fuel with
  | zero =>
    refine ⟨?_, ?_, ?_⟩
    · intro text value rest h
      contradiction
    · intro front text value rest h
      contradiction
    · intro front text value rest h
      contradiction
  | succ fuel ih =>
    have hpred : ∀ {fuel'}, fuel + 1 ≤ fuel' → ∃ k, fuel' = k + 1 ∧ fuel ≤ k :=
      fun h => ⟨_, (Nat.succ_pred_eq_of_pos (by omega)).symm, by simp only [Nat.pred_eq_sub_one]; omega⟩
    refine ⟨?_, ?_, ?_⟩
    · intro text value rest h hrest more fuel' hfuel
      obtain ⟨k, rfl, hk⟩ := hpred hfuel
      exact parseValue_extends ih text value rest h hrest more k hk
    · intro front text value rest h more fuel' hfuel
      obtain ⟨k, rfl, hk⟩ := hpred hfuel
      exact parseItems_extends ih front text value rest h more k hk
    · intro front text value rest h more fuel' hfuel
      obtain ⟨k, rfl, hk⟩ := hpred hfuel
      exact parseEntries_extends ih front text value rest h more k hk

/-- With any fuel, a parse of a rendered object that succeeds reads all of it. -/
theorem parseValue_render_obj_rest (hproper : (Json.obj entries).proper = true)
    (h : parseValue fuel (Json.obj entries).render = some (value, rest)) : rest = [] := by
  have hhead : (skipSpace (Json.obj entries).render).head? = some '{' := by
    cases entries with
    | nil => rfl
    | cons entry entries => exact congrArg List.head? (skipSpace_cons rfl _)
  have hlong := (extends_all fuel).value _ _ _ h (.inr hhead) []
    (max fuel (Json.obj entries).render.length) (Nat.le_max_left _ _)
  have hround := parseValue_render (.obj entries) (max fuel (Json.obj entries).render.length) []
    hproper (Nat.le_max_right _ _) endsNumber_nil
  rw [hround, List.append_nil] at hlong
  exact (Prod.mk.inj (some.inj hlong)).2.symm

theorem parse_prefix_render_obj (hproper : (Json.obj entries).proper = true)
    (hpre : front <+: (Json.obj entries).render) (hne : front ≠ (Json.obj entries).render) :
    parse front = none := by
  obtain ⟨more, hmore⟩ := hpre
  have hmore_ne : more ≠ [] := by
    rintro rfl
    rw [List.append_nil] at hmore
    exact hne hmore
  have hhead : ∃ tail, (Json.obj entries).render = '{' :: tail := by
    cases entries with
    | nil => exact ⟨_, rfl⟩
    | cons entry entries => exact ⟨_, rfl⟩
  obtain ⟨tail, htail⟩ := hhead
  unfold parse
  cases hvalue : parseValue (front.length + 1) front with
  | none => rfl
  | some pair =>
    cases front with
    | nil =>
      rw [parseValue] at hvalue
      simp [skipSpace] at hvalue
    | cons c front =>
      have hc : c = '{' := by
        rw [htail, List.cons_append] at hmore
        exact (List.cons.inj hmore).1
      subst hc
      have hlong := (extends_all _).value _ _ _ hvalue
        (.inr (by rw [skipSpace_cons rfl]; rfl)) more ((Json.obj entries).render.length + 1)
        (by rw [← hmore, List.length_append]; omega)
      have hround := parseValue_render (.obj entries) ((Json.obj entries).render.length + 1) []
        hproper (by omega) endsNumber_nil
      rw [List.append_nil, ← hmore] at hround
      rw [← hmore, hround] at hlong
      have hnil := (Prod.mk.inj (some.inj hlong)).2
      exact absurd (List.append_eq_nil_iff.mp hnil.symm).2 hmore_ne

end Json

end Flowness.Library
