import Flowness.Library.Dict
import Flowness.Library.Utf8

/-!
JSON values and the compact renderer. Objects are insertion-ordered dictionaries; a float is
its literal, since nothing here computes with it.
-/

namespace Flowness.Library

inductive Json where
  | null
  | bool (value : Bool)
  | int (value : Int)
  | float (literal : String)
  | str (value : String)
  | arr (items : List Json)
  | obj (entries : List (String × Json))
deriving Inhabited, Repr

namespace Json

mutual

private def decEq : (left right : Json) → Decidable (left = right)
  | .null, .null => isTrue rfl
  | .bool a, .bool b => decidable_of_iff (a = b) (by simp)
  | .int a, .int b => decidable_of_iff (a = b) (by simp)
  | .float a, .float b => decidable_of_iff (a = b) (by simp)
  | .str a, .str b => decidable_of_iff (a = b) (by simp)
  | .arr a, .arr b =>
    match decEqItems a b with
    | isTrue h => isTrue (by rw [h])
    | isFalse h => isFalse (by simpa using h)
  | .obj a, .obj b =>
    match decEqEntries a b with
    | isTrue h => isTrue (by rw [h])
    | isFalse h => isFalse (by simpa using h)
  | .null, .bool _ | .null, .int _ | .null, .float _ | .null, .str _ | .null, .arr _
  | .null, .obj _ | .bool _, .null | .bool _, .int _ | .bool _, .float _ | .bool _, .str _
  | .bool _, .arr _ | .bool _, .obj _ | .int _, .null | .int _, .bool _ | .int _, .float _
  | .int _, .str _ | .int _, .arr _ | .int _, .obj _ | .float _, .null | .float _, .bool _
  | .float _, .int _ | .float _, .str _ | .float _, .arr _ | .float _, .obj _ | .str _, .null
  | .str _, .bool _ | .str _, .int _ | .str _, .float _ | .str _, .arr _ | .str _, .obj _
  | .arr _, .null | .arr _, .bool _ | .arr _, .int _ | .arr _, .float _ | .arr _, .str _
  | .arr _, .obj _ | .obj _, .null | .obj _, .bool _ | .obj _, .int _ | .obj _, .float _
  | .obj _, .str _ | .obj _, .arr _ => isFalse (by simp)

private def decEqItems : (left right : List Json) → Decidable (left = right)
  | [], [] => isTrue rfl
  | [], _ :: _ => isFalse (by simp)
  | _ :: _, [] => isFalse (by simp)
  | a :: as, b :: bs =>
    match decEq a b, decEqItems as bs with
    | isTrue ha, isTrue has => isTrue (by rw [ha, has])
    | isFalse ha, _ => isFalse (fun h => ha (List.cons.inj h).1)
    | _, isFalse has => isFalse (fun h => has (List.cons.inj h).2)

private def decEqEntries : (left right : List (String × Json)) → Decidable (left = right)
  | [], [] => isTrue rfl
  | [], _ :: _ => isFalse (by simp)
  | _ :: _, [] => isFalse (by simp)
  | (k, a) :: as, (l, b) :: bs =>
    match decEq a b, decEqEntries as bs with
    | isTrue ha, isTrue has =>
      if hk : k = l then isTrue (by rw [hk, ha, has])
      else isFalse (fun h => hk (Prod.mk.inj (List.cons.inj h).1).1)
    | isFalse ha, _ => isFalse (fun h => ha (Prod.mk.inj (List.cons.inj h).1).2)
    | _, isFalse has => isFalse (fun h => has (List.cons.inj h).2)

end

instance : DecidableEq Json := decEq

/-- `value.get(key)` of an object; anything else has no members. -/
def get : Json → String → Option Json
  | .obj entries, key => Dict.get entries key
  | _, _ => none

def isNumberChar (c : Char) : Bool :=
  c.isDigit || c == '-' || c == '+' || c == '.' || c == 'e' || c == 'E'

def isExponent : Text → Bool
  | [] => false
  | e :: rest =>
    let digits := if rest.head? = some '-' ∨ rest.head? = some '+' then rest.tail else rest
    (e == 'e' || e == 'E') && digits ≠ [] && digits.all Char.isDigit

/-- What follows the integer part of a float. -/
def isFraction : Text → Bool
  | [] => false
  | c :: rest =>
    if c = '.' then
      rest.takeWhile Char.isDigit ≠ [] &&
        (rest.dropWhile Char.isDigit = [] || isExponent (rest.dropWhile Char.isDigit))
    else isExponent (c :: rest)

def unsign (token : Text) : Text := if token.head? = some '-' then token.tail else token

/-- `value if isinstance(value, str) else None`. -/
def text? : Json → Option String
  | .str text => some text
  | _ => none

/-- `isinstance(value, int)`; a Python bool is an int. -/
def asInt : Json → Option Int
  | .int n => some n
  | .bool true => some 1
  | .bool false => some 0
  | _ => none

/-- The JSON number grammar with a fraction or an exponent. -/
def isFloatLiteral (token : Text) : Bool :=
  let whole := (unsign token).takeWhile Char.isDigit
  (whole == ['0'] || (whole ≠ [] && whole.head? ≠ some '0')) && token.all isNumberChar &&
    isFraction ((unsign token).dropWhile Char.isDigit)

mutual

/-- Keys are distinct and floats are literals, all the way down. -/
def proper : Json → Bool
  | .float literal => isFloatLiteral literal.toList
  | .arr items => properItems items
  | .obj entries => decide (Dict.keys entries).Nodup && properEntries entries
  | _ => true

def properItems : List Json → Bool
  | [] => true
  | item :: items => item.proper && properItems items

def properEntries : List (String × Json) → Bool
  | [] => true
  | (_, value) :: entries => value.proper && properEntries entries

end

theorem properItems_iff {items : List Json} :
    properItems items = true ↔ ∀ item ∈ items, item.proper = true := by
  induction items with
  | nil => simp [properItems]
  | cons item items ih => simp [properItems, ih]

theorem properEntries_iff {entries : List (String × Json)} :
    properEntries entries = true ↔ ∀ entry ∈ entries, entry.2.proper = true := by
  induction entries with
  | nil => simp [properEntries]
  | cons entry entries ih => simp only [properEntries, Bool.and_eq_true, ih, List.forall_mem_cons]

theorem properItems_map {α : Type} {f : α → Json} (h : ∀ x, (f x).proper = true) (xs : List α) :
    properItems (xs.map f) = true :=
  properItems_iff.mpr (List.forall_mem_map.mpr fun x _ => h x)

def hexDigit (n : Nat) : Char := "0123456789abcdef".toList.getD n '0'

def escapeChar (c : Char) : Text :=
  if c = '"' then ['\\', '"']
  else if c = '\\' then ['\\', '\\']
  else if c = '\n' then ['\\', 'n']
  else if c = '\r' then ['\\', 'r']
  else if c = '\t' then ['\\', 't']
  else if c.toNat = 8 then ['\\', 'b']
  else if c.toNat = 12 then ['\\', 'f']
  else if c.toNat < 32 then ['\\', 'u', '0', '0', hexDigit (c.toNat / 16), hexDigit (c.toNat % 16)]
  else [c]

def renderString (s : String) : Text := '"' :: (s.toList.flatMap escapeChar ++ ['"'])

def renderInt (n : Int) : Text :=
  if n < 0 then '-' :: Nat.toDigits 10 n.natAbs else Nat.toDigits 10 n.natAbs

mutual

/-- Compact rendering: no spaces, control characters escaped, other characters as they are. -/
def render : Json → Text
  | .null => ['n', 'u', 'l', 'l']
  | .bool true => ['t', 'r', 'u', 'e']
  | .bool false => ['f', 'a', 'l', 's', 'e']
  | .int n => renderInt n
  | .float literal => literal.toList
  | .str s => renderString s
  | .arr [] => ['[', ']']
  | .arr (item :: items) => '[' :: (item.render ++ renderItems items)
  | .obj [] => ['{', '}']
  | .obj ((key, value) :: entries) =>
    '{' :: (renderString key ++ ':' :: (value.render ++ renderEntries entries))

def renderItems : List Json → Text
  | [] => [']']
  | item :: items => ',' :: (item.render ++ renderItems items)

def renderEntries : List (String × Json) → Text
  | [] => ['}']
  | (key, value) :: entries =>
    ',' :: (renderString key ++ ':' :: (value.render ++ renderEntries entries))

end

example : render (.obj [("a", .arr [.int (-3), .null]), ("b\n", .str "é")]) =
    "\x7b\"a\":[-3,null],\"b\\n\":\"é\"\x7d".toList := by decide

end Json

def optionalText : Option String → Json
  | some text => .str text
  | none => .null

theorem proper_optionalText (text : Option String) : (optionalText text).proper = true := by
  cases text <;> rfl

end Flowness.Library
