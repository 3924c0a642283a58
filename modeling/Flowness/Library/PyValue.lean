import Flowness.Library.Json
import Mathlib.Data.List.Sort
import Mathlib.Data.Rat.Defs
import Mathlib.Algebra.Order.Ring.Unbundled.Rat
import Mathlib.Data.String.Basic

/-!
The Python values that `json.dumps` accepts: equality, truth value and the order of mapping keys.
A finite float is its `repr`; `value` is the exact number that such a literal denotes.
-/

namespace Flowness.Library

inductive PyFloat where
  | nan
  | infinity
  | negInfinity
  | finite (literal : String)
deriving DecidableEq, Repr

inductive PyKey where
  | none
  | bool (value : Bool)
  | int (value : Int)
  | float (value : PyFloat)
  | str (value : String)
deriving DecidableEq, Repr

inductive PyValue where
  | none
  | bool (value : Bool)
  | int (value : Int)
  | float (value : PyFloat)
  | str (value : String)
  | list (items : List PyValue)
  | tuple (items : List PyValue)
  | dict (entries : List (PyKey × PyValue))
deriving Inhabited, Repr

/-- What a number compares as. -/
inductive PyNumber where
  | nan
  | low
  | finite (value : ℚ)
  | high
deriving DecidableEq, Repr

namespace PyNumber

/-- `a < b`. -/
def lt : PyNumber → PyNumber → Bool
  | .finite a, .finite b => decide (a < b)
  | .low, .finite _ | .low, .high | .finite _, .high => true
  | _, _ => false

/-- `a == b`. -/
def eq : PyNumber → PyNumber → Bool
  | .nan, _ => false
  | a, b => decide (a = b)

end PyNumber

/-- The text of a float in JSON. -/
def PyFloat.text : PyFloat → String
  | .nan => "NaN"
  | .infinity => "Infinity"
  | .negInfinity => "-Infinity"
  | .finite literal => literal

/-- The text of a mapping key in JSON. -/
def PyKey.text : PyKey → String
  | .none => "null"
  | .bool value => if value then "true" else "false"
  | .int value => String.ofList (Json.renderInt value)
  | .float value => value.text
  | .str value => value

def PyKey.isStr : PyKey → Bool
  | .str _ => true
  | _ => false

section

variable (value : String → ℚ)

def PyFloat.number : PyFloat → PyNumber
  | .nan => .nan
  | .infinity => .high
  | .negInfinity => .low
  | .finite literal => .finite (value literal)

def PyKey.number? : PyKey → Option PyNumber
  | .bool flag => some (.finite (if flag then 1 else 0))
  | .int number => some (.finite number)
  | .float number => some (number.number value)
  | _ => Option.none

def PyValue.number? : PyValue → Option PyNumber
  | .bool flag => some (.finite (if flag then 1 else 0))
  | .int number => some (.finite number)
  | .float number => some (number.number value)
  | _ => Option.none

/-- `a == b` of keys. -/
def PyKey.eq : PyKey → PyKey → Bool
  | .none, .none => true
  | .str a, .str b => a == b
  | a, b =>
    match a.number? value, b.number? value with
    | some x, some y => x.eq y
    | _, _ => false

/-- Not `b < a`, where the keys can be compared. -/
def PyKey.le : PyKey → PyKey → Bool
  | .str a, .str b => decide (a ≤ b)
  | a, b =>
    match a.number? value, b.number? value with
    | some x, some y => !y.lt x
    | _, _ => false

/-- `sorted(d.items())`, or none when two keys cannot be compared. -/
def sortItems {α : Type} (entries : List (PyKey × α)) : Option (List (PyKey × α)) :=
  if entries.length ≤ 1 ∨ (entries.all fun entry => entry.1.isStr) = true ∨
      (entries.all fun entry => (entry.1.number? value).isSome) = true then
    some (entries.insertionSort fun a b => a.1.le value b.1 = true)
  else none

namespace PyValue

mutual

/-- `a == b` of values built apart: a NaN equals nothing. -/
def eq : PyValue → PyValue → Bool
  | .none, .none => true
  | .str a, .str b => a == b
  | .list items, .list others => eqItems items others
  | .tuple items, .tuple others => eqItems items others
  | .dict entries, .dict others => entries.length == others.length && eqEntries entries others
  | .bool flag, other => (other.number? value).any (PyNumber.finite (if flag then 1 else 0)).eq
  | .int number, other => (other.number? value).any (PyNumber.finite number).eq
  | .float number, other => (other.number? value).any (number.number value).eq
  | _, _ => false

def eqItems : List PyValue → List PyValue → Bool
  | [], [] => true
  | item :: items, other :: others => eq item other && eqItems items others
  | _, _ => false

/-- Every entry is found among the others. -/
def eqEntries : List (PyKey × PyValue) → List (PyKey × PyValue) → Bool
  | [], _ => true
  | (key, item) :: entries, others =>
    ((others.find? fun other => key.eq value other.1).any fun other => eq item other.2) &&
      eqEntries entries others

end

/-- `bool(a)`. -/
def truthy : PyValue → Bool
  | .none => false
  | .bool flag => flag
  | .int number => number ≠ 0
  | .float number => number.number value ≠ .finite 0
  | .str text => text ≠ ""
  | .list items => !items.isEmpty
  | .tuple items => !items.isEmpty
  | .dict entries => !entries.isEmpty

mutual

/-- No two keys of a mapping are equal, and the literals of floats are literals. -/
def wellFormed : PyValue → Bool
  | .float (.finite literal) => Json.isFloatLiteral literal.toList
  | .list items => wellFormedItems items
  | .tuple items => wellFormedItems items
  | .dict entries =>
    decide (entries.Pairwise fun a b => a.1.eq value b.1 = false) && wellFormedEntries entries
  | _ => true

def wellFormedItems : List PyValue → Bool
  | [] => true
  | item :: items => item.wellFormed && wellFormedItems items

def wellFormedEntries : List (PyKey × PyValue) → Bool
  | [] => true
  | (_, item) :: entries => item.wellFormed && wellFormedEntries entries

end

mutual

/-- Strings are the only keys, and there is no tuple and no NaN. -/
def native : PyValue → Bool
  | .float number => decide (number ≠ .nan)
  | .list items => nativeItems items
  | .tuple _ => false
  | .dict entries => (entries.all fun entry => entry.1.isStr) && nativeEntries entries
  | _ => true

def nativeItems : List PyValue → Bool
  | [] => true
  | item :: items => item.native && nativeItems items

def nativeEntries : List (PyKey × PyValue) → Bool
  | [] => true
  | (_, item) :: entries => item.native && nativeEntries entries

end

theorem induct {P : PyValue → Prop} (hnone : P .none) (hbool : ∀ flag, P (.bool flag))
    (hint : ∀ number, P (.int number)) (hfloat : ∀ number, P (.float number))
    (hstr : ∀ text, P (.str text)) (hlist : ∀ items, (∀ item ∈ items, P item) → P (.list items))
    (htuple : ∀ items, (∀ item ∈ items, P item) → P (.tuple items))
    (hdict : ∀ entries, (∀ entry ∈ entries, P entry.2) → P (.dict entries)) (v : PyValue) : P v :=
  @PyValue.rec P (fun items => ∀ item ∈ items, P item) (fun entries => ∀ entry ∈ entries, P entry.2)
    (fun entry => P entry.2) hnone hbool hint hfloat hstr hlist htuple hdict
    (fun _ hmem => absurd hmem List.not_mem_nil)
    (fun _ _ hhead htail => List.forall_mem_cons.mpr ⟨hhead, htail⟩)
    (fun _ hmem => absurd hmem List.not_mem_nil)
    (fun _ _ hhead htail => List.forall_mem_cons.mpr ⟨hhead, htail⟩) (fun _ _ h => h) v

end PyValue

/-- A value that Python can hold. -/
abbrev PyObject := { v : PyValue // v.wellFormed value = true }

end

end Flowness.Library
