import Flowness.Schemas.EventRecord

/-!
How the readers take a payload apart: `dict.get` with a default, the `isinstance` guards and the
truth value of a JSON value.
-/

namespace Flowness.Library.Json

def isZeroLiteral (literal : Text) : Bool :=
  (literal.takeWhile fun c => c ≠ 'e' && c ≠ 'E').all fun c => !c.isDigit || c == '0'

/-- `bool(value)`. -/
def truthy : Json → Bool
  | .null => false
  | .bool value => value
  | .int value => value ≠ 0
  | .float literal => !isZeroLiteral literal.toList
  | .str text => text ≠ ""
  | .arr items => items ≠ []
  | .obj entries => entries ≠ []

/-- `value if isinstance(value, dict) else {}`. -/
def asDict : Json → Dict String Json
  | .obj entries => entries
  | _ => []

/-- `value if isinstance(value, list) else []`. -/
def asItems : Json → List Json
  | .arr items => items
  | _ => []

/-- `d.get(key)` of a dictionary, with Python's `None` for an absent key. -/
def lookup (entries : Dict String Json) (key : String) : Json := (Dict.get entries key).getD .null

/-- `_as_list`: the dictionaries of a list. -/
def asDicts (value : Json) : List (Dict String Json) :=
  value.asItems.filterMap fun
    | .obj entries => some entries
    | _ => none

def nonBlank (entries : Dict String Json) (key : String) : Option String :=
  (lookup entries key).text?.filter (· ≠ "")

theorem lookup_of_nonBlank {entries : Dict String Json} (h : nonBlank entries key = some text) :
    lookup entries key = .str text := by
  have htext := (Option.filter_eq_some_iff.mp h).1
  cases hvalue : lookup entries key with
  | str value =>
    rw [hvalue] at htext
    cases htext
    rfl
  | _ =>
    rw [hvalue] at htext
    cases htext

@[simp] theorem properItems_map_str (texts : List String) :
    properItems (texts.map Json.str) = true :=
  properItems_map (fun _ => rfl) texts

end Flowness.Library.Json

namespace Flowness.Schemas.Payload

open Library

/-- `payload.get(key, default)`. -/
def getD (payload : Payload) (key : String) (default : Json) : Json :=
  (payload.get key).getD default

def entries (payload : Payload) : Dict String Json := payload.val

/-- `after_state` when it is an object, else `{}`. -/
def afterState (payload : Payload) : Dict String Json := (payload.getD "after_state" .null).asDict

theorem proper_get {payload : Payload} (h : payload.get key = some value) :
    value.proper = true := by
  have hproper := payload.property
  rw [Json.proper, Bool.and_eq_true] at hproper
  exact Json.properEntries_iff.mp hproper.2 _ (Dict.mem_of_get h)

theorem proper_getD (payload : Payload) (key : String) {default : Json}
    (h : default.proper = true) : (payload.getD key default).proper = true := by
  unfold getD
  cases hget : payload.get key with
  | none => exact h
  | some value => exact proper_get hget

end Flowness.Schemas.Payload

/-! Stub events: a `NodeTouched` that carries another event's kind and payload. -/

namespace Flowness.Schemas

open Library

/-- `_eff_kind_payload`: the kind and the payload a reader takes an event for. -/
def effKindPayload (eventType : EventType) (payload : Payload) : String × Dict String Json :=
  match eventType, payload.getD "kind" .null, payload.getD "stub_original_payload" .null with
  | .nodeTouched, .str kind, .obj original => (kind, original)
  | _, _, _ => (EventType.value eventType, payload.entries)

/-- `_after_or_top`: a member of `after_state`, or of the payload itself. -/
def afterOrTop (entries : Dict String Json) (key : String) : Json :=
  match Dict.get (Json.lookup entries "after_state").asDict key with
  | some value => value
  | none => Json.lookup entries key

theorem effKindPayload_of_ne {eventType : EventType} (h : eventType ≠ .nodeTouched)
    (payload : Payload) :
    effKindPayload eventType payload = (EventType.value eventType, payload.entries) := by
  unfold effKindPayload
  split
  · exact absurd rfl h
  · rfl

end Flowness.Schemas
