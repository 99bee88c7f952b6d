import Stencil.Bindings
import Stencil.Json.Basic
import Stencil.Number.Binary64

/-!
# Template data

The values that a template can show, test and walk through. A map binds names to values in no
particular order. `Value.ofJson` takes in structured data; all its numbers become binary ones.
-/

namespace Stencil

inductive Value where
  | null
  | bool (value : Bool)
  | number (value : Binary64)
  | string (value : String)
  | list (items : List Value)
  | map (fields : List (String × Value))
  deriving Repr, Inhabited

namespace Value

def isNull : Value → Bool
  | null => true
  | _ => false

/-- False, null, zero, what is no number, and all that is empty are not truthy. -/
def isTruthy : Value → Bool
  | null => false
  | bool value => value
  | number value => !value.isZero && !value.isNaN
  | string value => !value.isEmpty
  | list items => !items.isEmpty
  | map fields => !fields.isEmpty

/-- The field of a map; other values have none. -/
def field? : Value → String → Option Value
  | map fields, name => Bindings.get? fields name
  | _, _ => none

/-- The value reached through nested maps. -/
def getPath? (v : Value) : List String → Option Value
  | [] => some v
  | name :: rest => (v.field? name).bind (·.getPath? rest)

/-! ## From structured data -/

mutual

/-- Of several fields with one name the last is kept. -/
def ofJson : Json → Value
  | .null => null
  | .bool value => bool value
  | .int value => number (.ofInt value)
  | .float value => number value
  | .string value => string value
  | .array items => list (ofJsonItems items)
  | .object fields => map (Bindings.ofEntries (ofJsonFields fields))

def ofJsonItems : List Json → List Value
  | [] => []
  | item :: rest => ofJson item :: ofJsonItems rest

def ofJsonFields : List (String × Json) → List (String × Value)
  | [] => []
  | (name, value) :: rest => (name, ofJson value) :: ofJsonFields rest

end

end Value

end Stencil
