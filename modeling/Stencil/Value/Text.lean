import Stencil.Json.Printer
import Stencil.Value.Basic

/-!
# Template data as text

`Value.toJson` gives the structured form of a value, `Value.render` the text that a template
shows for it. Both list the fields of a map in ascending order of their names, so neither
depends on the order in which the map was filled.
-/

namespace Stencil.Value

/-- The whole number that a number is written as: one of at most fifteen digits. -/
def shortWhole? (x : Binary64) : Option Int :=
  x.toInt?.filter (·.natAbs < tenTo 15)

/-! ## Structured form -/

def numberJson (x : Binary64) : Json :=
  match shortWhole? x with
  | some n => .int n
  | none => if x.isFinite then .float x else .null

mutual

/-- Numbers that are not finite become null. -/
def toJson : Value → Json
  | null => .null
  | bool value => .bool value
  | number value => numberJson value
  | string value => .string value
  | list items => .array (toJsonItems items)
  | map fields => .object (Text.ordered (toJsonFields fields))

def toJsonItems : List Value → List Json
  | [] => []
  | item :: rest => item.toJson :: toJsonItems rest

def toJsonFields : List (String × Value) → List (String × Json)
  | [] => []
  | (name, value) :: rest => (name, value.toJson) :: toJsonFields rest

end

/-! ## Shown form -/

/-- Numbers are shown without an exponent, and whole ones without a point. -/
def numberText (x : Binary64) : String :=
  let sign := if x.negative then "-" else ""
  if x.isNaN then "NaN"
  else if x.isInfinite then sign ++ "Infinity"
  else
    match shortWhole? x with
    | some n => toString n
    | none => sign ++ (x.shortest .up).positional

mutual

/-- Lists show their elements with commas between them, maps their compact structured form, and
null nothing. -/
def render : Value → String
  | null => ""
  | bool value => if value then "true" else "false"
  | number value => numberText value
  | string value => value
  | list items => ",".intercalate (renderItems items)
  | map fields => (map fields).toJson.compact

def renderItems : List Value → List String
  | [] => []
  | item :: rest => item.render :: renderItems rest

end

end Stencil.Value
