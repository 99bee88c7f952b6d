import Stencil.Json.Basic
import Stencil.Number.Layout

/-!
# Structured data as text

`Json.compact` writes data without any blanks, `Json.pretty` over several lines. Both write the
fields of an object in the order in which they stand, whole numbers as plain numerals, and other
numbers with the fewest digits that read back.
-/

namespace Stencil.Json

/-! ## Strings -/

/-- A control character without an escape of its own, in lower-case hexadecimal. -/
def controlEscape (c : Char) : List Char :=
  ['\\', 'u', '0', '0', Nat.digitChar (c.toNat / 16), Nat.digitChar (c.toNat % 16)]

/-- Only the two delimiters and control characters are escaped. -/
def escape (c : Char) : List Char :=
  match c with
  | '"' => ['\\', '"']
  | '\\' => ['\\', '\\']
  | '\x08' => ['\\', 'b']
  | '\x0c' => ['\\', 'f']
  | '\n' => ['\\', 'n']
  | '\r' => ['\\', 'r']
  | '\t' => ['\\', 't']
  | c => if c.toNat < 0x20 then controlEscape c else [c]

def quote (s : String) : String :=
  String.ofList ('"' :: s.toList.flatMap escape ++ ['"'])

/-! ## Numbers -/

/-- A number is written positionally when its first digit is worth at least `10⁻⁵` and less than
`10¹⁶`, and then shows at least one decimal place. -/
def decimalText (d : Decimal) : String :=
  let e := d.leadingExponent
  if -5 ≤ e ∧ e < 16 then
    if 0 ≤ d.exponent then d.positional ++ ".0" else d.positional
  else d.scientific

/-- What is not finite has no numeral. -/
def floatText (x : Binary64) : String :=
  if x.isFinite then (if x.negative then "-" else "") ++ decimalText (x.shortest .toEven)
  else "null"

/-! ## Compact form -/

mutual

def compact : Json → String
  | null => "null"
  | bool value => if value then "true" else "false"
  | int value => toString value
  | float value => floatText value
  | string value => quote value
  | array items => "[" ++ ",".intercalate (compactItems items) ++ "]"
  | object fields => "\x7b" ++ ",".intercalate (compactFields fields) ++ "\x7d"

def compactItems : List Json → List String
  | [] => []
  | item :: rest => item.compact :: compactItems rest

def compactFields : List (String × Json) → List String
  | [] => []
  | (name, value) :: rest => (quote name ++ ":" ++ value.compact) :: compactFields rest

end

/-! ## Form over several lines -/

/-- A new line, two blanks further in for each level. -/
def newLine (level : Nat) : String := String.ofList ('\n' :: List.replicate (2 * level) ' ')

/-- The parts of a container, each on a line of its own; no parts take no lines. -/
def spread (opening closing : String) (level : Nat) : List String → String
  | [] => opening ++ closing
  | parts =>
    opening ++ newLine (level + 1) ++ ("," ++ newLine (level + 1)).intercalate parts ++
      newLine level ++ closing

mutual

def prettyAt (level : Nat) : Json → String
  | array items => spread "[" "]" level (prettyItems (level + 1) items)
  | object fields => spread "\x7b" "\x7d" level (prettyFields (level + 1) fields)
  | scalar => scalar.compact

def prettyItems (level : Nat) : List Json → List String
  | [] => []
  | item :: rest => item.prettyAt level :: prettyItems level rest

def prettyFields (level : Nat) : List (String × Json) → List String
  | [] => []
  | (name, value) :: rest =>
    (quote name ++ ": " ++ value.prettyAt level) :: prettyFields level rest

end

def pretty (data : Json) : String := data.prettyAt 0

end Stencil.Json
