import Stencil.Json.Numeral
import Stencil.Toml.Token

/-!
# Reading settings

`Toml.read?` accepts the settings files that hold nothing but lines of the form `key = value`,
where a value is a truth value, a whole number of 64 bits or a string and no key is given twice.
Anything else that TOML knows, such as tables, lists and dates, is refused with what is not TOML.
-/

namespace Stencil.Toml

/-! ## Values -/

/-- Digits in a base, in which single underscores may stand between digits. -/
def digits? (radix : Nat) (cs : List Char) : Option Nat :=
  let step (state : Option Nat × Bool) (c : Char) : Option (Option Nat × Bool) :=
    if c = '_' then if state.1.isSome && !state.2 then some (state.1, true) else none
    else (Json.Token.hexDigit? c).bind fun digit =>
      if digit < radix then some (some (radix * state.1.getD 0 + digit), false) else none
  match cs.foldlM step (none, false) with
  | some (some n, false) => some n
  | _ => none

/-- A number in base ten of more than one digit does not start with zero. -/
def decimal? (cs : List Char) : Option Nat :=
  if cs.head? = some '0' ∧ cs.length ≠ 1 then none else digits? 10 cs

def int? : List Char → Option Int
  | '0' :: 'x' :: cs => (digits? 16 cs).map Int.ofNat
  | '0' :: 'o' :: cs => (digits? 8 cs).map Int.ofNat
  | '0' :: 'b' :: cs => (digits? 2 cs).map Int.ofNat
  | '+' :: cs => (decimal? cs).map Int.ofNat
  | '-' :: cs => (decimal? cs).map fun n => -(n : Int)
  | cs => (decimal? cs).map Int.ofNat

/-- Whether a number fits into 64 bits, one of them for the sign. -/
def fitsWord (n : Int) : Bool := -(signBit : Int) ≤ n && n < signBit

def value? : Token → Option Json
  | .string text => some (.string text)
  | .longString text => some (.string text)
  | .word "true" => some (.bool true)
  | .word "false" => some (.bool false)
  | .word text => ((int? text.toList).filter fitsWord).map .int
  | _ => none

/-! ## Lines -/

def key? : Token → Option String
  | .word text => some text
  | .string text => some text
  | _ => none

/-- The settings in a list of tokens, after those already read. -/
def settings? (read : List (String × Json)) : List Token → Option (List (String × Json))
  | [] => some read.reverse
  | .lineEnd :: rest => settings? read rest
  | key :: .equals :: value :: rest => do
    let name ← key? key
    let data ← value? value
    if (read.lookup name).isSome then none
    else match rest with
      | [] => some ((name, data) :: read).reverse
      | .lineEnd :: rest => settings? ((name, data) :: read) rest
      | _ => none
  | _ => none

/-- The settings of a text as the fields of an object. -/
def read? (text : String) : Option Json :=
  (Token.ofText? text >>= settings? []).map .object

end Stencil.Toml
