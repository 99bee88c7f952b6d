import Stencil.Json.Basic
import Stencil.Number.Decimal

/-!
# Numerals

The numerals of JSON: an optional sign, a whole part without leading zeros, and optionally a
fraction and an exponent. One without the last two is a whole number if it fits into 64 bits;
any other is read in two roundings from as many leading digits as fit into 64 bits.
-/

namespace Stencil.Json

structure Numeral where
  negative : Bool
  whole : List Char
  /-- The digits after the point. -/
  fraction : Option (List Char)
  exponent : Option Int
  deriving Repr, DecidableEq

namespace Numeral

def digit (c : Char) : Nat := c.toNat - '0'.toNat

def ofDigits (cs : List Char) : Nat := cs.foldl (fun n c => 10 * n + digit c) 0

/-- The digits at the start of a text, at least one, and what follows them. -/
def digits? (cs : List Char) : Option (List Char × List Char) :=
  let digits := cs.takeWhile Char.isDigit
  if digits.isEmpty then none else some (digits, cs.dropWhile Char.isDigit)

/-- A whole part of more than one digit does not start with zero. -/
def whole? (cs : List Char) : Option (List Char × List Char) :=
  (digits? cs).filter fun (digits, _) => digits.length = 1 || digits.head? ≠ some '0'

def fraction? : List Char → Option (Option (List Char) × List Char)
  | '.' :: cs => (digits? cs).map fun (digits, rest) => (some digits, rest)
  | cs => some (none, cs)

def exponent? : List Char → Option (Option Int)
  | [] => some none
  | e :: cs =>
    if e = 'e' ∨ e = 'E' then
      let (negative, cs) :=
        match cs with
        | '-' :: cs => (true, cs)
        | '+' :: cs => (false, cs)
        | cs => (false, cs)
      match digits? cs with
      | some (digits, []) =>
        let size : Int := ofDigits digits
        some (some (if negative then -size else size))
      | _ => none
    else none

def read? (cs : List Char) : Option Numeral := do
  let (negative, cs) :=
    match cs with
    | '-' :: cs => (true, cs)
    | cs => (false, cs)
  let (whole, cs) ← whole? cs
  let (fraction, cs) ← fraction? cs
  let exponent ← exponent? cs
  return { negative, whole, fraction, exponent }

/-! ## Value -/

def maxWord : Nat := 0xFFFFFFFFFFFFFFFF

/-- Appends digits to a number as long as it fits into 64 bits, and returns those left over. -/
def absorb (n : Nat) : List Char → Nat × List Char
  | [] => (n, [])
  | c :: cs => if 10 * n + digit c ≤ maxWord then absorb (10 * n + digit c) cs else (n, c :: cs)

/-- The leading digits, and the power of ten they have to be scaled by. -/
def significant (n : Numeral) : Nat × Int :=
  let (digits, skipped) := absorb 0 n.whole
  let fraction := n.fraction.getD []
  let (digits, ignored) := absorb digits fraction
  (digits, (skipped.length : Int) - (fraction.length - ignored.length : Nat) + n.exponent.getD 0)

/-- The whole number that the numeral is written as, if it fits. A negative zero is none. -/
def wholeValue? (n : Numeral) : Option Int :=
  if n.fraction.isSome || n.exponent.isSome then none
  else
    let size := ofDigits n.whole
    if n.negative then if 0 < size ∧ size ≤ signBit then some (-(size : Int)) else none
    else if size ≤ maxWord then some size else none

/-- Too large a numeral has no value. -/
def value? (n : Numeral) : Option Json :=
  match n.wholeValue? with
  | some value => some (.int value)
  | none =>
    let (digits, exponent) := n.significant
    (Binary64.ofScaled? n.negative digits exponent).map .float

end Numeral

end Stencil.Json
