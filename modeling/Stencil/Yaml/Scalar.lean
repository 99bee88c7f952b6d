import Stencil.Json.Token
import Stencil.Number.Decimal

/-!
# What a plain scalar means

A scalar without quotes is null, a truth value, a whole number, another number, or else the text
itself. Whole numbers may be written in base ten or, with `0x`, `0o` or `0b` in front, in three
others. A numeral of several digits that starts with zero is a text, and so is a decimal that
is too large; a whole number that needs more than 64 bits but no more than 128 is refused.
-/

namespace Stencil.Yaml.Scalar

open Json.Numeral (ofDigits digits?)

/-! ## Whole numbers -/

/-- The number with the given digits, of which there must be at least one. -/
def ofRadix? (radix : Nat) (cs : List Char) : Option Nat :=
  if cs.isEmpty then none
  else cs.foldlM (fun n c =>
    (Json.Token.hexDigit? c).bind fun digit =>
      if digit < radix then some (radix * n + digit) else none) 0

/-- A number in a base that its first two characters announce. -/
def announced? : List Char → Option Nat
  | '0' :: 'x' :: cs => ofRadix? 16 cs
  | '0' :: 'o' :: cs => ofRadix? 8 cs
  | '0' :: 'b' :: cs => ofRadix? 2 cs
  | _ => none

/-- Whether a numeral without its sign is a zero with more digits after it. -/
def hasLeadingZero : List Char → Bool
  | '0' :: c :: cs => (c :: cs).all Char.isDigit
  | _ => false

def whole? (cs : List Char) : Option Nat :=
  if hasLeadingZero cs then none else (announced? cs).or (ofRadix? 10 cs)

def int? : List Char → Option Int
  | '-' :: cs => (whole? cs).map fun n => -(n : Int)
  | '+' :: cs => (whole? cs).map Int.ofNat
  | cs => (whole? cs).map Int.ofNat

/-! ## Other numbers -/

/-- Digits, not necessarily any, and what follows them. -/
def takeDigits (cs : List Char) : List Char × List Char :=
  (cs.takeWhile Char.isDigit, cs.dropWhile Char.isDigit)

def exponent? : List Char → Option Int
  | [] => some 0
  | e :: cs =>
    if e = 'e' ∨ e = 'E' then
      let (negative, cs) :=
        match cs with
        | '-' :: cs => (true, cs)
        | '+' :: cs => (false, cs)
        | cs => (false, cs)
      match digits? cs with
      | some (digits, []) =>
        let size : Int := ofDigits digits
        some (if negative then -size else size)
      | _ => none
    else none

/-- Decimal exponents beyond which every number is infinite, or zero. -/
def exponentBound : Int := 400

/-- The number nearest to a decimal, which may have so large an exponent that it need not be
computed. -/
def nearest (negative : Bool) (digits : List Char) (exponent : Int) : Binary64 :=
  let top := exponent + (digits.dropWhile (· = '0')).length
  if ofDigits digits = 0 ∨ top < -exponentBound then .ofRatio negative 0 1
  else if exponentBound < top then ⟨negative, Binary64.infinity, by decide⟩
  else .ofDecimal negative (ofDigits digits) exponent

/-- A decimal, with digits before or after the point or both. -/
def decimal? (negative : Bool) (cs : List Char) : Option Binary64 :=
  let (whole, cs) := takeDigits cs
  let (fraction, cs) :=
    match cs with
    | '.' :: cs => takeDigits cs
    | cs => ([], cs)
  if whole.isEmpty && fraction.isEmpty then none
  else (exponent? cs).map fun e => nearest negative (whole ++ fraction) (e - fraction.length)

/-- A decimal with an optional sign that is not too large. -/
def float? (cs : List Char) : Option Binary64 :=
  let value :=
    match cs with
    | '-' :: cs => if hasLeadingZero cs then none else decimal? true cs
    | '+' :: cs => if hasLeadingZero cs then none else decimal? false cs
    | cs => if hasLeadingZero cs then none else decimal? false cs
  value.filter (·.isFinite)

/-! ## All scalars -/

def isNullText (s : String) : Bool := ["", "~", "null", "Null", "NULL"].contains s

/-- Infinities and what is no number have no structured form and become null. -/
def isNonFiniteText (s : String) : Bool :=
  [".inf", ".Inf", ".INF", "+.inf", "+.Inf", "+.INF", "-.inf", "-.Inf", "-.INF", ".nan", ".NaN",
    ".NAN"].contains s

def bool? (s : String) : Option Bool :=
  if ["true", "True", "TRUE"].contains s then some true
  else if ["false", "False", "FALSE"].contains s then some false
  else none

/-- Whether a number fits into 64 bits, with or without a sign. -/
def fitsWord (n : Int) : Bool := -(twoTo 63 : Int) ≤ n && n < twoTo 64

def fitsTwoWords (n : Int) : Bool := -(twoTo 127 : Int) ≤ n && n < twoTo 128

def floatOrText (s : String) : Json :=
  match float? s.toList with
  | some x => .float x
  | none => .string s

def resolve? (s : String) : Option Json :=
  if isNullText s || isNonFiniteText s then some .null
  else
    match bool? s with
    | some b => some (.bool b)
    | none =>
      match int? s.toList with
      | none => some (floatOrText s)
      | some n =>
        if fitsWord n then some (.int n)
        else if fitsTwoWords n then none
        else some (floatOrText s)

end Stencil.Yaml.Scalar
