import Stencil.Number.Shortest

/-!
# Decimals as text

Two layouts write the same digits. `Decimal.positional` pads with zeros and never uses an
exponent; `Decimal.scientific` puts a point after the first digit and always uses one.
-/

namespace Stencil.Decimal

def zeros (n : Nat) : List Char := List.replicate n '0'

def digitChars (d : Decimal) : List Char := Nat.toDigits 10 d.digits

/-- The digits with zeros or a point where the exponent says so; a whole number has no point. -/
def positional (d : Decimal) : String :=
  let digits := d.digitChars
  if 0 ≤ d.exponent then String.ofList (digits ++ zeros d.exponent.toNat)
  else
    let places := (-d.exponent).toNat
    if places < digits.length then
      let whole := digits.length - places
      String.ofList (digits.take whole ++ '.' :: digits.drop whole)
    else String.ofList ('0' :: '.' :: zeros (places - digits.length) ++ digits)

/-- The exponent of the first digit. -/
def leadingExponent (d : Decimal) : Int :=
  d.exponent + d.digitChars.length - 1

/-- The exponent carries its sign and no zeros in front. -/
def scientific (d : Decimal) : String :=
  let mantissa :=
    match d.digitChars with
    | c :: c' :: cs => c :: '.' :: c' :: cs
    | cs => cs
  let e := d.leadingExponent
  let sign := if e < 0 then '-' else '+'
  String.ofList (mantissa ++ 'e' :: sign :: Nat.toDigits 10 e.natAbs)

end Stencil.Decimal
