import Stencil.Number.Binary64

/-!
# Decimal numerals read as binary numbers

A numeral is a whole number times a power of ten. `Binary64.ofDecimal` gives the number nearest
to it. `Binary64.ofScaled?` is the reading that data files get: it rounds the whole number
first, then its product with or quotient by the rounded power of ten, so a numeral of many
digits may come out one number off; a product that is too large has no reading.
-/

namespace Stencil.Binary64

/-- The number nearest to `digits * 10 ^ exponent`. -/
def ofDecimal (negative : Bool) (digits : Nat) (exponent : Int) : Binary64 :=
  if 0 ≤ exponent then ofRatio negative (digits * tenTo exponent.toNat) 1
  else ofRatio negative digits (tenTo (-exponent).toNat)

/-- The rounded product of two finite numbers. -/
def mul (x y : Binary64) : Binary64 :=
  ofRatio (x.negative != y.negative) (x.units * y.units) (unitsPerOne * unitsPerOne)

/-- The rounded quotient of two finite numbers, the second of them not zero. -/
def div (x y : Binary64) : Binary64 :=
  ofRatio (x.negative != y.negative) x.units y.units

/-- The greatest power of ten that is finite is `10 ^ largestTen`. -/
def largestTen : Nat := 308

def powerOfTen (n : Nat) : Binary64 := ofNat (tenTo n)

/-- Divides by ten `n` times over, in strides of at most `10 ^ largestTen`. -/
def divTens (x : Binary64) (n : Nat) : Binary64 :=
  if x.isZero then x
  else if largestTen < n then divTens (x.div (powerOfTen largestTen)) (n - largestTen)
  else x.div (powerOfTen n)
termination_by n
decreasing_by
  simp only [largestTen] at *
  omega

def ofScaled? (negative : Bool) (digits : Nat) (exponent : Int) : Option Binary64 :=
  let whole := ofRatio negative digits 1
  if exponent < 0 then some (whole.divTens (-exponent).toNat)
  else if whole.isZero then some whole
  else if largestTen < exponent.toNat then none
  else
    let product := whole.mul (powerOfTen exponent.toNat)
    if product.isFinite then some product else none

end Stencil.Binary64
