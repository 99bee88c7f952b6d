/-!
# Binary numbers of 64 bits

The numbers of template data. Each is a sign and a magnitude, the 63 bits below the sign, which
order numbers by size: magnitudes below `Binary64.infinity` are finite, that one is infinite,
and those above stand for no number.

Every finite magnitude is a whole number of units of `2⁻¹⁰⁷⁴`, so the definitions here compute
with natural numbers only. `Binary64.ofRatio` rounds a quotient to the nearest finite number,
halfway cases to the one with an even significand, and what is too large to an infinity.
-/

namespace Stencil

/-! ## Powers of two and ten

The two bases that numbers are scaled by. -/

def twoTo (n : Nat) : Nat := Nat.pow 2 n

def tenTo (n : Nat) : Nat := Nat.pow 10 n

theorem twoTo_pos (n : Nat) : 0 < twoTo n := Nat.pow_pos (by decide)

theorem tenTo_pos (n : Nat) : 0 < tenTo n := Nat.pow_pos (by decide)

/-! ## Numbers -/

/-- The bit above the magnitude, which is set in negative numbers. -/
def signBit : Nat := 0x8000000000000000

structure Binary64 where
  negative : Bool
  magnitude : Nat
  magnitude_lt : magnitude < signBit
  deriving Repr, DecidableEq

namespace Binary64

/-- How many magnitudes share one exponent. -/
def binade : Nat := 0x10000000000000

/-- The magnitude of the infinities. -/
def infinity : Nat := 0x7FF0000000000000

/-- How many units make one. -/
def unitsPerOne : Nat := twoTo 1074

/-! ## Bits -/

/-- The number as one word, the sign above the magnitude. -/
def toBits (x : Binary64) : Nat :=
  if x.negative then x.magnitude + signBit else x.magnitude

def ofBits (bits : Nat) : Binary64 where
  negative := signBit ≤ bits % (2 * signBit)
  magnitude := bits % signBit
  magnitude_lt := Nat.mod_lt _ (by decide)

/-! ## Classes and size -/

def isNaN (x : Binary64) : Bool := infinity < x.magnitude

def isInfinite (x : Binary64) : Bool := x.magnitude = infinity

def isFinite (x : Binary64) : Bool := x.magnitude < infinity

/-- Positive and negative zero. -/
def isZero (x : Binary64) : Bool := x.magnitude = 0

/-- The power of two, in units, that the significand counts. -/
def scale (x : Binary64) : Nat := x.magnitude / binade - 1

def significand (x : Binary64) : Nat :=
  if x.magnitude < binade then x.magnitude else x.magnitude % binade + binade

/-- The size of a finite number in units. -/
def units (x : Binary64) : Nat := x.significand * twoTo x.scale

/-! ## Rounding -/

/-- The nearest whole number to `num / den`; of two the even one. -/
def divNearest (num den : Nat) : Nat :=
  let quotient := num / den
  let twice := 2 * (num % den)
  if twice < den then quotient
  else if den < twice then quotient + 1
  else quotient + quotient % 2

/-- The magnitude nearest to `num / den`. -/
def nearestMagnitude (num den : Nat) : Nat :=
  let whole := num * unitsPerOne / den
  let scale := if whole < 2 * binade then 0 else whole.log2 - 52
  min (scale * binade + divNearest (num * unitsPerOne) (den * twoTo scale)) infinity

theorem nearestMagnitude_lt (num den : Nat) : nearestMagnitude num den < signBit :=
  Nat.lt_of_le_of_lt (Nat.min_le_right ..) (by decide)

/-- The number nearest to `num / den`, for a positive `den`. -/
def ofRatio (negative : Bool) (num den : Nat) : Binary64 :=
  ⟨negative, nearestMagnitude num den, nearestMagnitude_lt num den⟩

def ofNat (n : Nat) : Binary64 := ofRatio false n 1

def ofInt (n : Int) : Binary64 := ofRatio (n < 0) n.natAbs 1

/-! ## Whole numbers -/

/-- The whole number that a finite number is, if it is one; both zeros are `0`. -/
def toInt? (x : Binary64) : Option Int :=
  if x.isFinite && x.units % unitsPerOne = 0 then
    let size := x.units / unitsPerOne
    some (if x.negative then -(size : Int) else size)
  else none

end Binary64

end Stencil
