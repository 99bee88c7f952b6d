import Stencil.Number.Binary64

/-!
# The fewest digits that read back

A finite number stands for all reals that round to it, an interval around it that holds its ends
when the significand is even. `Binary64.shortest` gives the decimal with the fewest digits in
that interval, of these the one nearest to the number; only where two are equally near does the
caller's `TieRule` decide.

A grid of decimals that has a point in the interval has one beside the number, so for each digit
count it is enough to try the two neighbours of the number. All lengths are counted in quarters
of the unit of `Binary64`.
-/

namespace Stencil

/-- `digits * 10 ^ exponent`. -/
structure Decimal where
  digits : Nat
  exponent : Int
  deriving Repr, DecidableEq

/-- Without zeros at the end of the digits. -/
def Decimal.normalize (d : Decimal) : Decimal :=
  if h : d.digits ≠ 0 ∧ d.digits % 10 = 0 then normalize ⟨d.digits / 10, d.exponent + 1⟩ else d
termination_by d.digits
decreasing_by omega

/-- Which of two equally near decimals is chosen. -/
inductive TieRule where
  | toEven
  | up
  deriving Repr, DecidableEq

namespace Binary64

/-- The reals that round to a number. -/
structure Interval where
  low : Nat
  center : Nat
  high : Nat
  /-- Whether the two ends belong to it. -/
  closed : Bool
  deriving Repr, DecidableEq

/-- The interval of a finite number other than zero. Below a power of two the numbers lie twice
as close. -/
def interval (x : Binary64) : Interval :=
  let quarter := twoTo x.scale
  let below := if x.significand = binade && 0 < x.scale then quarter else 2 * quarter
  let center := 4 * x.units
  ⟨center - below, center, center + 2 * quarter, x.significand % 2 = 0⟩

/-- How many quarters make one. -/
def quartersPerOne : Nat := 4 * unitsPerOne

/-- Decimals with a common exponent. `step` and `den` are such that the decimal with the digits
`d` lies at `d * step / den` quarters. -/
structure Grid where
  exponent : Int
  step : Nat
  den : Nat

def Grid.ofExponent (e : Int) : Grid :=
  if 0 ≤ e then ⟨e, tenTo e.toNat * quartersPerOne, 1⟩
  else ⟨e, quartersPerOne, tenTo (-e).toNat⟩

def Interval.contains (i : Interval) (g : Grid) (digits : Nat) : Bool :=
  let place := digits * g.step
  if i.closed then i.low * g.den ≤ place && place ≤ i.high * g.den
  else i.low * g.den < place && place < i.high * g.den

/-- The point of the grid that is in the interval and nearest to its centre. -/
def Interval.nearest? (i : Interval) (tie : TieRule) (g : Grid) : Option Nat :=
  let center := i.center * g.den
  let digits := center / g.step
  let below := center - digits * g.step
  let above := (digits + 1) * g.step - center
  match i.contains g digits, i.contains g (digits + 1) with
  | false, false => none
  | true, false => some digits
  | false, true => some (digits + 1)
  | true, true =>
    if below < above then some digits
    else if above < below then some (digits + 1)
    else match tie with
      | .toEven => some (digits + digits % 2)
      | .up => some (digits + 1)

def digitCount (n : Nat) : Nat := (Nat.toDigits 10 n).length

/-- The exponent of the greatest power of ten that is at most the centre. -/
def Interval.decimalExponent (i : Interval) : Int :=
  let e : Int := (digitCount i.center : Int) - digitCount quartersPerOne
  if (Grid.ofExponent e).step ≤ i.center * (Grid.ofExponent e).den then e else e - 1

/-- Seventeen digits are always enough. -/
def maxDigits : Nat := 17

/-- The shortest decimal for a finite number, without its sign. -/
def shortest (tie : TieRule) (x : Binary64) : Decimal :=
  if x.isZero then ⟨0, 0⟩
  else
    let i := x.interval
    let top := i.decimalExponent
    let tries := (List.range maxDigits).findSome? fun (extra : Nat) =>
      let g := Grid.ofExponent (top - extra)
      (i.nearest? tie g).map fun digits => Decimal.mk digits g.exponent
    (tries.getD ⟨0, 0⟩).normalize

end Binary64

end Stencil
