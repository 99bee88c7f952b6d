import Stencil.Number.Binary64
import Mathlib

/-!
# Numbers that rounding keeps

A magnitude counts the binades below it and the significand within its own
(`Binary64.scale_mul_binade_add_significand`), and a significand has all its bits unless the number
is among the smallest. So the number can be read off its size: what is exactly the size of a finite
number is rounded to that number (`Binary64.nearestMagnitude_of_units`). A whole number that a
number is comes back as that number, apart from the sign of zero (`Binary64.ofInt_of_toInt?`).
-/

namespace Stencil

theorem twoTo_eq (n : Nat) : twoTo n = 2 ^ n := rfl

namespace Binary64

/-! ## Scale and significand -/

variable (x : Binary64)

theorem scale_mul_binade_add_significand :
    x.scale * binade + x.significand = x.magnitude := by
  unfold scale significand
  have hparts := Nat.div_add_mod x.magnitude binade
  split
  · rename_i hlt
    rw [Nat.div_eq_of_lt hlt, Nat.zero_sub, Nat.zero_mul, Nat.zero_add]
  · rename_i hle
    have hpos : 0 < x.magnitude / binade := Nat.div_pos (Nat.le_of_not_lt hle) (by decide)
    obtain ⟨scale, hscale⟩ := Nat.exists_eq_succ_of_ne_zero hpos.ne'
    rw [hscale, Nat.succ_sub_one]
    rw [hscale, Nat.mul_comm, Nat.succ_mul] at hparts
    omega

theorem significand_lt : x.significand < 2 * binade := by
  unfold significand
  have hmod := Nat.mod_lt x.magnitude (show binade > 0 by decide)
  split <;> omega

variable {x}

theorem binade_le_significand (h : x.scale ≠ 0) : binade ≤ x.significand := by
  unfold significand
  split
  · rename_i hlt
    exact absurd (by rw [scale, Nat.div_eq_of_lt hlt]) h
  · exact Nat.le_add_left ..

/-- The size tells the numbers with the smallest scale from the others. -/
theorem units_lt_iff : x.units < 2 * binade ↔ x.scale = 0 := by
  unfold units
  constructor
  · intro hlt
    by_contra hscale
    have htwo : 2 ≤ twoTo x.scale := Nat.le_self_pow hscale 2
    have hmul := Nat.mul_le_mul (binade_le_significand hscale) htwo
    omega
  · intro hscale
    rw [hscale, twoTo_eq, pow_zero, mul_one]
    exact x.significand_lt

theorem log2_units (h : x.scale ≠ 0) : x.units.log2 = 52 + x.scale := by
  have hlow : 2 ^ 52 ≤ x.significand := binade_le_significand h
  have hhigh : x.significand < 2 ^ 53 := x.significand_lt
  have hpos : 0 < 2 ^ x.scale := Nat.two_pow_pos _
  rw [units, twoTo_eq, Nat.log2_eq_iff (Nat.mul_pos (by omega) hpos).ne']
  constructor
  · rw [pow_add]
    exact Nat.mul_le_mul_right _ hlow
  · rw [Nat.add_right_comm, pow_add]
    exact Nat.mul_lt_mul_of_pos_right hhigh hpos

/-! ## Rounding -/

theorem divNearest_mul (n : Nat) {den : Nat} (hden : 0 < den) : divNearest (n * den) den = n := by
  unfold divNearest
  rw [Nat.mul_mod_left, Nat.mul_div_cancel n hden, mul_zero]
  exact if_pos hden

/-- What is the size of a finite number is rounded to it. -/
theorem nearestMagnitude_of_units {num den : Nat} (hden : 0 < den) (hfinite : x.isFinite = true)
    (h : num * unitsPerOne = x.units * den) : nearestMagnitude num den = x.magnitude := by
  have hwhole : num * unitsPerOne / den = x.units := by rw [h, Nat.mul_div_cancel _ hden]
  have hscale : (if x.units < 2 * binade then 0 else x.units.log2 - 52) = x.scale := by
    split
    · rename_i hlt
      exact (units_lt_iff.mp hlt).symm
    · rename_i hle
      rw [log2_units (mt units_lt_iff.mpr hle), Nat.add_sub_cancel_left]
  have hnearest : divNearest (num * unitsPerOne) (den * twoTo x.scale) = x.significand := by
    rw [h, units, Nat.mul_assoc, Nat.mul_comm (twoTo _)]
    exact divNearest_mul _ (Nat.mul_pos hden (twoTo_pos _))
  unfold nearestMagnitude
  rw [hwhole]
  dsimp only
  rw [hscale, hnearest, scale_mul_binade_add_significand]
  exact Nat.min_eq_left (Nat.le_of_lt (of_decide_eq_true hfinite))

theorem divNearest_le (num den : Nat) : divNearest num den ≤ num / den + 1 := by
  unfold divNearest
  dsimp only
  split
  · exact Nat.le_succ _
  · split
    · exact Nat.le_refl _
    · exact Nat.add_le_add_left (Nat.le_of_lt_succ (Nat.mod_lt _ (by decide))) _

/-- The magnitude of a quotient is bounded by the bits of its size in units. -/
theorem nearestMagnitude_le {num den exponent : Nat}
    (h : num * unitsPerOne / den < 2 ^ (exponent + 53)) :
    nearestMagnitude num den ≤ (exponent + 2) * binade := by
  unfold nearestMagnitude
  generalize hwhole : num * unitsPerOne / den = whole at *
  dsimp only
  generalize hscale : (if whole < 2 * binade then 0 else whole.log2 - 52) = scale
  have hbounds : scale ≤ exponent ∧ whole < 2 ^ (scale + 53) := by
    split at hscale
    · rename_i hlt
      exact hscale ▸ ⟨Nat.zero_le _, hlt⟩
    · rename_i hle
      have hlarge : 2 ^ 53 ≤ whole := Nat.le_of_not_lt hle
      have hne : whole ≠ 0 := by omega
      have hlow : 53 ≤ whole.log2 := (Nat.le_log2 hne).mpr hlarge
      have hhigh : whole.log2 < exponent + 53 := (Nat.log2_lt hne).mpr h
      have hself : whole < 2 ^ (whole.log2 + 1) := Nat.lt_log2_self
      subst hscale
      rw [show whole.log2 - 52 + 53 = whole.log2 + 1 by omega]
      exact ⟨by omega, hself⟩
  obtain ⟨hle, hlt⟩ := hbounds
  have hquotient : num * unitsPerOne / (den * twoTo scale) < 2 * binade := by
    rw [← Nat.div_div_eq_div_mul, hwhole, Nat.div_lt_iff_lt_mul (twoTo_pos _)]
    rwa [Nat.add_comm, pow_add] at hlt
  calc min (scale * binade + divNearest (num * unitsPerOne) (den * twoTo scale)) infinity
      ≤ scale * binade + divNearest (num * unitsPerOne) (den * twoTo scale) := Nat.min_le_left ..
    _ ≤ scale * binade + 2 * binade :=
        Nat.add_le_add_left ((divNearest_le ..).trans hquotient) _
    _ = (scale + 2) * binade := (Nat.add_mul ..).symm
    _ ≤ (exponent + 2) * binade := Nat.mul_le_mul_right _ (Nat.add_le_add_right hle 2)

/-! ## Whole numbers -/

/-- Whole numbers of 64 bits are not too large. -/
theorem isFinite_ofInt {n : Int} (h : n.natAbs < 2 ^ 64) : (ofInt n).isFinite = true := by
  have hone : 0 < unitsPerOne := twoTo_pos _
  have hpow : (2 : Nat) ^ (1085 + 53) = 2 ^ 64 * unitsPerOne := by
    rw [show 1085 + 53 = 64 + 1074 from rfl, pow_add, unitsPerOne, twoTo_eq]
  have hunits : n.natAbs * unitsPerOne / 1 < 2 ^ (1085 + 53) := by
    rw [hpow, Nat.div_one]
    exact Nat.mul_lt_mul_of_pos_right h hone
  exact decide_eq_true ((nearestMagnitude_le hunits).trans_lt (by decide))

/-- The number with positive zero for both zeros. -/
def mergeZeros (x : Binary64) : Binary64 := if x.isZero then { x with negative := false } else x

theorem units_eq_zero_iff : x.units = 0 ↔ x.magnitude = 0 := by
  have hparts := x.scale_mul_binade_add_significand
  rw [units, Nat.mul_eq_zero, or_iff_left (twoTo_pos _).ne']
  constructor
  · intro hsignificand
    have hscale : x.scale = 0 := by
      by_contra hscale
      have hle := binade_le_significand hscale
      rw [hsignificand] at hle
      exact absurd hle (by decide)
    rw [← hparts, hscale, hsignificand, Nat.zero_mul]
  · intro hmagnitude
    omega

/-- A whole number that a number is, has its size and its sign. -/
theorem of_toInt?_eq_some {n : Int} (h : x.toInt? = some n) :
    x.isFinite = true ∧ n.natAbs * unitsPerOne = x.units ∧
      (n < 0 ↔ x.negative = true ∧ x.magnitude ≠ 0) := by
  have hone : 0 < unitsPerOne := twoTo_pos _
  unfold toInt? at h
  generalize unitsPerOne = one at *
  split at h
  · rename_i hcond
    rw [Bool.and_eq_true, decide_eq_true_iff] at hcond
    obtain ⟨hfinite, hdvd⟩ := hcond
    have hsize : x.units / one * one = x.units :=
      Nat.div_mul_cancel (Nat.dvd_of_mod_eq_zero hdvd)
    have hzero : x.units / one = 0 ↔ x.magnitude = 0 := by
      rw [← units_eq_zero_iff, ← hsize, Nat.mul_div_cancel _ hone, Nat.mul_eq_zero,
        or_iff_left hone.ne']
    dsimp only at h
    obtain rfl := Option.some.inj h
    generalize x.units / one = size at *
    refine ⟨hfinite, ?_, ?_⟩
    · split
      · rwa [Int.natAbs_neg, Int.natAbs_natCast]
      · rwa [Int.natAbs_natCast]
    · rw [ne_eq, ← not_congr hzero]
      split
      · rename_i hnegative
        rw [and_iff_right hnegative]
        omega
      · rename_i hnegative
        exact iff_of_false (by omega) fun h => hnegative h.1
  · cases h

/-- A whole number that a number is, is rounded to it. Only the sign of zero is lost. -/
theorem ofInt_of_toInt? {n : Int} (h : x.toInt? = some n) : ofInt n = x.mergeZeros := by
  obtain ⟨hfinite, hunits, hnegative⟩ := of_toInt?_eq_some h
  have hmagnitude : nearestMagnitude n.natAbs 1 = x.magnitude :=
    nearestMagnitude_of_units Nat.one_pos hfinite (hunits.trans (Nat.mul_one _).symm)
  unfold mergeZeros
  split
  · rename_i hzero
    have hsign : decide (n < 0) = false :=
      decide_eq_false fun hn => (hnegative.mp hn).2 (of_decide_eq_true hzero)
    exact (mk.injEq ..).mpr ⟨hsign, hmagnitude⟩
  · rename_i hzero
    have hsign : decide (n < 0) = x.negative := by
      rw [Bool.eq_iff_iff, decide_eq_true_iff, hnegative]
      exact and_iff_left fun hmagnitude => hzero (decide_eq_true hmagnitude)
    exact (mk.injEq _ _ _ x.negative x.magnitude x.magnitude_lt).mpr ⟨hsign, hmagnitude⟩

theorem toInt?_of_isZero (h : x.isZero = true) : x.toInt? = some 0 := by
  have hmagnitude : x.magnitude = 0 := of_decide_eq_true h
  have hfinite : x.isFinite = true := by
    rw [isFinite, hmagnitude]
    rfl
  unfold toInt?
  rw [hfinite, units_eq_zero_iff.mpr hmagnitude, Nat.zero_mod, Nat.zero_div]
  simp

end Binary64

end Stencil
