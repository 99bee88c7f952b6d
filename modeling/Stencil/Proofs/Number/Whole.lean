import Stencil.Number.Layout
import Stencil.Number.Shortest
import Stencil.Proofs.Number.Exactness

/-!
# Whole numbers

Every whole number of at most 53 bits is a number, and the next one is too
(`Binary64.units_ofInt`). The numbers there lie no further apart than whole numbers do, so of the
decimals that read back as such a number only one is whole and ends in zero, if any: the number
itself (`Binary64.eq_of_mem_interval`). From fifteen digits on, the decimals that are tried for the
shortest are all whole, and the last of them is the number with all its digits; so whichever is
taken has the right value, and its digits with zeros after them are the plain numeral
(`Binary64.positional_shortest`).
-/

namespace Stencil

/-! ## Plain numerals -/

theorem tenTo_eq (n : Nat) : tenTo n = 10 ^ n := rfl

theorem twoTo_add (m n : Nat) : twoTo (m + n) = twoTo m * twoTo n := pow_add 2 m n

theorem log2_twoTo (n : Nat) : (twoTo n).log2 = n := Nat.log2_two_pow

theorem twoTo_lt_twoTo_iff {m n : Nat} : twoTo m < twoTo n ↔ m < n :=
  Nat.pow_lt_pow_iff_right (by decide)

namespace Decimal

theorem digitChars_mul_tenTo {digits : Nat} (h : 0 < digits) (e : Nat) :
    Nat.toDigits 10 (digits * tenTo e) = Nat.toDigits 10 digits ++ zeros e := by
  induction e with
  | zero => simp [tenTo_eq, zeros]
  | succ e ih =>
      have hpos : 0 < digits * tenTo e := Nat.mul_pos h (tenTo_pos e)
      have hnext : digits * tenTo (e + 1) = 10 * (digits * tenTo e) + 0 := by
        rw [tenTo_eq, tenTo_eq, pow_succ]
        ring
      rw [hnext, ← Nat.toDigits_append_toDigits (by decide) hpos (by decide), ih,
        List.append_assoc]
      refine congrArg (Nat.toDigits 10 digits ++ ·) ?_
      exact List.replicate_succ'.symm

/-- The digits of a whole decimal and the zeros after them are those of the number. -/
theorem positional_eq_toString {d : Decimal} {e n : Nat} (hexponent : d.exponent = e)
    (hvalue : d.digits * tenTo e = n) (hpos : 0 < n) : d.positional = toString n := by
  have hdigits : 0 < d.digits := Nat.pos_of_ne_zero fun hzero => by simp [hzero] at hvalue; omega
  rw [Nat.toString_eq_ofList_toDigits, ← hvalue, digitChars_mul_tenTo hdigits]
  unfold positional
  rw [if_pos (hexponent ▸ Int.natCast_nonneg e), hexponent]
  rfl

theorem normalize_of_whole {d : Decimal} {e : Nat} (hexponent : d.exponent = e) :
    ∃ e' : Nat, d.normalize.exponent = e' ∧
      d.normalize.digits * tenTo e' = d.digits * tenTo e := by
  fun_induction normalize d generalizing e with
  | case1 d h ih =>
      obtain ⟨e', hexponent', hvalue⟩ := ih (e := e + 1) (by simp [hexponent])
      refine ⟨e', hexponent', hvalue.trans ?_⟩
      have hdigits : d.digits / 10 * 10 = d.digits := Nat.div_mul_cancel
        (Nat.dvd_of_mod_eq_zero h.2)
      rw [tenTo_eq, tenTo_eq, pow_succ', ← Nat.mul_assoc, hdigits]
  | case2 d h => exact ⟨e, hexponent, rfl⟩

end Decimal

namespace Binary64

/-! ## Exactness -/

section

variable {negative : Bool} {scale significand : Nat} (hlow : binade ≤ significand)
  (hhigh : significand < 2 * binade) (hlt : scale * binade + significand < signBit)

include hlow hhigh

theorem scale_mk : (mk negative (scale * binade + significand) hlt).scale = scale := by
  have hpos : 0 < binade := by decide
  unfold Binary64.scale
  dsimp only
  rw [Nat.add_comm, Nat.add_mul_div_right _ _ hpos]
  have hone : significand / binade = 1 := Nat.div_eq_of_lt_le (by omega) (by omega)
  omega

theorem units_mk :
    (mk negative (scale * binade + significand) hlt).units = significand * twoTo scale := by
  have hparts :=
    (mk negative (scale * binade + significand) hlt).scale_mul_binade_add_significand
  rw [scale_mk hlow hhigh hlt] at hparts
  rw [units, scale_mk hlow hhigh hlt, Nat.add_left_cancel hparts]

end

theorem exists_units_eq_mul {scale significand : Nat} (hlow : binade ≤ significand)
    (hhigh : significand < 2 * binade) (hscale : scale ≤ 1075) :
    ∃ y : Binary64, y.isFinite = true ∧ y.units = significand * twoTo scale := by
  have hfinite : scale * binade + significand < infinity := by
    unfold binade infinity at *
    omega
  have hlt : scale * binade + significand < signBit := hfinite.trans (by decide)
  exact ⟨mk false _ hlt, decide_eq_true hfinite, units_mk hlow hhigh hlt⟩

/-- There is a number of every such size. -/
theorem exists_units_eq {n : Nat} (h : n ≤ 2 ^ 53) :
    ∃ y : Binary64, y.isFinite = true ∧ y.units = n * unitsPerOne := by
  have hbinade : binade = 2 ^ 52 := rfl
  rcases Nat.eq_zero_or_pos n with rfl | hpos
  · refine ⟨mk false 0 (by decide), rfl, ?_⟩
    rw [Nat.zero_mul, units_eq_zero_iff]
  rcases Nat.lt_or_eq_of_le h with hlt | rfl
  · -- The bits of the number are moved up until all 53 are in use.
    have hlog : n.log2 < 53 := (Nat.log2_lt hpos.ne').mpr hlt
    have hself : 2 ^ n.log2 ≤ n := Nat.log2_self_le hpos.ne'
    have hnext : n < 2 ^ (n.log2 + 1) := Nat.lt_log2_self
    have hshift : 0 < 2 ^ (52 - n.log2) := Nat.two_pow_pos _
    have hlow : binade ≤ n * 2 ^ (52 - n.log2) := by
      calc binade = 2 ^ n.log2 * 2 ^ (52 - n.log2) := by
            rw [hbinade, ← pow_add, Nat.add_sub_cancel' (by omega)]
        _ ≤ n * 2 ^ (52 - n.log2) := Nat.mul_le_mul_right _ hself
    have hhigh : n * 2 ^ (52 - n.log2) < 2 * binade := by
      calc n * 2 ^ (52 - n.log2) < 2 ^ (n.log2 + 1) * 2 ^ (52 - n.log2) :=
            Nat.mul_lt_mul_of_pos_right hnext hshift
        _ = 2 * binade := by
            rw [hbinade, ← pow_add, ← pow_succ']
            congr 1
            omega
    obtain ⟨y, hfinite, hunits⟩ := exists_units_eq_mul hlow hhigh
      (show n.log2 + 1022 ≤ 1075 by omega)
    refine ⟨y, hfinite, hunits.trans ?_⟩
    have hall : 52 - n.log2 + (n.log2 + 1022) = 1074 := by omega
    rw [unitsPerOne, twoTo_eq, twoTo_eq, Nat.mul_assoc, ← pow_add, hall]
  · obtain ⟨y, hfinite, hunits⟩ := exists_units_eq_mul (Nat.le_refl binade) (by decide)
      (Nat.le_refl 1075)
    refine ⟨y, hfinite, hunits.trans ?_⟩
    rw [hbinade, unitsPerOne, twoTo_eq, twoTo_eq, ← pow_add, ← pow_add]

/-- Rounding a whole number of at most 53 bits keeps its size. -/
theorem units_ofRatio {n : Nat} (h : n ≤ 2 ^ 53) (negative : Bool) :
    (ofRatio negative n 1).isFinite = true ∧
      (ofRatio negative n 1).units = n * unitsPerOne := by
  obtain ⟨y, hfinite, hunits⟩ := exists_units_eq h
  have hmagnitude : (ofRatio negative n 1).magnitude = y.magnitude :=
    nearestMagnitude_of_units Nat.one_pos hfinite (by rw [hunits, Nat.mul_one])
  constructor
  · unfold isFinite at *
    rwa [hmagnitude]
  · rw [← hunits]
    unfold units Binary64.scale Binary64.significand
    rw [hmagnitude]

theorem toInt?_ofInt {k : Int} (h : k.natAbs ≤ 2 ^ 53) : (ofInt k).toInt? = some k := by
  obtain ⟨hfinite, hunits⟩ := units_ofRatio h (k < 0)
  have hone : 0 < unitsPerOne := twoTo_pos _
  unfold toInt? ofInt
  rw [hfinite, hunits, Nat.mul_mod_left, Nat.mul_div_cancel _ hone]
  simp only [ofRatio, decide_true, Bool.and_self, if_true, decide_eq_true_eq]
  congr 1
  split <;> omega

/-! ## The neighbours of a whole number -/

variable {x : Binary64} {n : Nat}

/-- The exponent of the unit is of no account here, and it is not to be computed with. -/
theorem exists_unitsPerOne_eq : ∃ exponent, unitsPerOne = twoTo exponent := ⟨1074, rfl⟩

/-- Below `2⁵³` the next numbers are at most one away. -/
theorem twoTo_scale_le (hunits : x.units = n * unitsPerOne) (h : n < 2 ^ 53) :
    twoTo x.scale ≤ unitsPerOne := by
  obtain ⟨exponent, hone⟩ := exists_unitsPerOne_eq
  rw [hone] at hunits ⊢
  by_contra hlarge
  have hscale : exponent < x.scale := twoTo_lt_twoTo_iff.mp (Nat.lt_of_not_le hlarge)
  have hlow : 2 ^ 52 ≤ x.significand := binade_le_significand (Nat.ne_zero_of_lt hscale)
  have hsize : 2 ^ 53 * twoTo exponent ≤ n * twoTo exponent := by
    calc 2 ^ 53 * twoTo exponent = 2 ^ 52 * twoTo (exponent + 1) := by
          rw [twoTo_add, Nat.mul_comm (twoTo exponent), ← Nat.mul_assoc]
          rfl
      _ ≤ x.significand * twoTo x.scale :=
          Nat.mul_le_mul hlow (Nat.pow_le_pow_right Nat.two_pos hscale)
      _ = n * twoTo exponent := hunits
  exact absurd (Nat.le_of_mul_le_mul_right hsize (twoTo_pos _)) (Nat.not_le.mpr h)

/-- At `2⁵³` a binade begins: the number before it is one away, and the one after it two. -/
theorem scale_of_units_pow (hunits : x.units = 2 ^ 53 * unitsPerOne) :
    twoTo x.scale = 2 * unitsPerOne ∧ x.significand = binade ∧ 0 < x.scale := by
  obtain ⟨exponent, hone⟩ := exists_unitsPerOne_eq
  rw [hone] at hunits ⊢
  have hne : x.scale ≠ 0 := by
    rw [ne_eq, ← units_lt_iff, hunits, not_lt]
    exact Nat.le_mul_of_pos_right _ (twoTo_pos _)
  have hpow : x.units = twoTo (53 + exponent) := hunits.trans (twoTo_add 53 exponent).symm
  have hlog := log2_units hne
  rw [hpow, log2_twoTo] at hlog
  have hscale : x.scale = 1 + exponent := by omega
  refine ⟨?_, ?_, Nat.pos_of_ne_zero hne⟩
  · rw [hscale, twoTo_add]
    rfl
  · have hparts : x.significand * twoTo x.scale = binade * twoTo x.scale := by
      calc x.significand * twoTo x.scale = twoTo (52 + x.scale) := by rw [← hlog, ← hpow, units]
        _ = binade * twoTo x.scale := twoTo_add 52 x.scale
    exact Nat.eq_of_mul_eq_mul_right (twoTo_pos _) hparts

/-- Counted in units, what rounds to a whole number is within half of one of it; only above `2⁵³` it
reaches as far as the next whole number. -/
theorem interval_bounds (hunits : x.units = n * unitsPerOne) (h : n ≤ 2 ^ 53) :
    4 * n * unitsPerOne ≤ x.interval.low + 2 * unitsPerOne ∧
      x.interval.high ≤ (4 * n + if n = 2 ^ 53 then 4 else 2) * unitsPerOne := by
  have hcenter : 4 * x.units = 4 * n * unitsPerOne := by rw [hunits, Nat.mul_assoc]
  unfold interval
  dsimp only
  rw [hcenter, Nat.add_mul]
  rcases Nat.lt_or_eq_of_le h with hlt | rfl
  · have hquarter := twoTo_scale_le hunits hlt
    rw [if_neg hlt.ne]
    refine ⟨?_, by omega⟩
    split <;> omega
  · obtain ⟨hquarter, hsignificand, hscale⟩ := scale_of_units_pow hunits
    have hbegins : (x.significand = binade && decide (0 < x.scale)) = true := by
      simp [hsignificand, hscale]
    rw [if_pos hbegins, if_pos rfl, hquarter]
    refine ⟨by omega, by omega⟩

/-- Of the whole numbers that end in zero, only the number itself may round to it. -/
theorem eq_of_mem_interval (hunits : x.units = n * unitsPerOne) (h : n ≤ 2 ^ 53) {m : Nat}
    (hten : 10 ∣ m) (hlow : x.interval.low ≤ m * quartersPerOne)
    (hhigh : m * quartersPerOne ≤ x.interval.high) : m = n := by
  have hone : 0 < unitsPerOne := twoTo_pos _
  obtain ⟨hbelow, habove⟩ := interval_bounds hunits h
  have hplace : m * quartersPerOne = 4 * m * unitsPerOne := by
    rw [quartersPerOne, ← Nat.mul_assoc, Nat.mul_comm m]
  rw [hplace] at hlow hhigh
  have hle : 4 * n ≤ 4 * m + 2 := by
    refine Nat.le_of_mul_le_mul_right ?_ hone
    rw [Nat.add_mul (4 * m)]
    omega
  have hge := Nat.le_of_mul_le_mul_right (hhigh.trans habove) hone
  split at hge <;> omega

/-! ## The decimals that are tried -/

namespace Interval

variable {i : Interval} {g : Grid} {tie : TieRule} {digits : Nat}

theorem bounds_of_contains (h : i.contains g digits = true) :
    i.low * g.den ≤ digits * g.step ∧ digits * g.step ≤ i.high * g.den := by
  unfold contains at h
  dsimp only at h
  split at h
  · rw [Bool.and_eq_true, decide_eq_true_iff, decide_eq_true_iff] at h
    exact h
  · rw [Bool.and_eq_true, decide_eq_true_iff, decide_eq_true_iff] at h
    exact ⟨h.1.le, h.2.le⟩

theorem contains_of_lt (hlow : i.low * g.den < digits * g.step)
    (hhigh : digits * g.step < i.high * g.den) : i.contains g digits = true := by
  unfold contains
  dsimp only
  split
  · rw [decide_eq_true hlow.le, decide_eq_true hhigh.le]
    rfl
  · rw [decide_eq_true hlow, decide_eq_true hhigh]
    rfl

theorem contains_of_nearest? (h : i.nearest? tie g = some digits) :
    i.contains g digits = true := by
  unfold nearest? at h
  dsimp only at h
  generalize i.center * g.den / g.step = below at h
  split at h
  · cases h
  · rename_i hbelow _
    rwa [← Option.some.inj h]
  · rename_i _ habove
    rwa [← Option.some.inj h]
  · rename_i hbelow habove
    split at h
    · rwa [← Option.some.inj h]
    · split at h
      · rwa [← Option.some.inj h]
      · cases tie with
        | up => rwa [← Option.some.inj h]
        | toEven =>
            rw [← Option.some.inj h]
            rcases Nat.mod_two_eq_zero_or_one below with heven | hodd
            · rwa [heven]
            · rwa [hodd]

/-- A point that is the centre itself is taken. -/
theorem nearest?_center (hcenter : i.center * g.den = digits * g.step) (hstep : 0 < g.step)
    (hcontains : i.contains g digits = true) : i.nearest? tie g = some digits := by
  unfold nearest?
  dsimp only
  rw [hcenter, Nat.mul_div_cancel _ hstep, hcontains, Nat.sub_self, Nat.add_mul, Nat.one_mul,
    Nat.add_sub_cancel_left, if_pos hstep]
  cases i.contains g (digits + 1) <;> rfl

end Interval

theorem Grid.ofExponent_natCast (e : Nat) :
    Grid.ofExponent e = ⟨e, tenTo e * quartersPerOne, 1⟩ := by
  unfold Grid.ofExponent
  rw [if_pos (Int.natCast_nonneg e), Int.toNat_natCast]

/-- A whole decimal that ends in zero and reads back as a whole number is that number. -/
theorem eq_of_nearest?_interval {tie : TieRule} {digits e : Nat}
    (hunits : x.units = n * unitsPerOne) (h : n ≤ 2 ^ 53)
    (hnearest : x.interval.nearest? tie (.ofExponent (e + 1 : Nat)) = some digits) :
    digits * tenTo (e + 1) = n := by
  have hbounds := Interval.bounds_of_contains (Interval.contains_of_nearest? hnearest)
  rw [Grid.ofExponent_natCast] at hbounds
  dsimp only at hbounds
  rw [Nat.mul_one, Nat.mul_one, ← Nat.mul_assoc] at hbounds
  have hten : 10 ∣ digits * tenTo (e + 1) := by
    rw [tenTo_eq, pow_succ]
    exact ⟨digits * 10 ^ e, by ring⟩
  exact eq_of_mem_interval hunits h hten hbounds.1 hbounds.2

theorem nearest?_interval_zero (tie : TieRule) (hunits : x.units = n * unitsPerOne)
    (hpos : 0 < n) : x.interval.nearest? tie (.ofExponent (0 : Nat)) = some n := by
  have hcenter : x.interval.center = n * quartersPerOne := by
    unfold interval
    dsimp only
    rw [hunits, quartersPerOne]
    ring
  have hquarters : 0 < quartersPerOne := Nat.mul_pos (by decide) (twoTo_pos _)
  have hbetween : x.interval.low < x.interval.center ∧ x.interval.center < x.interval.high := by
    have hquarter : 0 < twoTo x.scale := twoTo_pos _
    have hpositive := Nat.mul_pos hpos hquarters
    rw [← hcenter] at hpositive
    unfold interval at *
    dsimp only at *
    refine ⟨?_, by omega⟩
    split <;> omega
  rw [hcenter] at hbetween
  rw [Grid.ofExponent_natCast, tenTo_eq, pow_zero, Nat.one_mul]
  refine Interval.nearest?_center ?_ hquarters (Interval.contains_of_lt ?_ ?_) <;> dsimp only
  · rw [hcenter, Nat.mul_one]
  · rw [Nat.mul_one]
    exact hbetween.1
  · rw [Nat.mul_one]
    exact hbetween.2

/-! ## The shortest decimal -/

theorem digitCount_mono {m n : Nat} (h : m ≤ n) : digitCount m ≤ digitCount n := by
  unfold digitCount
  rw [Nat.length_toDigits_le_iff (by decide) Nat.length_toDigits_pos]
  exact h.trans_lt ((Nat.length_toDigits_le_iff (by decide) Nat.length_toDigits_pos).mp
    (Nat.le_refl _))

theorem digitCount_mul_tenTo {n : Nat} (h : 0 < n) (e : Nat) :
    digitCount (n * tenTo e) = digitCount n + e := by
  unfold digitCount
  rw [Decimal.digitChars_mul_tenTo h, List.length_append, Decimal.zeros, List.length_replicate]

/-- The grid of the first try has no places after the point, and that of the last has some. -/
theorem decimalExponent_interval (hunits : x.units = n * unitsPerOne) (hlow : tenTo 15 ≤ n)
    (hhigh : n < tenTo 16) :
    ∃ top : Nat, x.interval.decimalExponent = top ∧ top < maxDigits := by
  have hquarters : 0 < quartersPerOne := Nat.mul_pos (by decide) (twoTo_pos _)
  have hcenter : x.interval.center = quartersPerOne * n := by
    unfold interval
    dsimp only
    rw [hunits, quartersPerOne]
    ring
  have hmin : digitCount quartersPerOne + 15 ≤ digitCount x.interval.center := by
    rw [← digitCount_mul_tenTo hquarters, hcenter]
    exact digitCount_mono (Nat.mul_le_mul_left _ hlow)
  have hmax : digitCount x.interval.center ≤ digitCount quartersPerOne + 16 := by
    rw [← digitCount_mul_tenTo hquarters, hcenter]
    exact digitCount_mono (Nat.mul_le_mul_left _ hhigh.le)
  unfold Interval.decimalExponent
  generalize digitCount x.interval.center = count at *
  generalize digitCount quartersPerOne = count' at *
  dsimp only
  unfold maxDigits
  split
  · exact ⟨count - count', by omega, by omega⟩
  · exact ⟨count - count' - 1, by omega, by omega⟩

/-- What a try finds on a grid without places after the point is the number. -/
theorem value_of_try {tie : TieRule} {d : Decimal} {e : Nat} (hunits : x.units = n * unitsPerOne)
    (hpos : 0 < n) (h : n ≤ 2 ^ 53)
    (htry : ((x.interval.nearest? tie (.ofExponent e)).map fun digits =>
      Decimal.mk digits (Grid.ofExponent e).exponent) = some d) :
    d.exponent = e ∧ d.digits * tenTo e = n := by
  obtain ⟨digits, hnearest, rfl⟩ := Option.map_eq_some_iff.mp htry
  refine ⟨by rw [Grid.ofExponent_natCast], ?_⟩
  cases e with
  | zero =>
      rw [nearest?_interval_zero tie hunits hpos] at hnearest
      rw [tenTo_eq, pow_zero, Nat.mul_one, Option.some.inj hnearest]
  | succ e => exact eq_of_nearest?_interval hunits h hnearest

/-- Among the tries is the number itself, and what is found before it is the number too. -/
theorem exists_findSome?_tries (tie : TieRule) (hunits : x.units = n * unitsPerOne) (hpos : 0 < n)
    (h : n ≤ 2 ^ 53) {top : Nat} (htop : top < maxDigits) :
    ∃ (d : Decimal) (e : Nat), d.exponent = e ∧ d.digits * tenTo e = n ∧
      (List.range maxDigits).findSome? (fun (extra : Nat) =>
        (x.interval.nearest? tie (.ofExponent ((top : Int) - extra))).map fun digits =>
          Decimal.mk digits (Grid.ofExponent ((top : Int) - extra)).exponent) = some d := by
  obtain ⟨rest, hrest⟩ := Nat.exists_eq_add_of_lt htop
  rw [hrest, Nat.add_right_comm, List.range_add, List.findSome?_append]
  generalize htry : (fun (extra : Nat) =>
    (x.interval.nearest? tie (.ofExponent ((top : Int) - extra))).map fun digits =>
      Decimal.mk digits (Grid.ofExponent ((top : Int) - extra)).exponent) = attempt
  have hwhole : ∀ e ≤ top, attempt (top - e) = (x.interval.nearest? tie (.ofExponent e)).map
      fun digits => Decimal.mk digits (Grid.ofExponent e).exponent := by
    intro e he
    rw [← htry]
    dsimp only
    rw [Nat.cast_sub he, sub_sub_cancel]
  have hlast : attempt top = some ⟨n, 0⟩ := by
    have hzero := hwhole 0 (Nat.zero_le _)
    rw [nearest?_interval_zero tie hunits hpos, Grid.ofExponent_natCast] at hzero
    exact hzero
  obtain ⟨d, hd⟩ : ∃ d, (List.range (top + 1)).findSome? attempt = some d := by
    refine Option.isSome_iff_exists.mp (List.findSome?_isSome_iff.mpr
      ⟨top, List.mem_range.mpr (Nat.lt_succ_self top), ?_⟩)
    rw [hlast]
    rfl
  obtain ⟨extra, hmem, hextra⟩ := List.exists_of_findSome?_eq_some hd
  have hle : extra ≤ top := Nat.le_of_lt_succ (List.mem_range.mp hmem)
  have hfound := hwhole (top - extra) (Nat.sub_le _ _)
  rw [Nat.sub_sub_self hle, hextra] at hfound
  obtain ⟨hexponent, hvalue⟩ := value_of_try hunits hpos h hfound.symm
  exact ⟨d, top - extra, hexponent, hvalue, by rw [hd, Option.some_or]⟩

/-- A whole number of sixteen digits is written with just these digits. -/
theorem positional_shortest (tie : TieRule) (hunits : x.units = n * unitsPerOne)
    (hlow : tenTo 15 ≤ n) (h : n ≤ 2 ^ 53) : (x.shortest tie).positional = toString n := by
  have hpos : 0 < n := (tenTo_pos 15).trans_le hlow
  have hzero : x.isZero = false := by
    refine decide_eq_false fun hmagnitude => ?_
    rw [← units_eq_zero_iff, hunits, Nat.mul_eq_zero] at hmagnitude
    exact hmagnitude.elim hpos.ne' (twoTo_pos _).ne'
  obtain ⟨top, htop, hlt⟩ := decimalExponent_interval hunits hlow (h.trans_lt (by decide))
  obtain ⟨d, e, hexponent, hvalue, htries⟩ := exists_findSome?_tries tie hunits hpos h hlt
  obtain ⟨e', hexponent', hvalue'⟩ := Decimal.normalize_of_whole hexponent
  unfold shortest
  rw [hzero]
  dsimp only
  rw [htop, htries]
  exact Decimal.positional_eq_toString hexponent' (hvalue'.trans hvalue) hpos

end Binary64

end Stencil
