import Stencil.Proofs.Number.Whole
import Stencil.Value.Conversion
import Stencil.Value.Text

/-!
# Whole numbers as text

A whole number of at most 53 bits goes into a value and out again as text without a change. On the
way it is a binary number, and it is written in one of two ways: with fewer than sixteen digits as
the whole number that the binary one is, and with sixteen by the shortest decimal that reads back.
Both write the plain numeral (`Value.numberText_ofInt`). `Value.render_whole` says so for the ways
in which a whole number comes in, and for the structured form where that writes a whole number.
-/

namespace Stencil.Value

/-- The value was made of a whole number: of one in structured data, or of one that was bound
directly, with a sign or without. -/
inductive OfWhole (k : Int) : Value → Prop
  | json : OfWhole k (ofJson (.int k))
  | signed : OfWhole k (toValue k)
  | unsigned {n : Nat} (h : k = n) : OfWhole k (toValue n)

variable {k : Int} {v : Value}

theorem OfWhole.eq_number (h : OfWhole k v) : v = number (.ofInt k) := by
  cases h with
  | json => rfl
  | signed => rfl
  | @unsigned n h =>
      subst h
      have hsign : decide ((n : Int) < 0) = false := decide_eq_false (Int.natCast_nonneg n).not_gt
      show number (.ofNat n) = _
      rw [Binary64.ofNat, Binary64.ofInt, hsign, Int.natAbs_natCast]

theorem shortWhole?_ofInt (hk : k.natAbs ≤ 2 ^ 53) :
    shortWhole? (.ofInt k) = if k.natAbs < tenTo 15 then some k else none := by
  rw [shortWhole?, Binary64.toInt?_ofInt hk, Option.filter_some]
  simp only [decide_eq_true_eq]

/-- A sign before the digits of the size. -/
theorem toString_eq_sign_append (k : Int) :
    toString k = (if k < 0 then "-" else "") ++ toString k.natAbs := by
  cases k with
  | ofNat n =>
      have hsign : ¬Int.ofNat n < 0 := (Int.natCast_nonneg n).not_gt
      rw [if_neg hsign, String.empty_append]
      rfl
  | negSucc n =>
      rw [if_pos (Int.negSucc_lt_zero n)]
      rfl

theorem numberText_ofInt (hk : k.natAbs ≤ 2 ^ 53) : numberText (.ofInt k) = toString k := by
  obtain ⟨hfinite, hunits⟩ : (Binary64.ofInt k).isFinite = true ∧ (Binary64.ofInt k).units = _ :=
    Binary64.units_ofRatio hk (k < 0)
  have hmagnitude : (Binary64.ofInt k).magnitude < Binary64.infinity := of_decide_eq_true hfinite
  have hnan : (Binary64.ofInt k).isNaN = false := decide_eq_false hmagnitude.not_gt
  have hinfinite : (Binary64.ofInt k).isInfinite = false := decide_eq_false hmagnitude.ne
  have hsign : (Binary64.ofInt k).negative = decide (k < 0) := rfl
  unfold numberText
  rw [hnan, hinfinite, shortWhole?_ofInt hk, hsign]
  by_cases hshort : k.natAbs < tenTo 15
  · rw [if_pos hshort]
    rfl
  · rw [if_neg hshort, toString_eq_sign_append k]
    dsimp only
    rw [Binary64.positional_shortest .up hunits (Nat.le_of_not_lt hshort) hk]
    simp

theorem compact_numberJson_ofInt (hk : k.natAbs < tenTo 15) :
    (numberJson (.ofInt k)).compact = toString k := by
  rw [numberJson, shortWhole?_ofInt (hk.le.trans (by decide)), if_pos hk]
  rfl

/-- A whole number that is given with at most 53 bits is shown as its plain numeral, with a sign if
it is negative, whichever of the two ways it is written in. With at most fifteen digits it has the
same numeral in the structured form. -/
theorem render_whole (hk : k.natAbs ≤ 2 ^ 53) (hv : OfWhole k v) :
    v.render = toString k ∧ (k.natAbs < 10 ^ 15 → v.toJson.compact = toString k) := by
  rw [hv.eq_number]
  exact ⟨numberText_ofInt hk, compact_numberJson_ofInt⟩

/-- The greatest number of fifteen digits and the one after it, which ends in zeros, are written in
different ways, and so is the last one with 53 bits. -/
theorem render_whole_cutoff :
    (999999999999999 : Int).natAbs ≤ 2 ^ 53 ∧ (1000000000000000 : Int).natAbs ≤ 2 ^ 53 ∧
    (-9007199254740992 : Int).natAbs ≤ 2 ^ 53 ∧
    (ofJson (.int 999999999999999)).render = "999999999999999" ∧
    (ofJson (.int 999999999999999)).toJson.compact = "999999999999999" ∧
    (toValue 1000000000000000).render = "1000000000000000" ∧
    (toValue (-9007199254740992 : Int)).render = "-9007199254740992" ∧
    (ofJson (.int 0)).render = "0" := by
  have hlong : (1000000000000000 : Int).natAbs ≤ 2 ^ 53 := by decide
  have hshort := render_whole (k := 999999999999999) (by decide) .json
  refine ⟨by decide, hlong, by decide, hshort.1, hshort.2 (by decide), ?_, ?_, ?_⟩
  · exact (render_whole hlong (.unsigned (n := 1000000000000000) rfl)).1
  · exact (render_whole (by decide) .signed).1
  · exact (render_whole (by decide) .json).1

end Stencil.Value
