import Mathlib.Algebra.Order.Group.Nat
import Mathlib.Tactic.Ring
import RaidTimeline.Number.Shortest

/-!
# Rounding to the 64-bit format

Rounding sees a quotient only as a rational number, and numbers of the format are left as they
are.  So a decimal number may be rewritten freely, and a number of the format may be written as
any decimal number that rounds to it.

Main results:

- Theorem {lit}`Binary64.ofRatio_congr`: equal quotients round to the same number.
- Theorem {lit}`Binary64.ofRatio_units`: a number of the format rounds to itself.
- Theorem {lit}`Binary64.ofDecimal_eq_ofRatio`: the short cuts for large exponents change nothing.
- Theorem {lit}`Binary64.hasSign_ofLiteral`: unsigned literals denote unsigned numbers.
- Theorem {lit}`Binary64.Finite.ofDecimal_shortest`: the shortest decimal number reads back.
-/

namespace RaidTimeline

namespace Binary64

/-! ## Quotients -/

/-- A common factor has no part in a rounded quotient. -/
theorem roundDiv_mul_right {k : Nat} (hk : 0 < k) (a b : Nat) :
    roundDiv (a * k) (b * k) = roundDiv a b := by
  have hmod : a * k % (b * k) = a % b * k := Nat.mul_mod_mul_right k a b
  have hlt : ∀ x y : Nat, 2 * (x * k) < y * k ↔ 2 * x < y := by
    intro x y
    rw [← Nat.mul_assoc]
    exact Nat.mul_lt_mul_right hk
  have hgt : ∀ x y : Nat, y * k < 2 * (x * k) ↔ y < 2 * x := by
    intro x y
    rw [← Nat.mul_assoc]
    exact Nat.mul_lt_mul_right hk
  simp only [roundDiv, Nat.mul_div_mul_right a b hk, hmod, hlt, hgt]

/-- A quotient without remainder is not rounded. -/
theorem roundDiv_mul_self {d : Nat} (hd : 0 < d) (m : Nat) : roundDiv (m * d) d = m := by
  simp [roundDiv, Nat.mul_div_cancel m hd, hd]

/-- A quotient below one half is rounded to zero. -/
theorem roundDiv_of_lt {a b : Nat} (h : 2 * a < b) : roundDiv a b = 0 := by
  have hlt : a < b := by omega
  simp [roundDiv, Nat.div_eq_of_lt hlt, Nat.mod_eq_of_lt hlt, h]

/-- A quotient can be extended by a common factor. -/
theorem ofRatio_mul_right {k : Nat} (hk : 0 < k) (negative : Bool) (num den : Nat) :
    ofRatio negative (num * k) (den * k) = ofRatio negative num den := by
  have hscaled : num * k * 2 ^ fineness = num * 2 ^ fineness * k := Nat.mul_right_comm _ _ _
  have hden : ∀ shift, den * k * 2 ^ shift = den * 2 ^ shift * k :=
    fun shift => Nat.mul_right_comm _ _ _
  simp only [ofRatio, hscaled, hden, Nat.mul_div_mul_right _ _ hk, roundDiv_mul_right hk]

/-- Equal quotients round to the same number. -/
theorem ofRatio_congr {num den num' den' : Nat} (hden : 0 < den) (hden' : 0 < den')
    (h : num * den' = num' * den) (negative : Bool) :
    ofRatio negative num den = ofRatio negative num' den' := by
  rw [← ofRatio_mul_right hden' negative num den, h, Nat.mul_comm den den',
    ofRatio_mul_right hden]

/-! ## Numbers of the format -/

/-- A mantissa and a shift that fit make a finite number. -/
theorem ofScaled_eq_finite (v : Finite) : ofScaled v.negative v.mantissa v.shift = .finite v := by
  rw [ofScaled, dif_pos ⟨v.mantissa_lt, v.shift_le, v.full⟩]

/-- The shift of a number is the one that its units need. -/
theorem shiftFor_units (v : Finite) : shiftFor v.units = v.shift := by
  have hlt := v.mantissa_lt
  rw [shiftFor, Finite.units]
  rcases Nat.eq_zero_or_pos v.shift with hshift | hshift
  · rw [hshift, Nat.pow_zero, Nat.mul_one, if_pos hlt]
  · have hfull : 2 ^ 52 ≤ v.mantissa := v.full.resolve_left (Nat.pos_iff_ne_zero.mp hshift)
    have htwo : 2 ^ 1 ≤ 2 ^ v.shift := Nat.pow_le_pow_right (by decide) hshift
    have hlarge : 2 ^ 52 * 2 ^ 1 ≤ v.mantissa * 2 ^ v.shift := Nat.mul_le_mul hfull htwo
    have hlog : (v.mantissa * 2 ^ v.shift).log2 = 52 + v.shift := by
      rw [Nat.log2_eq_iff (by omega)]
      constructor
      · rw [Nat.pow_add]
        exact Nat.mul_le_mul_right _ hfull
      · rw [Nat.add_right_comm, Nat.pow_add]
        exact Nat.mul_lt_mul_of_pos_right hlt (Nat.two_pow_pos _)
    rw [if_neg (by omega), hlog, Nat.add_sub_cancel_left]

/-- A number of the format rounds to itself. -/
theorem ofRatio_units (v : Finite) : ofRatio v.negative v.units (2 ^ fineness) = .finite v := by
  have hpos : 0 < 2 ^ fineness := Nat.two_pow_pos fineness
  have hmantissa : roundDiv (v.units * 2 ^ fineness) (2 ^ fineness * 2 ^ v.shift) = v.mantissa := by
    rw [Finite.units, Nat.mul_assoc, Nat.mul_comm (2 ^ v.shift)]
    exact roundDiv_mul_self (Nat.mul_pos hpos (Nat.two_pow_pos _)) _
  have hlt := v.mantissa_lt
  simp only [ofRatio, Nat.mul_div_cancel _ hpos, shiftFor_units, hmantissa]
  rw [if_neg (by omega), ofScaled_eq_finite]

/-- A quotient that equals a number of the format rounds to it. -/
theorem ofRatio_eq_finite {num den : Nat} (hden : 0 < den) {v : Finite}
    (h : num * 2 ^ fineness = v.units * den) : ofRatio v.negative num den = .finite v := by
  rw [ofRatio_congr hden (Nat.two_pow_pos fineness) h, ofRatio_units]

/-- Numbers of no units are zero. -/
theorem finite_eq_zero {v : Finite} (h : v.units = 0) : .finite v = zero v.negative := by
  rcases v with ⟨negative, mantissa, shift, hlt, hle, hfull⟩
  have hmantissa : mantissa = 0 := by
    rcases Nat.mul_eq_zero.mp h with hzero | hzero
    · exact hzero
    · exact absurd hzero (Nat.pos_iff_ne_zero.mp (Nat.two_pow_pos shift))
  have hshift : shift = 0 := hfull.resolve_right (by omega)
  subst hmantissa hshift
  rfl

/-! ## Beyond the format -/

/-- A quotient of {lit}`2 ^ 1024` or more is infinite. -/
theorem ofRatio_of_large {num den n : Nat} (hden : 0 < den) (hn : 1024 ≤ n)
    (h : den * 2 ^ n ≤ num) (negative : Bool) :
    ofRatio negative num den = .infinite negative := by
  have hfineness : fineness = 1074 := rfl
  have hunits : 2 ^ (n + fineness) ≤ num * 2 ^ fineness / den := by
    rw [Nat.le_div_iff_mul_le hden, Nat.pow_add, Nat.mul_right_comm, Nat.mul_comm (2 ^ n)]
    exact Nat.mul_le_mul_right _ h
  have hshift : 2046 ≤ shiftFor (num * 2 ^ fineness / den) := by
    have hpos : 0 < 2 ^ (n + fineness) := Nat.two_pow_pos _
    have hlog : n + fineness ≤ (num * 2 ^ fineness / den).log2 := by
      rw [Nat.le_log2 (Nat.pos_iff_ne_zero.mp (Nat.lt_of_lt_of_le hpos hunits))]
      exact hunits
    have hlarge : 2 ^ 53 ≤ num * 2 ^ fineness / den :=
      Nat.le_trans (Nat.pow_le_pow_right (by decide) (by omega)) hunits
    rw [shiftFor, if_neg (Nat.not_lt.mpr hlarge)]
    omega
  have hscaled : ∀ mantissa shift, 2046 ≤ shift →
      ofScaled negative mantissa shift = .infinite negative := by
    intro mantissa shift hlarge
    rw [ofScaled, dif_neg (by omega)]
  simp only [ofRatio]
  split
  · exact hscaled _ _ (Nat.le_succ_of_le hshift)
  · exact hscaled _ _ hshift

/-- A quotient below half of the smallest positive number is zero. -/
theorem ofRatio_of_small {num den : Nat} (h : 2 * (num * 2 ^ fineness) < den)
    (negative : Bool) : ofRatio negative num den = zero negative := by
  have hshift : shiftFor (num * 2 ^ fineness / den) = 0 := by
    rw [Nat.div_eq_of_lt (Nat.lt_of_le_of_lt (Nat.le_mul_of_pos_left _ Nat.two_pos) h)]
    rfl
  simp only [ofRatio, hshift, Nat.pow_zero, Nat.mul_one, roundDiv_of_lt h]
  rfl

/-! ## Decimal numbers -/

/-- Powers of ten are at least the powers of eight. -/
theorem pow_two_le_pow_ten (n : Nat) : 2 ^ (3 * n) ≤ 10 ^ n := by
  rw [Nat.pow_mul]
  exact Nat.pow_le_pow_left (by decide) n

/-- The short cuts for large exponents change nothing: a decimal number is rounded as the
quotient that it is. -/
theorem ofDecimal_eq_ofRatio {d : Decimal} (hd : d.digits ≠ 0) (negative : Bool) :
    ofDecimal negative d =
      ofRatio negative (d.digits * 10 ^ d.exponent.toNat) (10 ^ (-d.exponent).toNat) := by
  unfold ofDecimal
  rw [if_neg hd]
  by_cases hlarge : 400 < d.exponent
  · rw [if_pos hlarge]
    have hden : (-d.exponent).toNat = 0 := by omega
    have hn : 1024 ≤ 3 * d.exponent.toNat := by omega
    rw [hden, Nat.pow_zero, ofRatio_of_large Nat.one_pos hn]
    calc
      1 * 2 ^ (3 * d.exponent.toNat) ≤ 10 ^ d.exponent.toNat := by
        rw [Nat.one_mul]
        exact pow_two_le_pow_ten _
      _ ≤ d.digits * 10 ^ d.exponent.toNat :=
        Nat.le_mul_of_pos_left _ (Nat.pos_of_ne_zero hd)
  · rw [if_neg hlarge]
    by_cases hsmall : d.exponent < -((d.digits.log2 : Int) + 401)
    · rw [if_pos hsmall]
      have hnum : d.exponent.toNat = 0 := by omega
      rw [hnum, Nat.pow_zero, Nat.mul_one, ofRatio_of_small]
      have hfineness : fineness = 1074 := rfl
      calc
        2 * (d.digits * 2 ^ fineness) < 2 * (2 ^ (d.digits.log2 + 1) * 2 ^ fineness) :=
          Nat.mul_lt_mul_of_pos_left
            (Nat.mul_lt_mul_of_pos_right Nat.lt_log2_self (Nat.two_pow_pos _)) Nat.two_pos
        _ = 2 ^ (d.digits.log2 + 2 + fineness) := by
          rw [Nat.pow_add, Nat.pow_add, Nat.pow_add]
          ring
        _ ≤ 2 ^ (3 * (-d.exponent).toNat) := Nat.pow_le_pow_right (by decide) (by omega)
        _ ≤ 10 ^ (-d.exponent).toNat := pow_two_le_pow_ten _
    · rw [if_neg hsmall]
      by_cases hexponent : 0 ≤ d.exponent
      · have hden : (-d.exponent).toNat = 0 := by omega
        rw [if_pos hexponent, hden, Nat.pow_zero]
      · have hnum : d.exponent.toNat = 0 := by omega
        rw [if_neg hexponent, hnum, Nat.pow_zero, Nat.mul_one]

/-- Without digits a decimal number is zero, whatever its exponent. -/
theorem ofDecimal_of_digits_eq_zero {d : Decimal} (h : d.digits = 0) (negative : Bool) :
    ofDecimal negative d = zero negative := by
  rw [ofDecimal, if_pos h]

/-- Units of a decimal number may be split into units of a smaller power of ten. -/
theorem ofDecimal_rescale (negative : Bool) (digits k : Nat) (exponent : Int) :
    ofDecimal negative ⟨digits * 10 ^ k, exponent⟩ =
      ofDecimal negative ⟨digits, exponent + k⟩ := by
  have hten : ∀ n : Nat, 0 < 10 ^ n := fun n => Nat.pow_pos (by decide)
  rcases Nat.eq_zero_or_pos digits with hzero | hpos
  · rw [ofDecimal_of_digits_eq_zero (by simp [hzero]), ofDecimal_of_digits_eq_zero hzero]
  · have hscaled : digits * 10 ^ k ≠ 0 := Nat.pos_iff_ne_zero.mp (Nat.mul_pos hpos (hten k))
    rw [ofDecimal_eq_ofRatio hscaled, ofDecimal_eq_ofRatio (Nat.pos_iff_ne_zero.mp hpos)]
    apply ofRatio_congr (hten _) (hten _)
    simp only [Nat.mul_assoc, ← Nat.pow_add]
    congr 2
    omega

/-- Trailing zeros that are moved into the exponent change nothing. -/
theorem ofDecimal_trim (negative : Bool) (d : Decimal) :
    ofDecimal negative d.trim = ofDecimal negative d := by
  unfold Decimal.trim
  suffices h : ∀ digits exponent, ofDecimal negative (Decimal.trimAux digits exponent) =
      ofDecimal negative ⟨digits, exponent⟩ from h d.digits d.exponent
  intro digits exponent
  fun_induction Decimal.trimAux digits exponent with
  | case1 digits exponent _ => rfl
  | case2 digits exponent hzeros ih =>
    rw [ih]
    have hten : digits / 10 * 10 ^ 1 = digits := by omega
    have hscale := ofDecimal_rescale negative (digits / 10) 1 exponent
    rw [hten] at hscale
    exact hscale.symm

/-! ## Signs -/

/-- A number has a sign; an undefined number has none. -/
def HasSign (negative : Bool) : Binary64 → Prop
  | .nan => False
  | .infinite sign => sign = negative
  | .finite v => v.negative = negative

/-- A mantissa and a shift give a number of the sign, finite or not. -/
theorem hasSign_ofScaled (negative : Bool) (mantissa shift : Nat) :
    HasSign negative (ofScaled negative mantissa shift) := by
  unfold ofScaled
  split <;> rfl

/-- A quotient is rounded to a number of its sign. -/
theorem hasSign_ofRatio (negative : Bool) (num den : Nat) :
    HasSign negative (ofRatio negative num den) := by
  simp only [ofRatio]
  split <;> exact hasSign_ofScaled _ _ _

/-- Rounding keeps the sign. -/
theorem hasSign_ofDecimal (negative : Bool) (d : Decimal) :
    HasSign negative (ofDecimal negative d) := by
  by_cases hd : d.digits = 0
  · rw [ofDecimal_of_digits_eq_zero hd]
    rfl
  · rw [ofDecimal_eq_ofRatio hd]
    exact hasSign_ofRatio _ _ _

/-- A literal denotes a number without a minus sign. -/
theorem hasSign_ofLiteral (t : Text) : HasSign false (ofLiteral t) :=
  hasSign_ofDecimal _ _

/-! ## Texts of numbers -/

namespace Finite

/-- The exact decimal value of a number reads back as the number. -/
theorem ofDecimal_exact (v : Finite) : ofDecimal v.negative v.exact = .finite v := by
  rcases Nat.eq_zero_or_pos v.units with hzero | hpos
  · rw [ofDecimal_of_digits_eq_zero (by simp [exact, hzero]), finite_eq_zero hzero]
  · have hdigits : v.exact.digits ≠ 0 := by
      apply Nat.pos_iff_ne_zero.mp
      exact Nat.mul_pos hpos (Nat.pow_pos (by decide))
    rw [ofDecimal_eq_ofRatio hdigits]
    have hnum : v.exact.exponent.toNat = 0 := by
      simp only [exact]
      omega
    have hden : (-v.exact.exponent).toNat = fineness := by
      simp only [exact]
      omega
    rw [hnum, hden, Nat.pow_zero, Nat.mul_one]
    apply ofRatio_eq_finite (Nat.pow_pos (by decide))
    rw [exact, Nat.mul_assoc, ← Nat.mul_pow]

/-- The shortest decimal number of a number reads back as the number. -/
theorem ofDecimal_shortest (v : Finite) : ofDecimal v.negative v.shortest = .finite v := by
  unfold shortest
  simp only
  rw [ofDecimal_trim]
  generalize hfound : List.find? v.readsBack _ = found
  cases found with
  | none => exact v.ofDecimal_exact
  | some d =>
    have hreads : v.readsBack d = true := List.find?_some hfound
    exact eq_of_beq hreads

/-- A number that is not zero has digits that are not. -/
theorem digits_shortest_ne_zero {v : Finite} (h : v.mantissa ≠ 0) : v.shortest.digits ≠ 0 := by
  intro hzero
  have hshortest := v.ofDecimal_shortest
  rw [ofDecimal_of_digits_eq_zero hzero] at hshortest
  rw [← finite.inj hshortest] at h
  exact h rfl

/-- A whole number reads back from its whole part. -/
theorem ofDecimal_whole {v : Finite} (h : v.isWhole = true) :
    ofDecimal v.negative ⟨v.whole, 0⟩ = .finite v := by
  have hunits : v.whole * 2 ^ fineness = v.units := by
    apply Nat.div_mul_cancel
    exact Nat.dvd_of_mod_eq_zero (eq_of_beq h)
  rcases Nat.eq_zero_or_pos v.whole with hzero | hpos
  · rw [ofDecimal_of_digits_eq_zero hzero, finite_eq_zero]
    rw [← hunits, hzero, Nat.zero_mul]
  · rw [ofDecimal_eq_ofRatio (Nat.pos_iff_ne_zero.mp hpos)]
    apply ofRatio_eq_finite (Nat.pow_pos (by decide))
    rw [Int.toNat_zero, Int.neg_zero, Int.toNat_zero, Nat.pow_zero, Nat.mul_one, Nat.mul_one,
      hunits]

end Finite

end Binary64

end RaidTimeline
