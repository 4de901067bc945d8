import Mathlib.Data.List.Basic
import Mathlib.Tactic.Ring
import RaidTimeline.Number.Decimal

/-!
# Runs of digits

The digits of a natural number denote it, and the value of a run of digits is found piece by
piece.

Main results:

- Theorem {lit}`Text.toNat_ofNat`: the digits of a number denote the number.
- Definition {lit}`IsWholePart`: digits without an idle zero in front.
- Theorem {lit}`isWholePart_ofNat`: the digits of a number have none.
- Theorems {lit}`Decimal.exists_parts` and {lit}`Decimal.exists_positional_eq`: the two parts in
  which a decimal number is laid out.
-/

namespace RaidTimeline

namespace Text

/-! ## Values -/

theorem isDigit_digit (n : Nat) : (digit n).isDigit = true := by
  have hdigits : ∀ k : Fin 10, (Char.ofNat (48 + k)).isDigit = true := by decide
  exact hdigits ⟨n % 10, Nat.mod_lt n (by decide)⟩

theorem digitValue_digit (n : Nat) : digitValue (digit n) = n % 10 := by
  have hdigits : ∀ k : Fin 10, digitValue (Char.ofNat (48 + k)) = k := by decide
  exact hdigits ⟨n % 10, Nat.mod_lt n (by decide)⟩

/-- The digits in front count as many times more as the digits behind are long. -/
theorem toNat_append (s t : Text) : toNat (s ++ t) = toNat s * 10 ^ t.length + toNat t := by
  have hfold : ∀ (t : Text) (n : Nat), t.foldl (fun n c => 10 * n + digitValue c) n =
      n * 10 ^ t.length + toNat t := by
    intro t
    induction t with
    | nil =>
      intro n
      simp [toNat]
    | cons c t ih =>
      intro n
      rw [toNat, List.foldl_cons, List.foldl_cons, ih, ih, List.length_cons, Nat.pow_succ]
      ring
  rw [toNat, List.foldl_append, hfold t]
  rfl

theorem toNat_singleton (c : Char) : toNat [c] = digitValue c := by
  simp [toNat]

/-- The digits of a number denote the number. -/
@[simp]
theorem toNat_ofNat (n : Nat) : toNat (ofNat n) = n := by
  fun_induction ofNat n with
  | case1 n hsmall =>
    rw [toNat_singleton, digitValue_digit]
    exact Nat.mod_eq_of_lt hsmall
  | case2 n _ ih =>
    rw [toNat_append, ih, toNat_singleton, digitValue_digit, List.length_singleton]
    omega

/-! ## Zeros -/

@[simp]
theorem length_zeros (n : Nat) : (Decimal.zeros n).length = n :=
  List.length_replicate

@[simp]
theorem toNat_zeros (n : Nat) : toNat (Decimal.zeros n) = 0 := by
  induction n with
  | zero => rfl
  | succ n ih =>
    rw [Decimal.zeros, List.replicate_succ', toNat_append]
    rw [Decimal.zeros] at ih
    rw [ih]
    rfl

/-- Zeros in front count for nothing. -/
theorem toNat_zeros_append (n : Nat) (t : Text) : toNat (Decimal.zeros n ++ t) = toNat t := by
  rw [toNat_append, toNat_zeros, Nat.zero_mul, Nat.zero_add]

/-- Every zero behind a number is a factor of ten. -/
theorem toNat_append_zeros (t : Text) (n : Nat) :
    toNat (t ++ Decimal.zeros n) = toNat t * 10 ^ n := by
  rw [toNat_append, toNat_zeros, length_zeros, Nat.add_zero]

end Text

/-! ## Digits in front of a point -/

/-- A run of decimal digits. -/
def AreDigits (t : Text) : Prop := ∀ c ∈ t, c.isDigit = true

theorem AreDigits.append {s t : Text} (hs : AreDigits s) (ht : AreDigits t) :
    AreDigits (s ++ t) := by
  intro c hc
  rcases List.mem_append.mp hc with hc | hc
  · exact hs c hc
  · exact ht c hc

theorem AreDigits.zeros (n : Nat) : AreDigits (Decimal.zeros n) := by
  intro c hc
  rw [List.eq_of_mem_replicate hc]
  rfl

/-- Digits of which the first is a zero only if it is the only one. -/
structure IsWholePart (t : Text) : Prop where
  ne_nil : t ≠ []
  digits : AreDigits t
  lone : t.head? = some '0' → t = ['0']

/-- A single zero is not idle. -/
theorem isWholePart_zero : IsWholePart ['0'] :=
  ⟨List.cons_ne_nil _ _, by simp [AreDigits], fun _ => rfl⟩

/-- The digits of a number do not begin with an idle zero. -/
theorem isWholePart_ofNat (n : Nat) : IsWholePart (Text.ofNat n) := by
  fun_induction Text.ofNat n with
  | case1 n hsmall =>
    refine ⟨List.cons_ne_nil _ _, ?_, ?_⟩
    · intro c hc
      rw [List.mem_singleton.mp hc]
      exact Text.isDigit_digit n
    · intro hhead
      rw [List.head?_cons, Option.some.injEq] at hhead
      rw [hhead]
  | case2 n hlarge ih =>
    refine ⟨by simp, ?_, ?_⟩
    · apply ih.digits.append
      intro c hc
      rw [List.mem_singleton.mp hc]
      exact Text.isDigit_digit n
    · intro hhead
      rw [List.head?_append_of_ne_nil _ ih.ne_nil] at hhead
      -- A single zero would be all of the other digits, and they denote a positive number.
      have hvalue := Text.toNat_ofNat (n / 10)
      rw [ih.lone hhead] at hvalue
      have hzero : Text.toNat ['0'] = 0 := rfl
      omega

/-- The digits of a positive number do not begin with a zero. -/
theorem head?_ofNat_ne_zero {n : Nat} (h : n ≠ 0) : (Text.ofNat n).head? ≠ some '0' := by
  intro hhead
  have hvalue := Text.toNat_ofNat n
  rw [(isWholePart_ofNat n).lone hhead] at hvalue
  exact h hvalue.symm

/-- Digits that do not begin with a zero may be cut short or continued. -/
theorem isWholePart_of_head? {t : Text} (hne : t ≠ []) (hdigits : AreDigits t)
    (hhead : t.head? ≠ some '0') : IsWholePart t :=
  ⟨hne, hdigits, fun h => absurd h hhead⟩

/-! ## The parts of a decimal number -/

namespace Decimal

/-- A positive decimal number is laid out in a whole part and a fraction.  There is a fraction
exactly if its units are smaller than one, and both parts together denote its digits. -/
theorem exists_parts {d : Decimal} (h : d.digits ≠ 0) :
    ∃ whole fraction, d.parts = (whole, fraction) ∧ IsWholePart whole ∧ AreDigits fraction ∧
      Text.toNat (whole ++ fraction) = d.digits * 10 ^ d.exponent.toNat ∧
        fraction.length = (-d.exponent).toNat := by
  have hdigits := isWholePart_ofNat d.digits
  have hhead := head?_ofNat_ne_zero h
  unfold parts
  simp only
  by_cases hexponent : 0 ≤ d.exponent
  · rw [if_pos hexponent]
    refine ⟨_, _, rfl, ?_, by simp [AreDigits], ?_, ?_⟩
    · apply isWholePart_of_head?
      · simp [hdigits.ne_nil]
      · exact hdigits.digits.append (AreDigits.zeros _)
      · rwa [List.head?_append_of_ne_nil _ hdigits.ne_nil]
    · rw [List.append_nil, Text.toNat_append_zeros, Text.toNat_ofNat]
    · rw [List.length_nil]
      omega
  · have hzero : d.exponent.toNat = 0 := by omega
    rw [if_neg hexponent, hzero, Nat.pow_zero, Nat.mul_one]
    by_cases hlength : (Text.ofNat d.digits).length ≤ (-d.exponent).toNat
    · rw [if_pos hlength]
      refine ⟨_, _, rfl, isWholePart_zero, (AreDigits.zeros _).append hdigits.digits, ?_, ?_⟩
      · rw [List.singleton_append, ← List.cons_append]
        exact (Text.toNat_zeros_append (_ + 1) _).trans (Text.toNat_ofNat _)
      · rw [List.length_append, Text.length_zeros]
        omega
    · rw [if_neg hlength]
      refine ⟨_, _, rfl, ?_, ?_, ?_, ?_⟩
      · apply isWholePart_of_head?
        · rw [Ne, List.take_eq_nil_iff, not_or]
          exact ⟨by omega, hdigits.ne_nil⟩
        · exact fun c hc => hdigits.digits c (List.mem_of_mem_take hc)
        · rw [List.head?_take]
          split
          · simp
          · exact hhead
      · exact fun c hc => hdigits.digits c (List.mem_of_mem_drop hc)
      · rw [List.take_append_drop, Text.toNat_ofNat]
      · rw [List.length_drop]
        omega

/-- The digits of a fraction behind a point; without digits there is no point. -/
def pointed : Text → Text
  | [] => []
  | c :: ds => '.' :: c :: ds

/-- A positive decimal number is laid out around a point. -/
theorem exists_positional_eq {d : Decimal} (h : d.digits ≠ 0) :
    ∃ whole fraction, d.positional = whole ++ pointed fraction ∧ IsWholePart whole ∧
      AreDigits fraction ∧ Text.toNat (whole ++ fraction) = d.digits * 10 ^ d.exponent.toNat ∧
        fraction.length = (-d.exponent).toNat := by
  rcases exists_parts h with ⟨whole, fraction, hparts, hwhole, hdigits, hvalue, hlength⟩
  refine ⟨whole, fraction, ?_, hwhole, hdigits, hvalue, hlength⟩
  rw [positional, hparts]
  cases fraction with
  | nil => simp [pointed]
  | cons c fraction => rfl

end Decimal

end RaidTimeline
