import RaidTimeline.Proofs.PrintedStrings

/-!
# Printed numbers

A number without a sign is printed with digits and at most one point.  A whole number has all the
digits of its value and no point, unless a fraction is asked for; every other number has a point,
since a decimal number without a fraction is rounded to a whole number.  Where neither a digit nor
a point follows the printed number, it is read back as one token, and denotes the same number.

Main results:

- Theorem {lit}`Binary64.dvd_units_of_ofRatio_one`: whole numbers are rounded to whole numbers.
- Theorem {lit}`exists_plain_eq`: numbers that are not whole have a fraction.
- Definition {lit}`SpellsExactly`: what a printed number is made of, and how it is read.
- Theorem {lit}`printedNumbers_exact`: numbers and times are spelt exactly.
-/

namespace RaidTimeline

attribute [local instance] corePow

/-! ## Whole numbers -/

namespace Binary64

variable {negative : Bool} {num den n : Nat} {v : Finite}

/-- A number that fits into the format is its mantissa times a power of two. -/
theorem units_of_ofScaled {mantissa shift : Nat}
    (h : ofScaled negative mantissa shift = .finite v) : v.units = mantissa * 2 ^ shift := by
  unfold ofScaled at h
  split at h
  · rw [← finite.inj h]
    rfl
  · contradiction

/-- A rounded quotient is the quotient in units of some power of two. -/
theorem exists_units_of_ofRatio (h : ofRatio negative num den = .finite v) :
    ∃ shift, v.units = roundDiv (num * 2 ^ fineness) (den * 2 ^ shift) * 2 ^ shift := by
  simp only [ofRatio] at h
  refine ⟨shiftFor (num * 2 ^ fineness / den), ?_⟩
  split at h
  · next hcarry =>
    rw [units_of_ofScaled h, hcarry, Nat.pow_succ]
    omega
  · exact units_of_ofScaled h

/-- A whole number is rounded to a whole number. -/
theorem dvd_units_of_ofRatio_one (h : ofRatio negative n 1 = .finite v) :
    2 ^ fineness ∣ v.units := by
  rcases exists_units_of_ofRatio h with ⟨shift, hunits⟩
  rw [hunits, Nat.one_mul]
  rcases Nat.le_total shift fineness with hle | hle
  · -- The number is a multiple of the unit, and nothing is rounded.
    have hmultiple : n * 2 ^ fineness = n * 2 ^ (fineness - shift) * 2 ^ shift := by
      rw [Nat.mul_assoc, ← Nat.pow_add, Nat.sub_add_cancel hle]
    rw [hmultiple, roundDiv_mul_self (Nat.two_pow_pos shift), ← hmultiple]
    exact Nat.dvd_mul_left _ _
  · exact Nat.dvd_mul_left_of_dvd (Nat.pow_dvd_pow 2 hle) _

/-- A decimal number without a fraction denotes a whole number. -/
theorem dvd_units_of_ofDecimal {d : Decimal} (hd : d.digits ≠ 0) (hexponent : 0 ≤ d.exponent)
    (h : ofDecimal negative d = .finite v) : 2 ^ fineness ∣ v.units := by
  have hden : (-d.exponent).toNat = 0 := by omega
  rw [ofDecimal_eq_ofRatio hd, hden, Nat.pow_zero] at h
  exact dvd_units_of_ofRatio_one h

/-- A whole number is a multiple of the unit. -/
theorem Finite.isWhole_iff : v.isWhole = true ↔ ∃ n : Nat, v.units = n * 2 ^ fineness := by
  rw [isWhole, beq_iff_eq, ← Nat.dvd_iff_mod_eq_zero]
  constructor
  · rintro ⟨n, hn⟩
    exact ⟨n, by rw [hn, Nat.mul_comm]⟩
  · rintro ⟨n, hn⟩
    exact ⟨n, by rw [hn, Nat.mul_comm]⟩

end Binary64

/-! ## Digits around a point -/

section

variable {t : Text}

theorem AreDigits.point_not_mem (h : AreDigits t) : '.' ∉ t := by
  intro hmem
  have hdigit := h _ hmem
  contradiction

/-- A numeral is made up of digits and points. -/
theorem IsNumeral.isDigit_or_point (h : IsNumeral t) : ∀ c ∈ t, c.isDigit = true ∨ c = '.' := by
  cases h with
  | whole hw => exact fun c hc => Or.inl (hw.digits c hc)
  | point hw hf _ =>
    rw [List.forall_mem_append, List.forall_mem_cons]
    exact ⟨fun c hc => Or.inl (hw.digits c hc), Or.inr rfl, fun c hc => Or.inl (hf c hc)⟩

/-- A numeral has at most one point. -/
theorem IsNumeral.count_point_le (h : IsNumeral t) : t.count '.' ≤ 1 := by
  have hnone : ∀ {w : Text}, AreDigits w → w.count '.' = 0 :=
    fun hw => List.count_eq_zero.mpr hw.point_not_mem
  cases h with
  | whole hw => simp [hnone hw.digits]
  | point hw hf _ => simp [hnone hw.digits, hnone hf]

end

section

variable {v : Binary64.Finite}

/-- Numbers that are not whole have a fraction. -/
theorem exists_plain_eq (hsign : v.negative = false) (hwhole : v.isWhole = false) :
    ∃ w f, Binary64.plain (.finite v) = w ++ '.' :: f ∧ AreDigits w ∧ AreDigits f ∧ f ≠ [] := by
  have hmantissa : v.mantissa ≠ 0 := by
    intro hzero
    simp [Binary64.Finite.isWhole, Binary64.Finite.units, hzero] at hwhole
  have hdigits := Binary64.Finite.digits_shortest_ne_zero hmantissa
  rcases Decimal.exists_positional_eq hdigits with ⟨w, f, htext, hw, hf, -, hlength⟩
  have hfraction : f ≠ [] := by
    rintro rfl
    rw [List.length_nil] at hlength
    have hdvd := Binary64.dvd_units_of_ofDecimal hdigits (by omega) v.ofDecimal_shortest
    rw [Binary64.Finite.isWhole, Nat.mod_eq_zero_of_dvd hdvd] at hwhole
    contradiction
  refine ⟨w, f, ?_, hw.digits, hf, hfraction⟩
  rcases List.exists_cons_of_ne_nil hfraction with ⟨c, ds, rfl⟩
  rw [Decimal.pointed] at htext
  simpa [Binary64.plain, Binary64.sign, hsign] using htext

/-- A time has digits behind a point. -/
theorem exists_timeText_eq (hsign : v.negative = false) :
    ∃ w f, timeText (.finite v) = w ++ '.' :: f ∧ AreDigits w ∧ AreDigits f ∧ f ≠ [] := by
  cases hwhole : v.isWhole with
  | false => simpa [timeText, hwhole] using exists_plain_eq hsign hwhole
  | true =>
    refine ⟨Text.ofNat v.whole, ['0'], ?_, (isWholePart_ofNat _).digits, AreDigits.zeros 1,
      List.cons_ne_nil _ _⟩
    simp [timeText, hwhole, wholeText, Binary64.sign, hsign]

/-- A number has a point exactly if it is not whole. -/
theorem point_mem_numberText_iff (hsign : v.negative = false) :
    '.' ∈ numberText (.finite v) ↔ v.isWhole = false := by
  cases hwhole : v.isWhole with
  | false =>
    rcases exists_plain_eq hsign hwhole with ⟨w, f, htext, -⟩
    simp [numberText, hwhole, htext]
  | true =>
    have hnone := (isWholePart_ofNat v.whole).digits.point_not_mem
    simp [numberText, hwhole, wholeText, Binary64.sign, hsign, hnone]

end

/-! ## Reading printed numbers -/

/-- Line ends in normal form do not make a number go on. -/
theorem EndsNumber.foldLineEnds {s : Text} (h : EndsNumber s) :
    EndsNumber (Text.foldLineEnds s) := by
  fun_cases Text.foldLineEnds s with
  | case1 => exact h
  | case2 rest =>
    rintro c ⟨⟩
    decide
  | case3 c rest _ =>
    rintro d ⟨⟩
    split
    · decide
    · exact h c rfl

/-- A text of digits and at most one point is the first token of every source text in which
neither a digit nor a point follows it, and the token denotes a number. -/
structure SpellsExactly (text : Text) (v : Binary64.Finite) : Prop where
  isDigit_or_point : ∀ c ∈ text, c.isDigit = true ∨ c = '.'
  count_point_le : text.count '.' ≤ 1
  isFirst : ∀ (w : Vocabulary) (suffix : Text), EndsNumber suffix →
    let t := (Lexer.ofSource w (text ++ suffix)).next.1
    t.kind = .number ∧ t.raw = text ∧ t.span.start = 0 ∧ t.span.stop = text.length ∧
      t.toNumber.value = .finite v

/-- A numeral spells the number that it denotes. -/
theorem IsNumeral.spellsExactly {text : Text} {v : Binary64.Finite} (h : IsNumeral text)
    (hvalue : Binary64.ofLiteral text = .finite v) : SpellsExactly text v := by
  refine ⟨h.isDigit_or_point, h.count_point_le, fun w suffix hsuffix => ?_⟩
  have hhead : ∀ c ∈ text.head?, isLayout c = false ∧ c ≠ byteOrderMark := by
    rcases h.exists_head with ⟨d, rest, rfl, hd⟩
    rintro c ⟨⟩
    have hword := isWord_of_isDigit hd
    exact ⟨isLayout_of_isWord hword, ne_of_isWord hword isWord_byteOrderMark⟩
  have hfound := h.recognise?_append hsuffix.foldLineEnds w
  rw [Lexer.next_ofSource_append h.ne_nil h.not_mem hhead hfound]
  exact ⟨rfl, rfl, rfl, rfl, hvalue⟩

/-- Numbers without a sign are printed with digits and at most one point and read back exactly.
Times always have a fraction, and numbers have one exactly if they are not whole. -/
theorem printedNumbers_exact {v : Binary64.Finite} (hsign : v.negative = false) :
    SpellsExactly (numberText (.finite v)) v ∧ SpellsExactly (timeText (.finite v)) v ∧
      (∃ w f, timeText (.finite v) = w ++ '.' :: f ∧ AreDigits w ∧ AreDigits f ∧ f ≠ []) ∧
      ('.' ∈ numberText (.finite v) ↔ ¬∃ n : Nat, v.units = n * 2 ^ Binary64.fineness) := by
  rcases numberText_spec hsign with ⟨hnumber, hvalue⟩
  rcases timeText_spec hsign with ⟨htime, htimeValue⟩
  refine ⟨hnumber.spellsExactly hvalue, htime.spellsExactly htimeValue, exists_timeText_eq hsign,
    ?_⟩
  rw [point_mem_numberText_iff hsign, ← Binary64.Finite.isWhole_iff, Bool.not_eq_true]

/-- The half is printed with a point, and the letter behind it is not read with it. -/
theorem printedNumbers_exact_half :
    let half : Binary64.Finite := ⟨false, 2 ^ 52, 1021, by decide, by decide, Or.inr (by decide)⟩
    half.negative = false ∧ numberText (.finite half) = "0.5".toList ∧
      (Lexer.ofSource .default ("0.5".toList ++ "s".toList)).next.1.raw = "0.5".toList ∧
      ¬∃ n : Nat, half.units = n * 2 ^ Binary64.fineness := by
  intro half
  have htext : numberText (.finite half) = "0.5".toList := by
    decide +kernel
  rcases printedNumbers_exact (v := half) rfl with ⟨⟨-, -, hread⟩, -, -, hpoint⟩
  have hraw := (hread .default "s".toList (by simp [EndsNumber])).2.1
  rw [htext] at hraw hpoint
  exact ⟨rfl, htext, hraw, hpoint.mp (by decide)⟩

end RaidTimeline
