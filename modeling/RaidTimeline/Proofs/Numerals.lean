import Mathlib.Data.List.TakeWhile
import RaidTimeline.Proofs.Digits
import RaidTimeline.Proofs.Rounding
import RaidTimeline.Timeline.Canonical

/-!
# Numbers in canonical timelines

The canonical text of a number is read as one literal, and the literal denotes the number.

Main results:

- Definitions {lit}`Separates` and {lit}`EndsNumber`: texts that go on with neither a word nor a
  fraction, and with neither a digit nor a point.
- Definition {lit}`IsNumeral`: a whole part, alone or with a fraction.
- Theorem {lit}`IsNumeral.numberLength?_append`: a numeral is read as one literal.
- Definition {lit}`IsNumberSpelling`: the spellings of numbers in canonical texts.
- Theorems {lit}`IsNumberSpelling.ofLiteral_eq` and {lit}`IsNumberSpelling.inj`: a finite number is
  denoted by its spelling, and different numbers are spelt differently.
-/

namespace RaidTimeline

/-! ## What may follow -/

/-- A text goes on with neither a word nor a fraction. -/
def Separates (rest : Text) : Prop := ∀ c ∈ rest.head?, isWord c = false ∧ c ≠ '.'

theorem isWord_of_isDigit {c : Char} (h : c.isDigit = true) : isWord c = true := by
  have hsmall : c.toNat < 0x80 := by
    simp only [Char.isDigit, Bool.and_eq_true, decide_eq_true_eq, UInt32.le_iff_toNat_le] at h
    exact Nat.lt_of_le_of_lt h.2 (by decide)
  simp [isWord, hsmall, Char.isAlphanum, h]

/-- A run of characters stops where none of them goes on. -/
theorem takeWhile_append_of_head? {p : Char → Bool} {t rest : Text} (ht : ∀ c ∈ t, p c = true)
    (h : ∀ c ∈ rest.head?, p c = false) : (t ++ rest).takeWhile p = t := by
  rw [List.takeWhile_append_of_pos ht]
  cases rest with
  | nil => simp
  | cons c rest =>
    have hc := h c rfl
    rw [List.takeWhile_cons_of_neg (by simp [hc]), List.append_nil]

namespace Separates

theorem nil : Separates [] := by
  simp [Separates]

theorem cons {c : Char} (hword : isWord c = false) (hpoint : c ≠ '.') (rest : Text) :
    Separates (c :: rest) := by
  simp [Separates, hword, hpoint]

/-- No word goes on. -/
theorem isWord_head {rest : Text} (h : Separates rest) : ∀ c ∈ rest.head?, isWord c = false :=
  fun c hc => (h c hc).1

/-- No digit goes on. -/
theorem isDigit_head {rest : Text} (h : Separates rest) : ∀ c ∈ rest.head?, c.isDigit = false := by
  intro c hc
  rw [← Bool.not_eq_true]
  intro hdigit
  have hword := h.isWord_head c hc
  rw [isWord_of_isDigit hdigit] at hword
  contradiction

end Separates

/-- A text goes on with neither a digit nor a point. -/
def EndsNumber (rest : Text) : Prop := ∀ c ∈ rest.head?, c.isDigit = false ∧ c ≠ '.'

/-- What separates words ends numbers. -/
theorem Separates.endsNumber {rest : Text} (h : Separates rest) : EndsNumber rest :=
  fun c hc => ⟨h.isDigit_head c hc, (h c hc).2⟩

/-- The digits in front of the end of a number are those of the number. -/
theorem EndsNumber.takeWhile_digits {t rest : Text} (ht : AreDigits t) (h : EndsNumber rest) :
    (t ++ rest).takeWhile Char.isDigit = t :=
  takeWhile_append_of_head? ht fun c hc => (h c hc).1

/-! ## Numerals -/

/-- A whole part, alone or with a fraction. -/
inductive IsNumeral : Text → Prop where
  | whole {w : Text} : IsWholePart w → IsNumeral w
  | point {w f : Text} : IsWholePart w → AreDigits f → f ≠ [] → IsNumeral (w ++ '.' :: f)

theorem fractionLength_of_endsNumber {rest : Text} (h : EndsNumber rest) :
    fractionLength rest = 0 := by
  unfold fractionLength
  split
  · exact absurd rfl (h '.' rfl).2
  · rfl

/-- A fraction is as long as its digits and the point. -/
theorem fractionLength_append {f rest : Text} (hf : AreDigits f) (hne : f ≠ [])
    (h : EndsNumber rest) : fractionLength ('.' :: f ++ rest) = f.length + 1 := by
  have hlength := List.length_pos_iff.mpr hne
  simp only [fractionLength, List.cons_append, h.takeWhile_digits hf]
  rw [if_neg (by omega)]

/-- A whole part is read up to a text that goes on with no digit. -/
theorem numberLength?_append_of_isWholePart {w tail : Text} (hw : IsWholePart w)
    (htail : (w ++ tail).takeWhile Char.isDigit = w) :
    numberLength? (w ++ tail) = some (w.length + fractionLength tail) := by
  rcases List.exists_cons_of_ne_nil hw.ne_nil with ⟨c, w, rfl⟩
  have hc : c.isDigit = true := hw.digits c List.mem_cons_self
  rw [List.cons_append, numberLength?]
  by_cases hzero : c = '0'
  · have hlone : c :: w = ['0'] := hw.lone (by rw [hzero, List.head?_cons])
    obtain rfl : w = [] := (List.cons.inj hlone).2
    rw [if_pos hzero]
    rfl
  · rw [if_neg hzero, if_pos hc]
    rw [List.cons_append, List.takeWhile_cons_of_pos hc, List.cons.injEq] at htail
    simp only [htail.2, List.drop_left, List.length_cons, Option.some.injEq]
    omega

namespace IsNumeral

theorem ne_nil {t : Text} (h : IsNumeral t) : t ≠ [] := by
  cases h with
  | whole hw => exact hw.ne_nil
  | point => simp

/-- A numeral is read as one literal. -/
theorem numberLength?_append {t rest : Text} (ht : IsNumeral t) (h : EndsNumber rest) :
    numberLength? (t ++ rest) = some t.length := by
  cases ht with
  | whole hw =>
    rw [numberLength?_append_of_isWholePart hw (h.takeWhile_digits hw.digits),
      fractionLength_of_endsNumber h, Nat.add_zero]
  | @point w f hw hf hne =>
    have hstop : (w ++ ('.' :: f ++ rest)).takeWhile Char.isDigit = w := by
      rw [List.takeWhile_append_of_pos hw.digits]
      simp
    rw [List.append_assoc, numberLength?_append_of_isWholePart hw hstop,
      fractionLength_append hf hne h, List.length_append, List.length_cons]

/-- There is no carriage return in a numeral. -/
theorem not_mem {t : Text} (h : IsNumeral t) : '\r' ∉ t := by
  have hdigits : ∀ {w : Text}, AreDigits w → '\r' ∉ w := by
    intro w hw hmem
    have hdigit := hw _ hmem
    contradiction
  cases h with
  | whole hw => exact hdigits hw.digits
  | point hw hf _ => simp [hdigits hw.digits, hdigits hf]

/-- A numeral is made up of word characters and points. -/
theorem isRun {t : Text} (h : IsNumeral t) : ∀ c ∈ t, isWord c = true ∨ c = '.' := by
  have hdigits : ∀ {w : Text}, AreDigits w → ∀ c ∈ w, isWord c = true ∨ c = '.' :=
    fun hw c hc => Or.inl (isWord_of_isDigit (hw c hc))
  cases h with
  | whole hw => exact hdigits hw.digits
  | point hw hf _ =>
    rw [List.forall_mem_append, List.forall_mem_cons]
    exact ⟨hdigits hw.digits, Or.inr rfl, hdigits hf⟩

/-- A numeral begins with a digit. -/
theorem exists_head {t : Text} (h : IsNumeral t) : ∃ c rest, t = c :: rest ∧ c.isDigit = true := by
  have hhead : ∀ {w : Text}, IsWholePart w → ∃ c rest, w = c :: rest ∧ c.isDigit = true := by
    intro w hw
    rcases List.exists_cons_of_ne_nil hw.ne_nil with ⟨c, w, rfl⟩
    exact ⟨c, w, rfl, hw.digits c List.mem_cons_self⟩
  cases h with
  | whole hw => exact hhead hw
  | point hw =>
    rcases hhead hw with ⟨c, rest, rfl, hc⟩
    exact ⟨c, _, rfl, hc⟩

end IsNumeral

namespace Binary64

/-- There is no point among digits. -/
theorem ne_point_of_areDigits {w : Text} (hw : AreDigits w) : ∀ c ∈ w, (c != '.') = true := by
  intro c hc
  rw [bne_iff_ne]
  rintro rfl
  exact absurd (hw _ hc) (by decide)

/-- A numeral without point stands for its digits. -/
theorem ofLiteral_of_isWholePart {w : Text} (hw : IsWholePart w) :
    ofLiteral w = ofDecimal false ⟨Text.toNat w, 0⟩ := by
  have hpoint := ne_point_of_areDigits hw.digits
  have htake : w.takeWhile (· != '.') = w := List.takeWhile_eq_self_iff.mpr hpoint
  have hdrop : w.dropWhile (· != '.') = [] := List.dropWhile_eq_nil_iff.mpr hpoint
  simp [ofLiteral, htake, hdrop, Decimal.ofParts]

/-- A numeral with a point stands for the decimal number of its two parts. -/
theorem ofLiteral_of_point {w : Text} (hw : IsWholePart w) (f : Text) :
    ofLiteral (w ++ '.' :: f) = ofDecimal false (Decimal.ofParts w f) := by
  have hpoint := ne_point_of_areDigits hw.digits
  simp [ofLiteral, List.takeWhile_append_of_pos hpoint, List.dropWhile_append_of_pos hpoint]

/-- A positive decimal number is laid out as a numeral that denotes it. -/
theorem positional_spec {d : Decimal} (h : d.digits ≠ 0) :
    IsNumeral d.positional ∧ ofLiteral d.positional = ofDecimal false d := by
  rcases Decimal.exists_positional_eq h with
    ⟨whole, fraction, htext, hwhole, hdigits, hvalue, hlength⟩
  rw [htext]
  rcases fraction with _ | ⟨c, fraction⟩
  · rw [List.length_nil] at hlength
    have hexponent : (0 : Int) + d.exponent.toNat = d.exponent := by omega
    rw [Decimal.pointed, List.append_nil]
    refine ⟨.whole hwhole, ?_⟩
    rw [List.append_nil] at hvalue
    rw [ofLiteral_of_isWholePart hwhole, hvalue, ofDecimal_rescale, hexponent]
  · have hzero : d.exponent.toNat = 0 := by
      rw [List.length_cons] at hlength
      omega
    have hexponent : -((c :: fraction).length : Int) = d.exponent := by
      rw [hlength]
      rw [List.length_cons] at hlength
      omega
    rw [hzero, Nat.pow_zero, Nat.mul_one] at hvalue
    rw [Decimal.pointed]
    refine ⟨.point hwhole hdigits (List.cons_ne_nil _ _), ?_⟩
    rw [ofLiteral_of_point hwhole, Decimal.ofParts, hvalue, hexponent]

end Binary64

/-! ## Canonical numbers -/

section

variable {v : Binary64.Finite}

/-- Numbers that are not whole are written with the fewest digits. -/
theorem plain_spec (hsign : v.negative = false) (hwhole : v.isWhole = false) :
    IsNumeral (Binary64.plain (.finite v)) ∧
      Binary64.ofLiteral (Binary64.plain (.finite v)) = .finite v := by
  have hshortest := v.ofDecimal_shortest
  rw [hsign] at hshortest
  have hmantissa : v.mantissa ≠ 0 := by
    intro hzero
    simp [Binary64.Finite.isWhole, Binary64.Finite.units, hzero] at hwhole
  have hspec := Binary64.positional_spec (Binary64.Finite.digits_shortest_ne_zero hmantissa)
  rw [hshortest] at hspec
  simpa [Binary64.plain, Binary64.sign, hsign] using hspec

/-- A canonical number is a numeral that denotes it. -/
theorem numberText_spec (hsign : v.negative = false) :
    IsNumeral (numberText (.finite v)) ∧
      Binary64.ofLiteral (numberText (.finite v)) = .finite v := by
  cases hwhole : v.isWhole with
  | false => simpa [numberText, hwhole] using plain_spec hsign hwhole
  | true =>
    have hpart := isWholePart_ofNat v.whole
    have hvalue := Binary64.Finite.ofDecimal_whole hwhole
    rw [hsign] at hvalue
    have htext : numberText (.finite v) = Text.ofNat v.whole := by
      simp [numberText, hwhole, wholeText, Binary64.sign, hsign]
    rw [htext]
    refine ⟨.whole hpart, ?_⟩
    rw [Binary64.ofLiteral_of_isWholePart hpart, Text.toNat_ofNat, hvalue]

/-- The canonical time of an entry is a numeral that denotes it. -/
theorem timeText_spec (hsign : v.negative = false) :
    IsNumeral (timeText (.finite v)) ∧
      Binary64.ofLiteral (timeText (.finite v)) = .finite v := by
  cases hwhole : v.isWhole with
  | false => simpa [timeText, hwhole] using plain_spec hsign hwhole
  | true =>
    have hpart := isWholePart_ofNat v.whole
    have hvalue := Binary64.Finite.ofDecimal_whole hwhole
    rw [hsign] at hvalue
    have htext : timeText (.finite v) = Text.ofNat v.whole ++ '.' :: ['0'] := by
      simp [timeText, hwhole, wholeText, Binary64.sign, hsign]
    rw [htext]
    refine ⟨.point hpart (AreDigits.zeros 1) (List.cons_ne_nil _ _), ?_⟩
    have htenfold : Text.toNat (Text.ofNat v.whole ++ ['0']) = v.whole * 10 ^ 1 := by
      rw [show ['0'] = Decimal.zeros 1 from rfl, Text.toNat_append_zeros, Text.toNat_ofNat]
    rw [Binary64.ofLiteral_of_point hpart, Decimal.ofParts, htenfold,
      Binary64.ofDecimal_rescale, ← hvalue]
    rfl

end

/-- Numbers without sign are spelt as numerals that denote them, or as a word. -/
structure IsNumberSpelling (spell : Binary64 → Text) : Prop where
  finite : ∀ {n : Binary64.Finite}, n.negative = false →
    IsNumeral (spell (.finite n)) ∧ Binary64.ofLiteral (spell (.finite n)) = .finite n
  infinite : spell (.infinite false) = "Infinity".toList

/-- Numbers are spelt so that they can be read back. -/
theorem isNumberSpelling_numberText : IsNumberSpelling numberText := ⟨numberText_spec, rfl⟩

/-- Times are spelt so that they can be read back. -/
theorem isNumberSpelling_timeText : IsNumberSpelling timeText := ⟨timeText_spec, rfl⟩

namespace IsNumberSpelling

variable {spell : Binary64 → Text} (h : IsNumberSpelling spell) {x : Binary64}
include h

/-- A number is spelt with word characters and points only. -/
theorem isRun (hx : x.HasSign false) : ∀ c ∈ spell x, isWord c = true ∨ c = '.' := by
  cases x with
  | nan => contradiction
  | finite n => exact (h.finite hx).1.isRun
  | infinite negative =>
    obtain rfl : negative = false := hx
    have hword : "Infinity".toList.all isWord = true := by decide +kernel
    rw [h.infinite]
    exact fun c hc => Or.inl (List.all_eq_true.mp hword c hc)

/-- A number begins with a digit or with the first letter of the word. -/
theorem exists_head (hx : x.HasSign false) :
    ∃ c rest, spell x = c :: rest ∧ (c.isDigit = true ∨ c = 'I') := by
  cases x with
  | nan => contradiction
  | finite n =>
    rcases (h.finite hx).1.exists_head with ⟨c, rest, htext, hc⟩
    exact ⟨c, rest, htext, Or.inl hc⟩
  | infinite negative =>
    obtain rfl : negative = false := hx
    exact ⟨'I', "nfinity".toList, h.infinite, Or.inr rfl⟩

/-- A finite number is denoted by its spelling. -/
theorem ofLiteral_eq (hx : x.HasSign false) (hfinite : x.isFinite = true) :
    Binary64.ofLiteral (spell x) = x := by
  cases x with
  | nan | infinite => contradiction
  | finite n => exact (h.finite hx).2

/-- Numbers of one spelling are the same. -/
theorem inj {y : Binary64} (hx : x.HasSign false) (hy : y.HasSign false)
    (heq : spell x = spell y) : x = y := by
  have hword : ∀ {n : Binary64.Finite}, n.negative = false →
      spell (.finite n) ≠ spell (.infinite false) := by
    intro n hn hsame
    rcases (h.finite hn).1.exists_head with ⟨c, rest, htext, hc⟩
    rw [htext, h.infinite] at hsame
    obtain rfl : c = 'I' := (List.cons.inj hsame).1
    contradiction
  cases x with
  | nan => contradiction
  | finite n =>
    cases y with
    | nan => contradiction
    | finite m => rw [← (h.finite hx).2, heq, (h.finite hy).2]
    | infinite negative =>
      obtain rfl : negative = false := hy
      exact absurd heq (hword hx)
  | infinite negative =>
    obtain rfl : negative = false := hx
    cases y with
    | nan => contradiction
    | finite m => exact absurd heq.symm (hword hy)
    | infinite negative => rw [show negative = false from hy]

end IsNumberSpelling

/-- Numbers of one sign are the same number only if they are equal. -/
theorem sameNumber_iff {x y : Binary64} (hx : x.HasSign false) (hy : y.HasSign false) :
    sameNumber x y = true ↔ x = y := by
  cases x with
  | nan => contradiction
  | infinite => cases y <;> simp [sameNumber]
  | finite a =>
    cases y with
    | nan => contradiction
    | infinite => simp [sameNumber]
    | finite b =>
      simp only [sameNumber, Bool.or_eq_true, Bool.and_eq_true, beq_iff_eq,
        Binary64.finite.injEq]
      refine ⟨?_, Or.inr⟩
      rintro (⟨ha, hb⟩ | heq)
      · have hzero : ∀ {v : Binary64.Finite}, v.mantissa = 0 → v.units = 0 := by
          intro v hv
          rw [Binary64.Finite.units, hv, Nat.zero_mul]
        have heq := Binary64.finite_eq_zero (hzero ha)
        rw [show a.negative = b.negative from hx.trans hy.symm,
          ← Binary64.finite_eq_zero (hzero hb)] at heq
        exact Binary64.finite.inj heq
      · exact heq

end RaidTimeline
