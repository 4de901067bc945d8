import Mathlib.Tactic.IntervalCases
import RaidTimeline.Text.Utf8

/-!
# UTF-8 is read back

The octets of a text are read as the text.  A first octet says how many octets follow, and in which
range the next of them lies; every octet that follows contributes six bits.

Main results:

- Theorems {lit}`Text.decodeFrom_continue` and {lit}`Text.decodeFrom_last`: what an octet behind a
  first one does.
- Theorem {lit}`Text.decodeFrom_encodeChar`: the octets of a character are read as the character.
- Theorem {lit}`Text.decode_encode`: the octets of a text are read as the text.
-/

namespace RaidTimeline.Text

/-! ## Octets -/

/-- A small number is kept by its octet. -/
theorem toNat_toUInt8 {n : Nat} (h : n < 0x100) : n.toUInt8.toNat = n := by
  rw [Nat.toUInt8, UInt8.toNat_ofNat']
  exact Nat.mod_eq_of_lt h

/-- The code of a character is that of no surrogate. -/
theorem toNat_isValid (c : Char) : c.toNat < 0xD800 ∨ 0xDFFF < c.toNat ∧ c.toNat < 0x110000 :=
  c.valid

/-! ## One octet -/

section

variable {offset : Nat} {first : UInt8} {seen missing low high code : Nat} {b : UInt8}
  {rest : List UInt8}

/-- An octet below the first code of two octets is a character. -/
theorem decodeFrom_small (h : b.toNat < 0x80) :
    decodeFrom offset first seen 0 low high code (b :: rest) =
      (decodeFrom (offset + 1) first 0 0 0 0 0 rest).map (Char.ofNat b.toNat :: ·) := by
  rw [decodeFrom, if_pos rfl, if_pos h]

/-- The first octet of a longer code. -/
theorem decodeFrom_first {count low' high' : Nat} (h : 0x80 ≤ b.toNat)
    (hcount : continuationsOf b.toNat = some (count, low', high')) :
    decodeFrom offset first seen 0 low high code (b :: rest) =
      decodeFrom offset b 1 count low' high' (leadingBits b.toNat) rest := by
  rw [decodeFrom, if_pos rfl, if_neg (by omega), hcount]

/-- An octet that is not the last one of its code contributes six bits. -/
theorem decodeFrom_continue (hmissing : 2 ≤ missing) (hlow : low ≤ b.toNat)
    (hhigh : b.toNat ≤ high) :
    decodeFrom offset first seen missing low high code (b :: rest) =
      decodeFrom offset first (seen + 1) (missing - 1) 0x80 0xBF (code * 0x40 + b.toNat % 0x40)
        rest := by
  rw [decodeFrom, if_neg (by omega), if_pos ⟨hlow, hhigh⟩, if_neg (by omega)]

/-- The last octet of a code contributes six bits, and the code is complete. -/
theorem decodeFrom_last (hlow : low ≤ b.toNat) (hhigh : b.toNat ≤ high) :
    decodeFrom offset first seen 1 low high code (b :: rest) =
      (decodeFrom (offset + seen + 1) first 0 0 0 0 0 rest).map
        (Char.ofNat (code * 0x40 + b.toNat % 0x40) :: ·) := by
  rw [decodeFrom, if_neg (by decide), if_pos ⟨hlow, hhigh⟩, if_pos rfl]

end

/-! ## First octets -/

/-- The first octet of two. -/
theorem continuationsOf_two {n : Nat} (hlow : 0x80 ≤ n) (hhigh : n < 0x800) :
    continuationsOf (0xC0 + n / 0x40) = some (1, 0x80, 0xBF) := by
  unfold continuationsOf
  have h1 : 0xC2 ≤ 0xC0 + n / 0x40 := by omega
  have h2 : 0xC0 + n / 0x40 ≤ 0xDF := by omega
  simp [h1, h2]

/-- The first octet of three says in which range the second one lies: above the codes of two
octets, and outside the surrogates. -/
theorem continuationsOf_three {n : Nat} (hlow : 0x800 ≤ n) (hhigh : n < 0x10000)
    (hvalid : n < 0xD800 ∨ 0xDFFF < n) :
    ∃ low high, continuationsOf (0xE0 + n / 0x1000) = some (2, low, high) ∧
      low ≤ 0x80 + n / 0x40 % 0x40 ∧ 0x80 + n / 0x40 % 0x40 ≤ high := by
  have hlead : n / 0x1000 < 16 := by omega
  generalize hq : n / 0x1000 = q at hlead ⊢
  by_cases h0 : q = 0
  · exact ⟨0xA0, 0xBF, by rw [h0]; rfl, by omega, by omega⟩
  by_cases hd : q = 0xD
  · exact ⟨0x80, 0x9F, by rw [hd]; rfl, by omega, by omega⟩
  · refine ⟨0x80, 0xBF, ?_, by omega, by omega⟩
    interval_cases q <;> first | rfl | contradiction

/-- The first octet of four says in which range the second one lies: above the codes of three
octets, and within the codes of characters. -/
theorem continuationsOf_four {n : Nat} (hlow : 0x10000 ≤ n) (hhigh : n < 0x110000) :
    ∃ low high, continuationsOf (0xF0 + n / 0x40000) = some (3, low, high) ∧
      low ≤ 0x80 + n / 0x1000 % 0x40 ∧ 0x80 + n / 0x1000 % 0x40 ≤ high := by
  have hlead : n / 0x40000 < 5 := by omega
  generalize hq : n / 0x40000 = q at hlead ⊢
  by_cases h0 : q = 0
  · exact ⟨0x90, 0xBF, by rw [h0]; rfl, by omega, by omega⟩
  by_cases h4 : q = 4
  · exact ⟨0x80, 0x8F, by rw [h4]; rfl, by omega, by omega⟩
  · refine ⟨0x80, 0xBF, ?_, by omega, by omega⟩
    interval_cases q <;> first | rfl | contradiction

/-! ## Characters and texts -/

/-- The octets of a character are read as the character. -/
theorem decodeFrom_encodeChar (offset : Nat) (first : UInt8) (c : Char) (rest : List UInt8) :
    ∃ offset' first', decodeFrom offset first 0 0 0 0 0 (encodeChar c ++ rest) =
      (decodeFrom offset' first' 0 0 0 0 0 rest).map (c :: ·) := by
  have hvalid := toNat_isValid c
  have hchar := Char.ofNat_toNat c
  unfold encodeChar
  generalize c.toNat = n at hvalid hchar ⊢
  simp only
  split_ifs with h1 h2 h3
  · have hb : n.toUInt8.toNat = n := toNat_toUInt8 (by omega)
    refine ⟨offset + 1, first, ?_⟩
    rw [List.singleton_append, decodeFrom_small (by omega), hb, hchar]
  · have hb : (0xC0 + n / 0x40).toUInt8.toNat = 0xC0 + n / 0x40 := toNat_toUInt8 (by omega)
    have hb' : (0x80 + n % 0x40).toUInt8.toNat = 0x80 + n % 0x40 := toNat_toUInt8 (by omega)
    have hbits : leadingBits (0xC0 + n / 0x40) * 0x40 + (0x80 + n % 0x40) % 0x40 = n := by
      unfold leadingBits
      split_ifs <;> omega
    have hcount := continuationsOf_two (n := n) (by omega) h2
    refine ⟨offset + 1 + 1, (0xC0 + n / 0x40).toUInt8, ?_⟩
    rw [List.cons_append, List.singleton_append,
      decodeFrom_first (by omega) (by rw [hb, hcount]), decodeFrom_last (by omega) (by omega), hb,
      hb', hbits, hchar]
  · rcases continuationsOf_three (n := n) (by omega) h3 (by omega) with
      ⟨low, high, hcount, hlow, hhigh⟩
    have hb : (0xE0 + n / 0x1000).toUInt8.toNat = 0xE0 + n / 0x1000 := toNat_toUInt8 (by omega)
    have hb' : (0x80 + n / 0x40 % 0x40).toUInt8.toNat = 0x80 + n / 0x40 % 0x40 :=
      toNat_toUInt8 (by omega)
    have hb'' : (0x80 + n % 0x40).toUInt8.toNat = 0x80 + n % 0x40 := toNat_toUInt8 (by omega)
    have hbits : (leadingBits (0xE0 + n / 0x1000) * 0x40 + (0x80 + n / 0x40 % 0x40) % 0x40) * 0x40
        + (0x80 + n % 0x40) % 0x40 = n := by
      unfold leadingBits
      split_ifs <;> omega
    refine ⟨offset + (1 + 1) + 1, (0xE0 + n / 0x1000).toUInt8, ?_⟩
    rw [List.cons_append, List.cons_append, List.singleton_append,
      decodeFrom_first (by omega) (by rw [hb, hcount]),
      decodeFrom_continue (by omega) (by omega) (by omega),
      decodeFrom_last (by omega) (by omega), hb, hb', hb'', hbits, hchar]
  · rcases continuationsOf_four (n := n) (by omega) (by omega) with ⟨low, high, hcount, hlow, hhigh⟩
    have hb : (0xF0 + n / 0x40000).toUInt8.toNat = 0xF0 + n / 0x40000 := toNat_toUInt8 (by omega)
    have hb' : (0x80 + n / 0x1000 % 0x40).toUInt8.toNat = 0x80 + n / 0x1000 % 0x40 :=
      toNat_toUInt8 (by omega)
    have hb'' : (0x80 + n / 0x40 % 0x40).toUInt8.toNat = 0x80 + n / 0x40 % 0x40 :=
      toNat_toUInt8 (by omega)
    have hb''' : (0x80 + n % 0x40).toUInt8.toNat = 0x80 + n % 0x40 := toNat_toUInt8 (by omega)
    have hbits : ((leadingBits (0xF0 + n / 0x40000) * 0x40
        + (0x80 + n / 0x1000 % 0x40) % 0x40) * 0x40 + (0x80 + n / 0x40 % 0x40) % 0x40) * 0x40
          + (0x80 + n % 0x40) % 0x40 = n := by
      unfold leadingBits
      split_ifs <;> omega
    refine ⟨offset + (1 + 1 + 1) + 1, (0xF0 + n / 0x40000).toUInt8, ?_⟩
    rw [List.cons_append, List.cons_append, List.cons_append, List.singleton_append,
      decodeFrom_first (by omega) (by rw [hb, hcount]),
      decodeFrom_continue (by omega) (by omega) (by omega),
      decodeFrom_continue (by omega) (by omega) (by omega),
      decodeFrom_last (by omega) (by omega), hb, hb', hb'', hb''', hbits, hchar]

/-- The octets of a text are read as the text. -/
theorem decode_encode (t : Text) : decode (encode t) = .ok t := by
  -- Between two characters only the offset and the last first octet are left of what was read.
  suffices h : ∀ offset first, decodeFrom offset first 0 0 0 0 0 (encode t) = .ok t from h 0 0
  induction t with
  | nil =>
    intro offset first
    rfl
  | cons c t ih =>
    intro offset first
    rcases decodeFrom_encodeChar offset first c (encode t) with ⟨offset', first', hchar⟩
    rw [encode, List.flatMap_cons]
    rw [encode] at hchar ih
    rw [hchar, ih]
    rfl

end RaidTimeline.Text
