import RaidTimeline.Number.Decimal

/-!
# Exact binary floating point numbers

A finite number of the 64-bit binary format is a mantissa of at most 53 bits times a power of
two.  Numbers are kept as that pair, so that every value has exactly one representation and
equality of values is equality of representations.

Main results:

- Definition {lit}`Binary64.ofRatio`: the nearest number to a quotient, ties to even.
- Definition {lit}`Binary64.ofDecimal`: the nearest number to a decimal number.
-/

namespace RaidTimeline

/-- Powers of natural numbers are the ones of the core library, whatever else is imported. -/
local instance (priority := high) corePow : Pow Nat Nat := instPowNat

/-- The number of halvings that turn one into the smallest positive number of the format. -/
def Binary64.fineness : Nat := 1074

/-- A signed finite number {lit}`mantissa * 2 ^ shift / 2 ^ 1074`.  A nonzero shift needs a full
mantissa, which makes the representation unique. -/
structure Binary64.Finite where
  negative : Bool
  mantissa : Nat
  shift : Nat
  mantissa_lt : mantissa < 2 ^ (53 : Nat)
  shift_le : shift ≤ 2045
  full : shift = 0 ∨ 2 ^ (52 : Nat) ≤ mantissa
deriving DecidableEq

/-- A number of the 64-bit binary format, or one of its three special values. -/
inductive Binary64 where
  | nan
  | infinite (negative : Bool)
  | finite (value : Binary64.Finite)
deriving DecidableEq

namespace Binary64

/-- The zero of either sign. -/
def zero (negative : Bool) : Binary64 :=
  .finite ⟨negative, 0, 0, by decide, by decide, Or.inl rfl⟩

instance : Inhabited Binary64 := ⟨zero false⟩

/-- The quotient of two natural numbers, rounded to the nearest; a tie goes to the even one. -/
def roundDiv (num den : Nat) : Nat :=
  let q := num / den
  let r := num % den
  if 2 * r < den then q else if den < 2 * r then q + 1 else q + q % 2

/-- The number with a given mantissa and shift; what lies beyond the format is infinite. -/
def ofScaled (negative : Bool) (mantissa shift : Nat) : Binary64 :=
  if h : mantissa < 2 ^ (53 : Nat) ∧ shift ≤ 2045 ∧ (shift = 0 ∨ 2 ^ (52 : Nat) ≤ mantissa) then
    .finite ⟨negative, mantissa, shift, h.1, h.2.1, h.2.2⟩
  else .infinite negative

/-- The shift at which a number of smallest units has a mantissa of at most 53 bits. -/
def shiftFor (units : Nat) : Nat := if units < 2 ^ (53 : Nat) then 0 else units.log2 - 52

/-- The nearest number to the quotient of two natural numbers, ties to the even mantissa. -/
def ofRatio (negative : Bool) (num den : Nat) : Binary64 :=
  let scaled := num * 2 ^ fineness
  let shift := shiftFor (scaled / den)
  let mantissa := roundDiv scaled (den * 2 ^ shift)
  if mantissa = 2 ^ (53 : Nat) then ofScaled negative (2 ^ (52 : Nat)) (shift + 1)
  else ofScaled negative mantissa shift

/-- The nearest number to a decimal number.  Exponents far beyond the format are settled without
computing the power of ten: from {lit}`10 ^ 400` on all is infinite, and below
{lit}`10 ^ -400` all is zero. -/
def ofDecimal (negative : Bool) (d : Decimal) : Binary64 :=
  if d.digits = 0 then zero negative
  else if 400 < d.exponent then .infinite negative
  else if d.exponent < -((d.digits.log2 : Int) + 401) then zero negative
  else if 0 ≤ d.exponent then ofRatio negative (d.digits * 10 ^ d.exponent.toNat) 1
  else ofRatio negative d.digits (10 ^ (-d.exponent).toNat)

/-- The number that an unsigned literal denotes: digits with at most one point. -/
def ofLiteral (t : Text) : Binary64 :=
  let whole := t.takeWhile (· != '.')
  let fraction := (t.dropWhile (· != '.')).drop 1
  ofDecimal false (Decimal.ofParts whole fraction)

/-- The number that a text denotes: a decimal number, {lit}`inf` or {lit}`nan`, each with an
optional sign. -/
def ofText? (t : Text) : Option Binary64 :=
  let (negative, word) := Decimal.spanSign t
  if word = "nan".toList then some .nan
  else if word = "inf".toList then some (.infinite negative)
  else (Decimal.read? t).map fun (negative, d) => ofDecimal negative d

namespace Finite

/-- The value of a finite number in smallest units. -/
def units (v : Finite) : Nat := v.mantissa * 2 ^ v.shift

/-- Whether a finite number has no fraction. -/
def isWhole (v : Finite) : Bool := v.units % 2 ^ fineness == 0

/-- The whole part of the absolute value. -/
def whole (v : Finite) : Nat := v.units / 2 ^ fineness

/-- The exact value as a decimal number: halving {lit}`n` times is multiplying by
{lit}`5 ^ n` and moving the point {lit}`n` places. -/
def exact (v : Finite) : Decimal := ⟨v.units * 5 ^ fineness, -(fineness : Int)⟩

end Finite

/-- The number of the opposite sign. -/
def negate : Binary64 → Binary64
  | .nan => .nan
  | .infinite negative => .infinite !negative
  | .finite v => .finite { v with negative := !v.negative }

/-- The sum of the absolute value of a number and a whole number, rounded to the nearest. -/
def plusWhole (x : Binary64) (n : Nat) : Binary64 :=
  match x with
  | .finite v => ofRatio false (v.units + n * 2 ^ fineness) (2 ^ fineness)
  | .infinite _ => .infinite false
  | .nan => .nan

/-- Whether a number is neither infinite nor undefined. -/
def isFinite : Binary64 → Bool
  | .finite _ => true
  | _ => false

end Binary64

end RaidTimeline
