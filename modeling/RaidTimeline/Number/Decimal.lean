import RaidTimeline.Text.Basic

/-!
# Decimal numbers

A decimal number is a natural number of units, each unit a power of ten.  Two layouts are
written: positional, and with an exponent.

Main results:

- Definition {lit}`Decimal.read?`: the decimal number that a text denotes, with its sign.
- Definitions {lit}`Decimal.positional` and {lit}`Decimal.scientific`: the two layouts.
-/

namespace RaidTimeline

/-- The number {lit}`digits * 10 ^ exponent`. -/
structure Decimal where
  digits : Nat
  exponent : Int
deriving DecidableEq, Repr

namespace Decimal

/-- Moves trailing zeros of a nonzero number of units into the exponent. -/
def trimAux (digits : Nat) (exponent : Int) : Decimal :=
  if digits = 0 ∨ digits % 10 ≠ 0 then ⟨digits, exponent⟩
  else trimAux (digits / 10) (exponent + 1)
termination_by digits
decreasing_by omega

/-- The same number with the fewest digits. -/
def trim (d : Decimal) : Decimal := trimAux d.digits d.exponent

/-- How many places lie before the decimal point; negative if zeros follow the point. -/
def point (d : Decimal) : Int := (Text.ofNat d.digits).length + d.exponent

/-- A run of zeros. -/
def zeros (n : Nat) : Text := List.replicate n '0'

/-- The whole part and the fraction, without exponent; the fraction may be empty. -/
def parts (d : Decimal) : Text × Text :=
  let digits := Text.ofNat d.digits
  if d.exponent ≥ 0 then (digits ++ zeros d.exponent.toNat, [])
  else
    let fraction := (-d.exponent).toNat
    if digits.length ≤ fraction then (['0'], zeros (fraction - digits.length) ++ digits)
    else (digits.take (digits.length - fraction), digits.drop (digits.length - fraction))

/-- Digits around a decimal point; a whole number has no point. -/
def positional (d : Decimal) : Text :=
  match d.parts with
  | (whole, []) => whole
  | (whole, fraction) => whole ++ '.' :: fraction

/-- One digit before the point, and an exponent of at least two digits with its sign. -/
def scientific (d : Decimal) : Text :=
  let mantissa :=
    match Text.ofNat d.digits with
    | [] => []
    | [digit] => [digit]
    | digit :: rest => digit :: '.' :: rest
  let exponent := d.point - 1
  let places := Text.ofNat exponent.natAbs
  mantissa ++ ['e', if exponent < 0 then '-' else '+']
    ++ zeros (2 - places.length) ++ places

/-- The decimal number with the given digits before and after the point. -/
def ofParts (whole fraction : Text) : Decimal :=
  ⟨Text.toNat (whole ++ fraction), -(fraction.length : Int)⟩

/-- Splits a text after its leading digits. -/
def spanDigits (t : Text) : Text × Text := (t.takeWhile Char.isDigit, t.dropWhile Char.isDigit)

/-- Splits a leading sign off a text; the flag says that it is a minus sign. -/
def spanSign : Text → Bool × Text
  | '-' :: rest => (true, rest)
  | '+' :: rest => (false, rest)
  | t => (false, t)

/-- The exponent that a text denotes: empty, or a letter with a signed run of digits. -/
def readExponent? : Text → Option Int
  | [] => some 0
  | c :: rest =>
      if c = 'e' ∨ c = 'E' then
        let (negative, t) := spanSign rest
        if t.isEmpty || !t.all Char.isDigit then none
        else some (if negative then -(Text.toNat t : Int) else Text.toNat t)
      else none

/-- The number of a text with an optional sign, digits with an optional point among them, and
an optional exponent; the flag is the sign. -/
def read? (t : Text) : Option (Bool × Decimal) :=
  let (negative, t) := spanSign t
  let (whole, t) := spanDigits t
  let (fraction, t) :=
    match t with
    | '.' :: rest => spanDigits rest
    | _ => ([], t)
  if whole.isEmpty && fraction.isEmpty then none
  else
    (readExponent? t).map fun exponent =>
      let d := ofParts whole fraction
      (negative, ⟨d.digits, d.exponent + exponent⟩)

end Decimal

end RaidTimeline
