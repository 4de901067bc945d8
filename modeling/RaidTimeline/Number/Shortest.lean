import RaidTimeline.Number.Binary64

/-!
# Shortest decimal texts

A finite number is written with the fewest decimal digits that read back as the same number; of
two such decimals the nearer one is taken.

Main results:

- Definition {lit}`Binary64.Finite.shortest`: the decimal number with the fewest digits.
- Definition {lit}`Binary64.text`: the text with exponents for very small and very large values.
- Definition {lit}`Binary64.plain`: the text without exponents.
-/

namespace RaidTimeline

attribute [local instance] corePow

namespace Binary64.Finite

/-- The number of places before the decimal point of a positive number in smallest units. -/
def places (units : Nat) : Int :=
  let one := 2 ^ fineness
  if one ≤ units then (Text.ofNat (units / one)).length
  else
    let count := (Text.ofNat (one / units)).length
    if one ≤ units * 10 ^ (count - 1) then 2 - (count : Int) else 1 - (count : Int)

/-- The two neighbours of a number among the multiples of a power of ten, the nearer first. -/
def neighbours (units : Nat) (exponent : Int) : List Decimal :=
  let num := units * 10 ^ (-exponent).toNat
  let den := 2 ^ fineness * 10 ^ exponent.toNat
  let below := num / den
  let near := roundDiv num den
  if near = below then [⟨below, exponent⟩, ⟨below + 1, exponent⟩]
  else [⟨below + 1, exponent⟩, ⟨below, exponent⟩]

/-- Whether a decimal number reads back as the given number. -/
def readsBack (v : Finite) (d : Decimal) : Bool := ofDecimal v.negative d == .finite v

/-- The decimal number with the fewest digits that reads back; seventeen digits always do, and
the exact value stands behind them. -/
def shortest (v : Finite) : Decimal :=
  let places := places v.units
  let candidates := (List.range 17).flatMap fun (n : Nat) =>
    neighbours v.units (places - (n + 1))
  ((candidates.find? v.readsBack).getD v.exact).trim

end Binary64.Finite

namespace Binary64

/-- A minus sign, or nothing. -/
def sign (negative : Bool) : Text := if negative then ['-'] else []

/-- The text of a number: shortest digits, with at least one digit after the point, positional
from {lit}`0.0001` to below {lit}`10 ^ 16` and with an exponent elsewhere. -/
def text : Binary64 → Text
  | .nan => "nan".toList
  | .infinite negative => sign negative ++ "inf".toList
  | .finite v =>
      if v.mantissa = 0 then sign v.negative ++ "0.0".toList
      else
        let d := v.shortest
        sign v.negative ++
          (if d.point < -3 ∨ 16 < d.point then d.scientific
          else if 0 ≤ d.exponent then d.positional ++ ".0".toList
          else d.positional)

/-- The text of a number without exponent: shortest digits around a point. -/
def plain : Binary64 → Text
  | .nan => "NaN".toList
  | .infinite negative => sign negative ++ "Infinity".toList
  | .finite v => sign v.negative ++ v.shortest.positional

end Binary64

end RaidTimeline
