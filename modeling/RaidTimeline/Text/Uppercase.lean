import RaidTimeline.Text.Basic
import RaidTimeline.Text.UppercaseTable

/-!
# Uppercase texts

Main results:

- Definition {lit}`Text.uppercase`: the full uppercase mapping, where one character may become
  several.
-/

namespace RaidTimeline

/-- Whether a code point belongs to a run of the uppercase table. -/
def inUppercaseRun (n : Nat) (run : Nat × Nat × Nat × Int) : Bool :=
  run.1 ≤ n && n ≤ run.2.1 && (n - run.1) % run.2.2.1 == 0

/-- The characters that replace one character in an uppercase text. -/
def uppercaseOf (c : Char) : Text :=
  if c.toNat < 0x80 then [c.toUpper]
  else
    match uppercaseExpansions.find? (·.1 == c.toNat) with
    | some expansion => expansion.2.map Char.ofNat
    | none =>
        match uppercaseRuns.find? (inUppercaseRun c.toNat) with
        | some run => [Char.ofNat (c.toNat + run.2.2.2).toNat]
        | none => [c]

/-- Every character of a text in uppercase. -/
def Text.uppercase (t : Text) : Text := t.flatMap uppercaseOf

end RaidTimeline
