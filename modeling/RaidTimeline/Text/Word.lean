import RaidTimeline.Text.Basic
import RaidTimeline.Text.Alphanumeric

/-!
# Word characters and word boundaries

Keywords and identifiers are runs of word characters: the underscore, and every letter and
number of Unicode.

Main results:

- Definition {lit}`isWord`: the word characters.
- Definition {lit}`isBoundary`: whether a word begins or ends between two characters.
-/

namespace RaidTimeline

/-- Whether a code point lies in one of the given inclusive ranges. -/
def inRanges (ranges : List (Nat × Nat)) (n : Nat) : Bool :=
  ranges.any fun range => range.1 ≤ n && n ≤ range.2

/-- Word characters are the underscore, and the letters and numbers of every script. -/
def isWord (c : Char) : Bool :=
  if c.toNat < 0x80 then c.isAlphanum || c == '_'
  else inRanges alphanumericRanges c.toNat

/-- Whether there is a character and it is a word character. -/
def isWordAt : Option Char → Bool
  | some c => isWord c
  | none => false

/-- A word begins or ends where exactly one of the two neighbours is a word character. -/
def isBoundary (before after : Option Char) : Bool := isWordAt before != isWordAt after

end RaidTimeline
