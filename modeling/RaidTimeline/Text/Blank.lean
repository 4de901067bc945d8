import RaidTimeline.Text.Basic

/-!
# White space around words

Main results:

- Definition {lit}`isBlank`: the white space characters of Unicode.
- Definition {lit}`Text.trim`: a text without the white space at its two ends.
-/

namespace RaidTimeline

/-- White space: tabs, line ends and separators of every kind, and the blanks of Unicode. -/
def isBlank (c : Char) : Bool :=
  let n := c.toNat
  (9 ≤ n && n ≤ 13) || (28 ≤ n && n ≤ 32) || n == 0x85 || n == 0xA0 || n == 0x1680
    || (0x2000 ≤ n && n ≤ 0x200A) || n == 0x2028 || n == 0x2029 || n == 0x202F
    || n == 0x205F || n == 0x3000

/-- A text without the white space at its two ends. -/
def Text.trim (t : Text) : Text :=
  ((t.dropWhile isBlank).reverse.dropWhile isBlank).reverse

end RaidTimeline
