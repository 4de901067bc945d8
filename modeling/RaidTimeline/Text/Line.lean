import RaidTimeline.Text.Basic

/-!
# Line ends and byte order marks

Main results:

- Definition {lit}`Text.foldLineEnds`: every kind of line end becomes a line feed.
- Definition {lit}`Text.dropMark`: a leading byte order mark is dropped.
-/

namespace RaidTimeline

/-- The byte order mark. -/
def byteOrderMark : Char := '\uFEFF'

namespace Text

/-- A carriage return, alone or before a line feed, becomes one line feed. -/
def foldLineEnds : Text → Text
  | [] => []
  | '\r' :: '\n' :: rest => '\n' :: foldLineEnds rest
  | c :: rest => (if c = '\r' then '\n' else c) :: foldLineEnds rest

/-- A text without a byte order mark at its start. -/
def dropMark : Text → Text
  | [] => []
  | c :: rest => if c = byteOrderMark then rest else c :: rest

end Text

end RaidTimeline
