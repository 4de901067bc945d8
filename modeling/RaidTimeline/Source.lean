import RaidTimeline.Text.Line

/-!
# Places in a source text

A source text is read without its byte order mark and with line feeds only.  A place in it has
an offset, a line counted from one, and a column counted from zero.

Main results:

- Definition {lit}`normalize`: the form in which a source text is read.
- Definition {lit}`Position.after`: the position behind a piece of text.
- Definition {lit}`Span`: a half-open range of offsets with the positions of its ends.
-/

namespace RaidTimeline

/-- The form in which a source text is read: no byte order mark in front, line feeds only. -/
def normalize (t : Text) : Text := Text.foldLineEnds (Text.dropMark t)

/-- A line, counted from one, and a column, counted from zero. -/
structure Position where
  line : Nat
  column : Nat
deriving DecidableEq, Repr

namespace Position

/-- The first place of every text. -/
def start : Position := ⟨1, 0⟩

/-- The position behind one character. -/
def next (p : Position) (c : Char) : Position :=
  if c = '\n' then ⟨p.line + 1, 0⟩ else ⟨p.line, p.column + 1⟩

/-- The position behind a piece of text. -/
def after (p : Position) (t : Text) : Position := t.foldl next p

@[simp]
theorem after_nil (p : Position) : p.after [] = p :=
  rfl

@[simp]
theorem after_cons (p : Position) (c : Char) (t : Text) : p.after (c :: t) = (p.next c).after t :=
  rfl

/-- The position behind two pieces of text is found piece by piece. -/
@[simp]
theorem after_append (p : Position) (s t : Text) : p.after (s ++ t) = (p.after s).after t := by
  simp [after]

/-- The short form of a position in messages. -/
def label (p : Position) : Text := 'L' :: Text.ofNat p.line ++ ':' :: Text.ofNat p.column

end Position

/-- The offsets from {lit}`start` up to {lit}`stop`, and the positions of the two ends. -/
structure Span where
  start : Nat
  stop : Nat
  first : Position
  last : Position
deriving DecidableEq, Repr

namespace Span

/-- The span from the start of one span to the end of another. -/
def through (a b : Span) : Span := ⟨a.start, b.stop, a.first, b.last⟩

/-- How many characters a span covers. -/
def width (s : Span) : Nat := s.stop - s.start

/-- The empty span before a text. -/
def none : Span := ⟨0, 0, .start, .start⟩

end Span

end RaidTimeline
