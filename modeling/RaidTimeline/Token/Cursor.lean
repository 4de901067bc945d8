import RaidTimeline.Token.Basic
import RaidTimeline.Token.Literal
import RaidTimeline.Token.Vocabulary

/-!
# Reading one token

At each place of a source text the rules for tokens are tried in a fixed order, and the first
one that matches decides the kind and the length of the token.

Main results:

- Definition {lit}`recognise?`: the kind and length of the token at the start of a text.
- Definition {lit}`Kind.valueOf`: what the raw text of a token denotes.
- Definition {lit}`Cursor.scan`: the token at a place and the place behind it.
- Theorem {lit}`Cursor.length_rest_scan`: a token is as wide as the text that is consumed.
-/

namespace RaidTimeline

/-! ## Rules -/

/-- Layout characters separate tokens: blanks, tabs and line feeds. -/
def isLayout (c : Char) : Bool := c == ' ' || c == '\t' || c == '\n'

/-- The length of a run of characters at the start of a text, if there is one. -/
def runLength? (p : Char → Bool) (text : Text) : Option Nat :=
  let n := (text.takeWhile p).length
  if n = 0 then none else some n

/-- The length of a comment: a number sign and the rest of the line. -/
def commentLength? : Text → Option Nat
  | '#' :: rest => some (1 + (rest.takeWhile (· != '\n')).length)
  | _ => none

/-- One, if a text begins with one of two characters. -/
def oneOf? (a b : Char) : Text → Option Nat
  | c :: _ => if c = a ∨ c = b then some 1 else none
  | [] => none

/-- The length of the token of a given kind at the start of a text; {lit}`before` is the
character in front of the text. -/
def Kind.length? (v : Vocabulary) (before : Option Char) (text : Text) : Kind → Option Nat
  | .blank => runLength? isLayout text
  | .comment => commentLength? text
  | .punctuator => oneOf? ',' ':' text
  | .brace => oneOf? '\x7b' '\x7d' text
  | .number => numberLength? text
  | .string => stringLength? text
  | .regex => regexLength? text
  | .keyword => keywordLength? v before text
  | .identifier => runLength? isWord text
  | .eof => none
  | .unknown => none

/-- The kinds of token with text, in the order in which they are tried. -/
def Kind.precedence : List Kind :=
  [.blank, .comment, .punctuator, .brace, .number, .string, .regex, .keyword, .identifier]

/-- The kind and length of the token at the start of a text: the first kind that matches. -/
def recognise? (v : Vocabulary) (before : Option Char) (text : Text) : Option (Kind × Nat) :=
  Kind.precedence.findSome? fun kind => (kind.length? v before text).map (kind, ·)

/-- The text between the first and the last character. -/
def inner (raw : Text) : Text := (raw.drop 1).dropLast

/-- What the raw text of a token denotes: comments lose their sign, strings and regular
expressions their delimiters and escapes. -/
def Kind.valueOf (raw : Text) : Kind → Text
  | .comment => raw.drop 1
  | .string => unescapeString (inner raw)
  | .regex => unescapeRegex (inner raw)
  | .eof => []
  | .unknown => []
  | _ => raw

/-! ## Places -/

/-- A place in a source text: its offset and position, the character in front of it, and the
text behind it. -/
structure Cursor where
  offset : Nat
  position : Position
  before : Option Char
  rest : Text
deriving DecidableEq, Repr

namespace Cursor

/-- The first place of a text. -/
def ofText (text : Text) : Cursor := ⟨0, .start, none, text⟩

/-- The place behind the next {lit}`n` characters. -/
def advance (c : Cursor) (n : Nat) : Cursor :=
  let passed := c.rest.take n
  ⟨c.offset + passed.length, c.position.after passed, lastOr c.before passed, c.rest.drop n⟩

@[simp]
theorem rest_advance (c : Cursor) (n : Nat) : (c.advance n).rest = c.rest.drop n :=
  rfl

@[simp]
theorem offset_advance (c : Cursor) (n : Nat) :
    (c.advance n).offset = c.offset + (c.rest.take n).length :=
  rfl

/-- The span between two places. -/
def spanTo (a b : Cursor) : Span := ⟨a.offset, b.offset, a.position, b.position⟩

/-- A token without text at a place; its raw text is what could not be read. -/
def emptyToken (c : Cursor) (kind : Kind) : Token := ⟨kind, [], c.rest, c.spanTo c⟩

/-- The token at a place and the place behind it.  At the end of the text, and where no rule
matches, the token has no text and the place stays. -/
def scan (v : Vocabulary) (c : Cursor) : Token × Cursor :=
  if c.rest.isEmpty then (c.emptyToken .eof, c)
  else
    match recognise? v c.before c.rest with
    | none => (c.emptyToken .unknown, c)
    | some (kind, n) =>
        let raw := c.rest.take n
        let next := c.advance n
        (⟨kind, kind.valueOf raw, raw, c.spanTo next⟩, next)

/-- A token is as wide as the text that its reading consumes. -/
theorem length_rest_scan (v : Vocabulary) (c : Cursor) :
    (c.scan v).2.rest.length + (c.scan v).1.span.width = c.rest.length := by
  unfold scan
  split
  · simp [emptyToken, spanTo, Span.width]
  · split
    · simp [emptyToken, spanTo, Span.width]
    · simp only [spanTo, Span.width, rest_advance, offset_advance, List.length_drop,
        List.length_take]
      omega

/-- The place behind the layout at a place. -/
def skipLayout (c : Cursor) : Cursor := c.advance (c.rest.takeWhile isLayout).length

theorem length_rest_skipLayout_le (c : Cursor) : c.skipLayout.rest.length ≤ c.rest.length := by
  simp [skipLayout]

end Cursor

end RaidTimeline
