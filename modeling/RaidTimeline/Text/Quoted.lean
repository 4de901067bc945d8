import RaidTimeline.Text.Word
import RaidTimeline.Text.Unprintable

/-!
# Quoted texts in messages

Messages show a text between quotes, on one line, with every character that has no printed
shape written as an escape.

Main results:

- Definition {lit}`Text.quoted`: the quoted form.
-/

namespace RaidTimeline

/-- Whether a character has a printed shape. -/
def isPrintable (c : Char) : Bool :=
  if c.toNat < 0x80 then 0x20 ≤ c.toNat && c.toNat < 0x7F
  else !inRanges unprintableRanges c.toNat

namespace Text

/-- The shortest of the three numeric escapes that can name a character. -/
def numericEscape (c : Char) : Text :=
  if c.toNat < 0x100 then '\\' :: 'x' :: ofHex 2 c.toNat
  else if c.toNat < 0x10000 then '\\' :: 'u' :: ofHex 4 c.toNat
  else '\\' :: 'U' :: ofHex 8 c.toNat

/-- One character between quotes: the quote in use and the backslash take a backslash, line
ends and tabs have letters, and other characters without a printed shape have numbers. -/
def quotedChar (quote c : Char) : Text :=
  if c = quote ∨ c = '\\' then ['\\', c]
  else if c = '\n' then ['\\', 'n']
  else if c = '\r' then ['\\', 'r']
  else if c = '\t' then ['\\', 't']
  else if isPrintable c then [c]
  else numericEscape c

/-- Double quotes are used for a text that has single quotes and no double ones. -/
def quoteFor (t : Text) : Char :=
  if t.contains '\'' && !t.contains '"' then '"' else '\''

/-- The quoted form of a text. -/
def quoted (t : Text) : Text :=
  let quote := quoteFor t
  quote :: t.flatMap (quotedChar quote) ++ [quote]

end Text

end RaidTimeline
