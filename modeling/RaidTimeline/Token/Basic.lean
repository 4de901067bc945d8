import RaidTimeline.Source
import RaidTimeline.Text.Quoted

/-!
# Tokens

A token is a piece of a source text with its kind, its span, its raw text, and the value that
the text denotes.

Main results:

- Definition {lit}`Kind`: the eleven kinds of token.
- Definition {lit}`Token`: tokens.
-/

namespace RaidTimeline

/-- The kinds of token.  The end of the text and unreadable text have tokens of their own. -/
inductive Kind where
  | eof
  | keyword
  | identifier
  | string
  | number
  | punctuator
  | brace
  | comment
  | regex
  | blank
  | unknown
deriving DecidableEq, Repr

/-- The name of a kind in messages and listings. -/
def Kind.name : Kind → Text
  | .eof => "EOF".toList
  | .keyword => "KEYWORD".toList
  | .identifier => "IDENTIFIER".toList
  | .string => "STRING_LITERAL".toList
  | .number => "NUMERIC_LITERAL".toList
  | .punctuator => "PUNCTUATOR".toList
  | .brace => "BRACE".toList
  | .comment => "COMMENT".toList
  | .regex => "REGULAR_EXPRESSION".toList
  | .blank => "WHITESPACE".toList
  | .unknown => "UNKNOWN".toList

/-- A token: {lit}`raw` is the text as written, {lit}`value` is what it denotes. -/
structure Token where
  kind : Kind
  value : Text
  raw : Text
  span : Span
deriving DecidableEq, Repr

namespace Token

/-- Whether a token is of a kind and has a value. -/
def holds (t : Token) (kind : Kind) (value : Text) : Bool := t.kind = kind && t.value = value

/-- Whether nothing can follow a token: the text has ended or cannot be read further. -/
def isLast (t : Token) : Bool := t.kind = .eof || t.kind = .unknown

/-- A token in an error message. -/
def describe (t : Token) : Text :=
  if t.kind = .eof then "end of file".toList
  else t.kind.name ++ ' ' :: Text.quoted t.raw

/-- A token with its value and position, on one line. -/
def label (t : Token) : Text :=
  "Token(".toList ++ t.kind.name ++ ", ".toList ++ Text.quoted t.value ++ ", ".toList
    ++ t.span.first.label ++ [')']

end Token

end RaidTimeline
