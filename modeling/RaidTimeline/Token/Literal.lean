import RaidTimeline.Text.Basic

/-!
# Literals: delimiters and escapes

String and regular expression literals are delimited by characters that may also stand inside
them after a backslash.  This module finds where a literal ends, removes the backslashes, and
puts them back.

Main results:

- Definitions {lit}`stringLength?`, {lit}`regexLength?` and {lit}`numberLength?`: the length of a
  literal at the start of a text.
- Definitions {lit}`unescapeString` and {lit}`escapeString`: strings without and with escapes.
- Definitions {lit}`unescapeRegex` and {lit}`escapeRegex`: the same for regular expressions.
-/

namespace RaidTimeline

/-! ## Numbers -/

/-- The length of a point with digits behind it, or zero. -/
def fractionLength : Text → Nat
  | '.' :: rest =>
      let digits := (rest.takeWhile Char.isDigit).length
      if digits = 0 then 0 else digits + 1
  | _ => 0

/-- The length of a number at the start of a text.  Digits begin with a nonzero one unless there
is a single zero; a fraction may follow; the digits may be missing before a fraction. -/
def numberLength? : Text → Option Nat
  | [] => none
  | c :: rest =>
      if c = '0' then some (1 + fractionLength rest)
      else if c.isDigit then
        let digits := (rest.takeWhile Char.isDigit).length
        some (1 + digits + fractionLength (rest.drop digits))
      else
        let fraction := fractionLength (c :: rest)
        if fraction = 0 then none else some fraction

/-! ## Strings -/

/-- The length of a text through the first quote that no backslash precedes, on one line;
{lit}`escaped` says whether a backslash stands in front of the text. -/
def closingLength? (quote : Char) (escaped : Bool) : Text → Option Nat
  | [] => none
  | c :: rest =>
      if c = '\n' then none
      else if c = quote ∧ escaped = false then some 1
      else (closingLength? quote (c == '\\') rest).map (· + 1)

/-- The length of a string literal at the start of a text. -/
def stringLength? : Text → Option Nat
  | [] => none
  | c :: rest =>
      if c = '"' ∨ c = '\'' then (closingLength? c false rest).map (· + 1) else none

/-- The character that a backslash and a letter or quote stand for. -/
def escapedChar? (c : Char) : Option Char :=
  if c = '"' then some '"'
  else if c = '\'' then some '\''
  else if c = 'n' then some '\n'
  else if c = 't' then some '\t'
  else if c = 'r' then some '\r'
  else none

/-- The text of a string body: every known escape is replaced, from left to right, and a
backslash before anything else stands for itself. -/
def unescapeString : Text → Text
  | [] => []
  | [c] => [c]
  | c :: d :: tail =>
      if c = '\\' then
        match escapedChar? d with
        | some e => e :: unescapeString tail
        | none => c :: unescapeString (d :: tail)
      else c :: unescapeString (d :: tail)

/-- One character between double quotes. -/
def escapeStringChar (c : Char) : Text :=
  if c = '"' then ['\\', '"']
  else if c = '\n' then ['\\', 'n']
  else if c = '\r' then ['\\', 'r']
  else if c = '\t' then ['\\', 't']
  else [c]

/-- A text between double quotes: quotes, line ends and tabs are escaped, backslashes are not. -/
def escapeString (t : Text) : Text := t.flatMap escapeStringChar

/-! ## Regular expressions -/

/-- The length of a text through the slash that closes a regular expression, on one line.  A
backslash takes the next character with it, and between brackets a slash is plain. -/
def regexTailLength? : Bool → Text → Option Nat
  | _, [] => none
  | bracket, c :: rest =>
      if c = '\n' then none
      else if c = '\\' then
        match rest with
        | [] => none
        | d :: tail => if d = '\n' then none else (regexTailLength? bracket tail).map (· + 2)
      else if bracket then (regexTailLength? (c != ']') rest).map (· + 1)
      else if c = '/' then some 1
      else (regexTailLength? (c == '[') rest).map (· + 1)

/-- Characters that cannot begin a regular expression: the slash would leave it empty, and the
others would repeat nothing. -/
def isRegexBar (c : Char) : Bool := c == '/' || c == '*' || c == '+' || c == '?'

/-- The length of a regular expression literal at the start of a text. -/
def regexLength? : Text → Option Nat
  | '/' :: c :: rest =>
      if isRegexBar c then none else (regexTailLength? false (c :: rest)).map (· + 1)
  | _ => none

/-- The pattern of a regular expression body: the backslash before a slash is removed, and every
other backslash keeps the character behind it. -/
def unescapeRegex : Text → Text
  | [] => []
  | [c] => [c]
  | c :: d :: tail =>
      if c = '\\' then
        if d = '/' then d :: unescapeRegex tail else c :: d :: unescapeRegex tail
      else c :: unescapeRegex (d :: tail)

/-- A pattern between slashes: every slash that no backslash takes with it is escaped. -/
def escapeRegex : Text → Text
  | [] => []
  | [c] => if c = '/' then ['\\', c] else [c]
  | c :: d :: tail =>
      if c = '\\' then c :: d :: escapeRegex tail
      else if c = '/' then '\\' :: c :: escapeRegex (d :: tail)
      else c :: escapeRegex (d :: tail)

end RaidTimeline
