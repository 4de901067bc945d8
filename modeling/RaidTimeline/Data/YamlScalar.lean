import RaidTimeline.Data.Value
import RaidTimeline.Data.JsonReader

/-!
# Scalars of configuration files

A plain scalar of a YAML 1.1 text is an absent value, a truth value, a number or a string,
depending on its spelling.  Quoted scalars are always strings.

Main results:

- Definition {lit}`Yaml.resolve`: the value of a plain scalar.
- Definitions {lit}`Yaml.readSingle` and {lit}`Yaml.readDouble`: quoted scalars.
-/

namespace RaidTimeline.Yaml

/-! ## Plain scalars -/

/-- A text without underscores, which may separate the digits of a number. -/
def withoutUnderscores (t : Text) : Text := t.filter (· != '_')

/-- Whether a character is a digit or separates digits. -/
def isDigitMark (c : Char) : Bool := c.isDigit || c == '_'

/-- The number that digits of a base denote. -/
def ofBase (base : Nat) (digits : Text) : Nat :=
  digits.foldl (fun n c => base * n + (Json.hexValue? c).getD 0) 0

/-- Whether a text is a part of a sexagesimal number behind a colon. -/
def isSixty (t : Text) : Bool :=
  match t with
  | [d] => d.isDigit
  | [d, e] => '0' ≤ d && d ≤ '5' && e.isDigit
  | _ => false

/-- The number that sexagesimal parts denote. -/
def ofSixty (parts : List Text) : Nat := parts.foldl (fun n part => 60 * n + Text.toNat part) 0

/-- Whether a text is made of a nonzero digit with digits behind it. -/
def isCounting (t : Text) : Bool :=
  match t with
  | [] => false
  | c :: rest => c.isDigit && c != '0' && rest.all isDigitMark

/-- The number of an unsigned whole scalar: binary, hexadecimal, octal, decimal, or
sexagesimal. -/
def natural? (t : Text) : Option Nat :=
  match t with
  | ['0'] => some 0
  | '0' :: 'b' :: c :: digits =>
      if (c :: digits).all fun d => d == '0' || d == '1' || d == '_' then
        some (ofBase 2 (withoutUnderscores (c :: digits)))
      else none
  | '0' :: 'x' :: c :: digits =>
      if (c :: digits).all fun d => (Json.hexValue? d).isSome || d == '_' then
        some (ofBase 16 (withoutUnderscores (c :: digits)))
      else none
  | '0' :: digits =>
      if digits.all fun d => ('0' ≤ d && d ≤ '7') || d == '_' then
        some (ofBase 8 (withoutUnderscores digits))
      else none
  | t =>
      match Text.splitOn ':' t with
      | [] => none
      | [digits] =>
          if isCounting digits then some (Text.toNat (withoutUnderscores digits)) else none
      | first :: rest =>
          if isCounting first && rest.all isSixty then
            some (ofSixty (withoutUnderscores first :: rest))
          else none

/-- The whole number of a scalar. -/
def integer? (t : Text) : Option Int :=
  let (negative, unsigned) := Decimal.spanSign t
  (natural? unsigned).map fun n => if negative then -(n : Int) else n

/-- Whether a text is empty or an exponent with its sign. -/
def isSignedExponent (t : Text) : Bool :=
  match t with
  | [] => true
  | e :: s :: digits =>
      (e == 'e' || e == 'E') && (s == '-' || s == '+') && !digits.isEmpty
        && digits.all Char.isDigit
  | _ => false

/-- Whether a text is spelt like a number with a point. -/
def isPointed (unsigned : Text) : Bool :=
  let whole := unsigned.takeWhile isDigitMark
  match unsigned.drop whole.length with
  | '.' :: rest =>
      let fraction := rest.takeWhile isDigitMark
      let starts : Text → Bool := fun t => (t.head?.map Char.isDigit).getD false
      (if whole.isEmpty then starts fraction else starts whole)
        && isSignedExponent (rest.drop fraction.length)
  | _ => false

/-- Whether a text is spelt like a sexagesimal number with a point in its last part. -/
def isPointedSixty (unsigned : Text) : Bool :=
  match Text.splitOn ':' (unsigned.takeWhile (· != '.')) with
  | first :: second :: rest =>
      (first.head?.map Char.isDigit).getD false && first.all isDigitMark
        && (second :: rest).all isSixty
        && match unsigned.dropWhile (· != '.') with
          | '.' :: fraction => fraction.all isDigitMark
          | _ => false
  | _ => false

/-- The number that sexagesimal parts denote, the last one first.  Each part is added with a
rounding of its own. -/
def sumSixty : Nat → Binary64 → List Text → Binary64
  | _, x, [] => x
  | unit, x, part :: rest => sumSixty (60 * unit) (x.plusWhole (unit * Text.toNat part)) rest

/-- The number of a sexagesimal scalar with a point. -/
def ofPointedSixty (unsigned : Text) : Binary64 :=
  match (Text.splitOn ':' (withoutUnderscores unsigned)).reverse with
  | [] => .zero false
  | last :: rest => sumSixty 60 (.ofLiteral last) rest

/-- The floating point number of a scalar: it has a point, and an exponent has a sign. -/
def real? (t : Text) : Option Binary64 :=
  let (negative, unsigned) := Decimal.spanSign t
  if [".inf".toList, ".Inf".toList, ".INF".toList].contains unsigned then
    some (.infinite negative)
  else if [".nan".toList, ".NaN".toList, ".NAN".toList].contains t then some .nan
  else if isPointed unsigned && (unsigned.head? != some '.' || t == unsigned) then
    (Decimal.read? (withoutUnderscores t)).map fun (negative, d) => .ofDecimal negative d
  else if isPointedSixty unsigned then
    some (if negative then (ofPointedSixty unsigned).negate else ofPointedSixty unsigned)
  else none

/-- The spellings of absent values. -/
def nullWords : List Text := ["", "~", "null", "Null", "NULL"].map String.toList

/-- The spellings of truth. -/
def trueWords : List Text :=
  ["yes", "Yes", "YES", "true", "True", "TRUE", "on", "On", "ON"].map String.toList

/-- The spellings of falsehood. -/
def falseWords : List Text :=
  ["no", "No", "NO", "false", "False", "FALSE", "off", "Off", "OFF"].map String.toList

/-- The value of a plain scalar. -/
def resolve (t : Text) : Value :=
  if nullWords.contains t then .null
  else if trueWords.contains t then .bool true
  else if falseWords.contains t then .bool false
  else
    match integer? t with
    | some n => .integer n
    | none =>
        match real? t with
        | some x => .real x
        | none => .string t

/-- The text of a scalar that names a field. -/
def keyText : Value → Option Text
  | .null => some "null".toList
  | .bool true => some "true".toList
  | .bool false => some "false".toList
  | .integer n => some (Text.ofInt n)
  | .real x => some x.text
  | .string t => some t
  | .array _ => none
  | .object _ => none

/-! ## Quoted scalars -/

/-- Drops the blanks in front of a text and counts the line ends among them. -/
def skipFold : Nat → Text → Nat × Text
  | n, [] => (n, [])
  | n, c :: rest =>
      if c = '\n' then skipFold (n + 1) rest
      else if c = ' ' ∨ c = '\t' then skipFold n rest
      else (n, c :: rest)

/-- What line ends inside a scalar stand for: one is a blank, and more are one less. -/
def folded (lineEnds : Nat) : Text :=
  if lineEnds = 1 then [' '] else List.replicate (lineEnds - 1) '\n'

/-- The longest scalars read: a bound on the steps of reading one. -/
def scalarBound (t : Text) : Nat := t.length + 1

/-- Reads a scalar between single quotes behind the first; a doubled quote is one quote. -/
def readSingle : Nat → Text → Option (Text × Text)
  | 0, _ => none
  | fuel + 1, t =>
      match t with
      | [] => none
      | '\'' :: '\'' :: rest => (readSingle fuel rest).map fun (s, r) => ('\'' :: s, r)
      | '\'' :: rest => some ([], rest)
      | c :: rest =>
          if c = ' ' ∨ c = '\t' ∨ c = '\n' then
            let (lineEnds, after) := skipFold 0 (c :: rest)
            let space :=
              if lineEnds = 0 then (c :: rest).takeWhile (fun d => d == ' ' || d == '\t')
              else folded lineEnds
            (readSingle fuel after).map fun (s, r) => (space ++ s, r)
          else (readSingle fuel rest).map fun (s, r) => (c :: s, r)

/-- The character that a backslash and a letter stand for. -/
def escaped? (c : Char) : Option Char :=
  (([('0', '\x00'), ('a', '\x07'), ('b', '\x08'), ('t', '\t'), ('\t', '\t'), ('n', '\n'),
      ('v', '\x0b'), ('f', '\x0c'), ('r', '\r'), ('e', '\x1b'), (' ', ' '), ('"', '"'),
      ('/', '/'), ('\\', '\\'), ('N', '\u0085'), ('_', '\u00a0'), ('L', '\u2028'),
      ('P', '\u2029')] : List (Char × Char)).find? (·.1 == c)).map (·.2)

/-- How many hexadecimal digits follow a backslash and a letter. -/
def escapeWidth? (c : Char) : Option Nat :=
  if c = 'x' then some 2 else if c = 'u' then some 4 else if c = 'U' then some 8 else none

/-- Reads a scalar between double quotes behind the first. -/
def readDouble : Nat → Text → Option (Text × Text)
  | 0, _ => none
  | fuel + 1, t =>
      match t with
      | [] => none
      | '"' :: rest => some ([], rest)
      | '\\' :: '\n' :: rest => readDouble fuel (rest.dropWhile fun d => d == ' ' || d == '\t')
      | '\\' :: e :: rest =>
          match escapeWidth? e with
          | some width =>
              if (rest.take width).length = width then
                match Json.hexNumber? (rest.take width) with
                | some n =>
                    (readDouble fuel (rest.drop width)).map fun (s, r) => (Char.ofNat n :: s, r)
                | none => none
              else none
          | none =>
              match escaped? e with
              | some c => (readDouble fuel rest).map fun (s, r) => (c :: s, r)
              | none => none
      | c :: rest =>
          if c = ' ' ∨ c = '\t' ∨ c = '\n' then
            let (lineEnds, after) := skipFold 0 (c :: rest)
            let space :=
              if lineEnds = 0 then (c :: rest).takeWhile (fun d => d == ' ' || d == '\t')
              else folded lineEnds
            (readDouble fuel after).map fun (s, r) => (space ++ s, r)
          else (readDouble fuel rest).map fun (s, r) => (c :: s, r)

/-- Reads a quoted scalar, if there is one in front of a text. -/
def readQuoted? (t : Text) : Option (Option (Text × Text)) :=
  match t with
  | '\'' :: rest => some (readSingle (scalarBound rest) rest)
  | '"' :: rest => some (readDouble (scalarBound rest) rest)
  | _ => none

end RaidTimeline.Yaml
