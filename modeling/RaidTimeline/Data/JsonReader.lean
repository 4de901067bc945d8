import RaidTimeline.Data.Value

/-!
# Reading JSON

The reader accepts JSON texts and the three names of special floating point numbers.  A number
without fraction and exponent is whole; of two fields with one key the last counts.

Main results:

- Definition {lit}`Json.read?`: the value of a text.
- Definition {lit}`Json.readValue`: the value at the start of a text, and what follows it.
-/

namespace RaidTimeline.Json

/-- The blanks that may stand between the parts of a text. -/
def isBlank (c : Char) : Bool := c == ' ' || c == '\t' || c == '\n' || c == '\r'

/-- A text without the blanks in front. -/
def skipBlanks (t : Text) : Text := t.dropWhile isBlank

/-! ## Strings -/

/-- The value of a hexadecimal digit. -/
def hexValue? (c : Char) : Option Nat :=
  if c.isDigit then some (c.toNat - 48)
  else if 'a' ≤ c ∧ c ≤ 'f' then some (c.toNat - 87)
  else if 'A' ≤ c ∧ c ≤ 'F' then some (c.toNat - 55)
  else none

/-- The value of hexadecimal digits. -/
def hexNumber? (digits : List Char) : Option Nat :=
  digits.foldl (fun n c => n.bind fun n => (hexValue? c).map (16 * n + ·)) (some 0)

/-- The code of the character that a backslash and a letter stand for. -/
def escapedCode? (c : Char) : Option Nat :=
  if c = '"' then some 0x22
  else if c = '\\' then some 0x5C
  else if c = '/' then some 0x2F
  else if c = 'b' then some 0x08
  else if c = 'f' then some 0x0C
  else if c = 'n' then some 0x0A
  else if c = 'r' then some 0x0D
  else if c = 't' then some 0x09
  else none

/-- A code in front of the codes of the rest of a string. -/
def prepend (code : Nat) (rest : List Nat × Text) : List Nat × Text := (code :: rest.1, rest.2)

/-- The codes of a string behind its opening quote, and what follows its closing quote. -/
def readCodes : Text → Option (List Nat × Text)
  | [] => none
  | c :: rest =>
      if c = '"' then some ([], rest)
      else if c = '\\' then
        match rest with
        | [] => none
        | 'u' :: h₁ :: h₂ :: h₃ :: h₄ :: tail =>
            match hexNumber? [h₁, h₂, h₃, h₄] with
            | some code => (readCodes tail).map (prepend code)
            | none => none
        | e :: tail =>
            match escapedCode? e with
            | some code => (readCodes tail).map (prepend code)
            | none => none
      else if c.toNat < 0x20 then none
      else (readCodes rest).map (prepend c.toNat)

/-- The characters of a list of codes.  Two surrogates that belong together are one character,
and a single surrogate is replaced. -/
def joinCodes : List Nat → Text
  | [] => []
  | [n] => [if 0xD800 ≤ n ∧ n < 0xE000 then '\uFFFD' else Char.ofNat n]
  | n :: m :: rest =>
      if 0xD800 ≤ n ∧ n < 0xDC00 ∧ 0xDC00 ≤ m ∧ m < 0xE000 then
        Char.ofNat (0x10000 + (n - 0xD800) * 0x400 + (m - 0xDC00)) :: joinCodes rest
      else (if 0xD800 ≤ n ∧ n < 0xE000 then '\uFFFD' else Char.ofNat n) :: joinCodes (m :: rest)

/-- The string behind an opening quote, and what follows its closing quote. -/
def readString (t : Text) : Option (Text × Text) :=
  (readCodes t).map fun (codes, rest) => (joinCodes codes, rest)

/-! ## Numbers -/

/-- The digits behind a point, and what follows them; none without a point and digits. -/
def readFraction : Text → Text × Text
  | '.' :: rest =>
      match Decimal.spanDigits rest with
      | ([], _) => ([], '.' :: rest)
      | split => split
  | t => ([], t)

/-- The exponent in front of a text, if there is one, and what follows it. -/
def readExponent (t : Text) : Option Int × Text :=
  match t with
  | [] => (none, t)
  | c :: rest =>
      if c = 'e' ∨ c = 'E' then
        let (negative, signed) := Decimal.spanSign rest
        match Decimal.spanDigits signed with
        | ([], _) => (none, t)
        | (digits, after) =>
            (some (if negative then -(Text.toNat digits : Int) else Text.toNat digits), after)
      else (none, t)

/-- The whole part of a number: a zero, or digits that begin with another one. -/
def readWhole : Text → Text × Text
  | '0' :: rest => (['0'], rest)
  | t => Decimal.spanDigits t

/-- The number in front of a text, and what follows it. -/
def readNumber (t : Text) : Option (Value × Text) :=
  let (negative, unsigned) :=
    match t with
    | '-' :: rest => (true, rest)
    | _ => (false, t)
  match readWhole unsigned with
  | ([], _) => none
  | (whole, t) =>
      let (fraction, t) := readFraction t
      let (exponent, t) := readExponent t
      if fraction.isEmpty && exponent.isNone then
        let n : Int := Text.toNat whole
        some (.integer (if negative then -n else n), t)
      else
        let d := Decimal.ofParts whole fraction
        some (.real (.ofDecimal negative ⟨d.digits, d.exponent + exponent.getD 0⟩), t)

/-! ## Values -/

/-- The words that stand for values. -/
def names : List (Text × Value) :=
  [("null".toList, .null), ("true".toList, .bool true), ("false".toList, .bool false),
    ("NaN".toList, .real .nan), ("Infinity".toList, .real (.infinite false)),
    ("-Infinity".toList, .real (.infinite true))]

/-- The word or number in front of a text, and what follows it. -/
def readScalar (t : Text) : Option (Value × Text) :=
  match names.find? (·.1.isPrefixOf t) with
  | some (name, v) => some (v, t.drop name.length)
  | none => readNumber t

mutual

/-- The value in front of a text, and what follows it; {lit}`fuel` bounds the nesting. -/
def readValue : Nat → Text → Option (Value × Text)
  | 0, _ => none
  | fuel + 1, t =>
      match t with
      | '"' :: rest => (readString rest).map fun (s, rest) => (.string s, rest)
      | '[' :: rest =>
          match skipBlanks rest with
          | ']' :: rest => some (.array [], rest)
          | rest => (readItems fuel rest).map fun (vs, rest) => (.array vs, rest)
      | '\x7b' :: rest =>
          match skipBlanks rest with
          | '\x7d' :: rest => some (.object [], rest)
          | rest =>
              (readFields fuel rest).map fun (fs, rest) => (.object (Value.putAll [] fs), rest)
      | t => readScalar t

/-- The items of an array up to its closing bracket, and what follows it. -/
def readItems : Nat → Text → Option (List Value × Text)
  | 0, _ => none
  | fuel + 1, t =>
      match readValue fuel t with
      | none => none
      | some (v, rest) =>
          match skipBlanks rest with
          | ',' :: rest => (readItems fuel (skipBlanks rest)).map fun (vs, rest) => (v :: vs, rest)
          | ']' :: rest => some ([v], rest)
          | _ => none

/-- The fields of an object up to its closing brace, and what follows it. -/
def readFields : Nat → Text → Option (List (Text × Value) × Text)
  | 0, _ => none
  | fuel + 1, t =>
      match t with
      | '"' :: rest =>
          match readString rest with
          | none => none
          | some (key, rest) =>
              match skipBlanks rest with
              | ':' :: rest =>
                  match readValue fuel (skipBlanks rest) with
                  | none => none
                  | some (v, rest) =>
                      match skipBlanks rest with
                      | ',' :: rest =>
                          (readFields fuel (skipBlanks rest)).map fun (fs, rest) =>
                            ((key, v) :: fs, rest)
                      | '\x7d' :: rest => some ([(key, v)], rest)
                      | _ => none
              | _ => none
      | _ => none

end

/-- The value of a text, with blanks around it and nothing else. -/
def read? (t : Text) : Option Value :=
  match readValue (2 * t.length + 2) (skipBlanks t) with
  | some (v, rest) => if (skipBlanks rest).isEmpty then some v else none
  | none => none

end RaidTimeline.Json
