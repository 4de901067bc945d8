import RaidTimeline.Data.Value

/-!
# Writing JSON

Two layouts are written: compact, without any blanks, and indented by two blanks a level.
Characters beyond ASCII are written as they are, and so is every other character that does not
have to be escaped.

Main results:

- Definition {lit}`Json.write`: the compact form of a value.
- Definition {lit}`Json.writeIndented`: the indented form.
-/

namespace RaidTimeline.Json

/-- One character of a string. -/
def writeChar (c : Char) : Text :=
  if c = '"' then ['\\', '"']
  else if c = '\\' then ['\\', '\\']
  else if c = '\n' then ['\\', 'n']
  else if c = '\r' then ['\\', 'r']
  else if c = '\t' then ['\\', 't']
  else if c = '\x08' then ['\\', 'b']
  else if c = '\x0c' then ['\\', 'f']
  else if c.toNat < 0x20 then '\\' :: 'u' :: Text.ofHex 4 c.toNat
  else [c]

/-- A string between double quotes. -/
def writeString (t : Text) : Text := '"' :: t.flatMap writeChar ++ ['"']

/-- A floating point number; the special values have names. -/
def writeReal : Binary64 → Text
  | .nan => "NaN".toList
  | .infinite negative => Binary64.sign negative ++ "Infinity".toList
  | x => x.text

mutual

/-- The compact form of a value. -/
def write : Value → Text
  | .null => "null".toList
  | .bool true => "true".toList
  | .bool false => "false".toList
  | .integer n => Text.ofInt n
  | .real x => writeReal x
  | .string t => writeString t
  | .array items => '[' :: writeItems items ++ [']']
  | .object fields => '\x7b' :: writeFields fields ++ ['\x7d']

/-- The items of an array, with commas between them. -/
def writeItems : List Value → Text
  | [] => []
  | [v] => write v
  | v :: next :: rest => write v ++ ',' :: writeItems (next :: rest)

/-- The fields of an object, with commas between them. -/
def writeFields : List (Text × Value) → Text
  | [] => []
  | [(key, v)] => writeString key ++ ':' :: write v
  | (key, v) :: next :: rest =>
      writeString key ++ ':' :: write v ++ ',' :: writeFields (next :: rest)

end

/-- A line end and the blanks of a level. -/
def newline (level : Nat) : Text := '\n' :: List.replicate (2 * level) ' '

mutual

/-- The indented form of a value at a level; empty arrays and objects stay on one line. -/
def writeAt (level : Nat) : Value → Text
  | .array [] => "[]".toList
  | .array (v :: rest) => '[' :: writeItemsAt (level + 1) (v :: rest) ++ newline level ++ [']']
  | .object [] => "\x7b\x7d".toList
  | .object (f :: rest) =>
      '\x7b' :: writeFieldsAt (level + 1) (f :: rest) ++ newline level ++ ['\x7d']
  | .null => "null".toList
  | .bool true => "true".toList
  | .bool false => "false".toList
  | .integer n => Text.ofInt n
  | .real x => writeReal x
  | .string t => writeString t

/-- The items of an array, each on lines of its own. -/
def writeItemsAt (level : Nat) : List Value → Text
  | [] => []
  | [v] => newline level ++ writeAt level v
  | v :: next :: rest =>
      newline level ++ writeAt level v ++ ',' :: writeItemsAt level (next :: rest)

/-- The fields of an object, each on lines of its own. -/
def writeFieldsAt (level : Nat) : List (Text × Value) → Text
  | [] => []
  | [(key, v)] => newline level ++ writeString key ++ ':' :: ' ' :: writeAt level v
  | (key, v) :: next :: rest =>
      newline level ++ writeString key ++ ':' :: ' ' :: writeAt level v
        ++ ',' :: writeFieldsAt level (next :: rest)

end

/-- The indented form of a value. -/
def writeIndented (v : Value) : Text := writeAt 0 v

end RaidTimeline.Json
