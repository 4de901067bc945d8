import RaidTimeline.Number.Shortest
import RaidTimeline.Text.Quoted

/-!
# Values of data files

Configuration files and exported trees hold values of seven kinds.  Whole numbers and floating
point numbers are different kinds.

Main results:

- Definition {lit}`Value`: the values.
- Definition {lit}`Value.put`: sets a field of an object.
- Definitions {lit}`Value.text` and {lit}`Value.literal`: a value in words, alone and inside a
  list.
-/

namespace RaidTimeline

/-- A value of a data file.  The fields of an object are in order. -/
inductive Value where
  | null
  | bool (b : Bool)
  | integer (n : Int)
  | real (x : Binary64)
  | string (t : Text)
  | array (items : List Value)
  | object (fields : List (Text × Value))

namespace Value

instance : Inhabited Value := ⟨.null⟩

/-- The field of a key. -/
def field? (fields : List (Text × Value)) (key : Text) : Option Value :=
  (fields.find? (·.1 == key)).map (·.2)

/-- The first field of a key counts. -/
theorem field?_cons (f : Text × Value) (fields : List (Text × Value)) (key : Text) :
    field? (f :: fields) key = if f.1 = key then some f.2 else field? fields key := by
  by_cases h : f.1 = key <;> simp [field?, h]

theorem field?_append (xs ys : List (Text × Value)) (key : Text) :
    field? (xs ++ ys) key = (field? xs key).or (field? ys key) := by
  simp [field?, List.find?_append, Option.map_or]

/-- Sets a field: a known key keeps its place, and a new one comes last. -/
def put (key : Text) (value : Value) : List (Text × Value) → List (Text × Value)
  | [] => [(key, value)]
  | f :: rest => if f.1 = key then (key, value) :: rest else f :: put key value rest

/-- Sets fields one after the other. -/
def putAll (fields new : List (Text × Value)) : List (Text × Value) :=
  new.foldl (fun fields f => put f.1 f.2 fields) fields

/-- The name of a kind of value in messages. -/
def kindName : Value → Text
  | .null => "NoneType".toList
  | .bool _ => "bool".toList
  | .integer _ => "int".toList
  | .real _ => "float".toList
  | .string _ => "str".toList
  | .array _ => "list".toList
  | .object _ => "dict".toList

mutual

/-- A value in words, with strings quoted. -/
def literal : Value → Text
  | .null => "None".toList
  | .bool true => "True".toList
  | .bool false => "False".toList
  | .integer n => Text.ofInt n
  | .real x => x.text
  | .string t => Text.quoted t
  | .array items => '[' :: Text.join ", ".toList (literals items) ++ [']']
  | .object fields => '\x7b' :: Text.join ", ".toList (fieldLiterals fields) ++ ['\x7d']

/-- The values of a list in words. -/
def literals : List Value → List Text
  | [] => []
  | v :: rest => v.literal :: literals rest

/-- The fields of an object in words. -/
def fieldLiterals : List (Text × Value) → List Text
  | [] => []
  | (key, v) :: rest => (Text.quoted key ++ ':' :: ' ' :: v.literal) :: fieldLiterals rest

end

/-- A value in words: a string stands for itself. -/
def text : Value → Text
  | .string t => t
  | v => v.literal

/-- Whether a value says nothing: absent, false, zero or empty. -/
def isBlank : Value → Bool
  | .null => true
  | .bool b => !b
  | .integer n => n == 0
  | .real (.finite v) => v.mantissa == 0
  | .real _ => false
  | .string t => t.isEmpty
  | .array items => items.isEmpty
  | .object fields => fields.isEmpty

end Value

end RaidTimeline
