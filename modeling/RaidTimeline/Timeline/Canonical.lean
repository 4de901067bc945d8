import RaidTimeline.Number.Shortest
import RaidTimeline.Timeline.Fault
import RaidTimeline.Timeline.Node
import RaidTimeline.Token.Literal

/-!
# Canonical timelines

The canonical form of a timeline has one statement on a line, single blanks between its parts, a
fixed order of modifiers, and one spelling for every string, pattern and number.  Comments are
not part of it, and of the statements only entries and hidden names have a canonical form.

Main results:

- Definitions {lit}`numberText` and {lit}`timeText`: the spelling of numbers.
- Definition {lit}`Node.canonical`: the canonical form of a program, or the first node that has
  none.
-/

namespace RaidTimeline

/-! ## Numbers -/

/-- The digits of a whole number, with every digit of its exact value. -/
def wholeText (v : Binary64.Finite) (negative : Bool) : Text :=
  Binary64.sign negative ++ Text.ofNat v.whole

/-- A number: whole numbers without a point, others with the fewest digits, never with an
exponent.  The zero has no sign. -/
def numberText : Binary64 → Text
  | .finite v =>
      if v.isWhole then wholeText v (v.negative && v.mantissa != 0)
      else Binary64.plain (.finite v)
  | x => Binary64.plain x

/-- The time of an entry: a number that always has a fraction. -/
def timeText : Binary64 → Text
  | .finite v =>
      if v.isWhole then wholeText v v.negative ++ ['.', '0'] else Binary64.plain (.finite v)
  | x => Binary64.plain x

/-! ## Parts of statements -/

/-- A string between double quotes. -/
def stringText (s : StringLiteral) : Text := '"' :: escapeString s.value ++ ['"']

/-- A field of a structured synchronisation. -/
def fieldText (f : Field) : Text :=
  f.key ++ ':' :: ' ' ::
    (match f.value with
    | .string s => stringText s
    | .number n => numberText n.value)

/-- A structured synchronisation. -/
def blockText (b : BlockSync) : Text :=
  if b.fields.isEmpty then b.logType ++ " \x7b\x7d".toList
  else
    b.logType ++ " \x7b ".toList ++ Text.join ", ".toList (b.fields.map fieldText)
      ++ " \x7d".toList

/-- A synchronisation on a regular expression. -/
def regexText (s : RegexSync) : Text := "sync /".toList ++ escapeRegex s.regex.pattern ++ ['/']

/-- Whether two numbers are equal as numbers: the zeros are, and an undefined number is not
equal to itself. -/
def sameNumber : Binary64 → Binary64 → Bool
  | .finite a, .finite b => (a.mantissa == 0 && b.mantissa == 0) || a == b
  | .infinite a, .infinite b => a == b
  | _, _ => false

/-- A time window; the second number is left out if it says nothing new. -/
def windowText (w : Window) : Text :=
  "window ".toList ++ numberText w.before.value ++
    (match w.after with
    | some after =>
        if sameNumber after.value w.before.value then [] else ',' :: numberText after.value
    | none => [])

/-- A jump. -/
def jumpText (j : Jump) : Text := "jump ".toList ++ numberText j.time.value

/-- A duration. -/
def durationText (d : Duration) : Text := "duration ".toList ++ numberText d.time.value

/-- The name of a hidden statement behind its keyword. -/
def hideAllText (h : HideAll) : Text := "hideall ".toList ++ stringText h.name

/-- An optional part behind a blank. -/
def optionalText {α : Type} (spell : α → Text) : Option α → Text
  | some x => ' ' :: spell x
  | none => []

/-- An entry whose synchronisation is already spelt: modifiers stand in the order
synchronisation, duration, window, jump. -/
def entryText (time : NumberLiteral) (name : StringLiteral) (sync : Option Text)
    (window : Option Window) (duration : Option Duration) (jump : Option Jump) : Text :=
  timeText time.value ++ ' ' :: stringText name ++ optionalText id sync
    ++ optionalText durationText duration ++ optionalText windowText window
    ++ optionalText jumpText jump

/-! ## Nodes without a canonical form -/

/-- What a node without a canonical form was meant to be. -/
inductive Role where
  | root
  | statement
  | sync
deriving DecidableEq, Repr

/-- A node without a canonical form: its role, its kind by name, and its span. -/
structure Unsupported where
  role : Role
  typeName : Text
  span : Span
deriving DecidableEq, Repr

/-- The words for a node without a canonical form. -/
def Unsupported.message (u : Unsupported) : Text :=
  (match u.role with
  | .root => "Invalid AST root: ".toList
  | .statement => "Unsupported statement type: ".toList
  | .sync => "Unsupported sync type: ".toList) ++ u.typeName

/-- A node without a canonical form as an error. -/
def Unsupported.report (u : Unsupported) : Report :=
  ⟨.unsupported, u.message, u.span.first, none⟩

namespace Node

/-- A node without a canonical form in a role. -/
def unsupported (n : Node) (role : Role) : Unsupported := ⟨role, n.typeName, n.span⟩

/-- The canonical form of a synchronisation. -/
def canonicalSync : Node → Except Unsupported Text
  | .regexSync s => .ok (regexText s)
  | .blockSync b => .ok (blockText b)
  | n => .error (n.unsupported .sync)

/-- The canonical form of an optional synchronisation. -/
def canonicalSync? : Option Node → Except Unsupported (Option Text)
  | none => .ok none
  | some n => n.canonicalSync.map some

/-- The canonical form of a statement. -/
def canonicalStatement : Node → Except Unsupported Text
  | .hideAll h => .ok (hideAllText h)
  | .entry _ time name s w d j =>
      (canonicalSync? s).map fun s => entryText time name s w d j
  | n => .error (n.unsupported .statement)

/-- The canonical forms of statements, up to the first that has none. -/
def canonicalStatements : List Node → Except Unsupported (List Text)
  | [] => .ok []
  | n :: rest =>
      match n.canonicalStatement with
      | .error u => .error u
      | .ok line => (canonicalStatements rest).map (line :: ·)

/-- The canonical form of a program: the lines of its statements. -/
def canonical : Node → Except Unsupported Text
  | .program _ body _ _ _ => (canonicalStatements body).map (Text.join ['\n'])
  | n => .error (n.unsupported .root)

end Node

/-- The canonical form of a program. -/
def Program.canonical (p : Program) : Except Unsupported Text := p.toNode.canonical

end RaidTimeline
