import RaidTimeline.Source
import RaidTimeline.Number.Binary64

/-!
# Timelines

A timeline is a list of statements.  The central one is the entry: at a time, an event happens;
it may be tied to a log line, and have a duration, a time window and a jump.

The parts of a statement are fixed, so they are structures.  {lit}`Node` gathers all sixteen
kinds of node in one type; it also holds trees that no source text denotes, with any node as a
statement or in the place of a synchronisation.

Main results:

- Definition {lit}`Statement`: the statements of a source text.
- Definition {lit}`Program`: a source text as a whole.
- Definition {lit}`Node`: any node, with {lit}`Node.typeName` and {lit}`Node.span`.
-/

namespace RaidTimeline

/-! ## Literals -/

/-- A comment; the value excludes the number sign in front. -/
structure Comment where
  span : Span
  value : Text
  raw : Text
deriving DecidableEq

/-- A string. -/
structure StringLiteral where
  span : Span
  value : Text
  raw : Text
deriving DecidableEq

/-- A number. -/
structure NumberLiteral where
  span : Span
  value : Binary64
  raw : Text
deriving DecidableEq

/-- A regular expression. -/
structure RegexLiteral where
  span : Span
  pattern : Text
  raw : Text
  flags : Text
deriving DecidableEq

/-- The literals that a field of a structured synchronisation can have. -/
inductive Literal where
  | string (literal : StringLiteral)
  | number (literal : NumberLiteral)
deriving DecidableEq

/-! ## Modifiers -/

/-- A field of a structured synchronisation. -/
structure Field where
  key : Text
  value : Literal
deriving DecidableEq

/-- A synchronisation on log lines that match a regular expression. -/
structure RegexSync where
  span : Span
  regex : RegexLiteral
deriving DecidableEq

/-- A synchronisation on log lines of a type whose fields have given values. -/
structure BlockSync where
  span : Span
  logType : Text
  fields : List Field
deriving DecidableEq

/-- A synchronisation of an entry with the log. -/
inductive Sync where
  | regex (sync : RegexSync)
  | block (sync : BlockSync)
deriving DecidableEq

/-- The time window of an entry; without a second number it is symmetric. -/
structure Window where
  span : Span
  before : NumberLiteral
  after : Option NumberLiteral
deriving DecidableEq

/-- The time at which the timeline goes on. -/
structure Jump where
  span : Span
  time : NumberLiteral
deriving DecidableEq

/-- How long an entry lasts. -/
structure Duration where
  span : Span
  time : NumberLiteral
deriving DecidableEq

/-- How long before an event its alert comes. -/
structure Before where
  span : Span
  time : NumberLiteral
deriving DecidableEq

/-- The sound file of an alert. -/
structure Sound where
  span : Span
  file : StringLiteral
deriving DecidableEq

/-! ## Statements -/

/-- Hides every entry of a name. -/
structure HideAll where
  span : Span
  name : StringLiteral
deriving DecidableEq

/-- Alerts to every entry of a name. -/
structure AlertAll where
  span : Span
  name : StringLiteral
  before : Option Before
  sound : Option Sound
deriving DecidableEq

/-- Names a sound file. -/
structure Define where
  span : Span
  name : StringLiteral
  file : StringLiteral
  defineType : Text
deriving DecidableEq

/-- A timed event with its modifiers. -/
structure Entry where
  span : Span
  time : NumberLiteral
  name : StringLiteral
  sync : Option Sync
  window : Option Window
  duration : Option Duration
  jump : Option Jump
deriving DecidableEq

/-- The statements of a timeline. -/
inductive Statement where
  | hideAll (statement : HideAll)
  | alertAll (statement : AlertAll)
  | define (statement : Define)
  | entry (statement : Entry)
deriving DecidableEq

/-- A source text: its statements, its comments, and where it comes from. -/
structure Program where
  span : Span
  body : List Statement
  comments : List Comment
  sourceFile : Text
  sourceType : Text
deriving DecidableEq

/-! ## Nodes of every kind -/

/-- Any node.  The statements of a program, and the synchronisation of an entry, may be nodes of
any kind. -/
inductive Node where
  | comment (node : Comment)
  | string (node : StringLiteral)
  | number (node : NumberLiteral)
  | regex (node : RegexLiteral)
  | hideAll (node : HideAll)
  | alertAll (node : AlertAll)
  | define (node : Define)
  | regexSync (node : RegexSync)
  | blockSync (node : BlockSync)
  | window (node : Window)
  | jump (node : Jump)
  | duration (node : Duration)
  | before (node : Before)
  | sound (node : Sound)
  | entry (span : Span) (time : NumberLiteral) (name : StringLiteral) (sync : Option Node)
      (window : Option Window) (duration : Option Duration) (jump : Option Jump)
  | program (span : Span) (body : List Node) (comments : List Comment)
      (sourceFile sourceType : Text)

namespace Node

/-- The name of a kind of node. -/
def typeName : Node → Text
  | .comment _ => "CommentLine".toList
  | .string _ => "StringLiteral".toList
  | .number _ => "NumericLiteral".toList
  | .regex _ => "RegExpLiteral".toList
  | .hideAll _ => "HideAllStatement".toList
  | .alertAll _ => "AlertAllStatement".toList
  | .define _ => "DefineStatement".toList
  | .regexSync _ => "SyncStatement".toList
  | .blockSync _ => "NetSyncStatement".toList
  | .window _ => "WindowStatement".toList
  | .jump _ => "JumpStatement".toList
  | .duration _ => "DurationStatement".toList
  | .before _ => "BeforeStatement".toList
  | .sound _ => "SoundStatement".toList
  | .entry .. => "Entry".toList
  | .program .. => "Program".toList

/-- The span of a node. -/
def span : Node → Span
  | .comment node => node.span
  | .string node => node.span
  | .number node => node.span
  | .regex node => node.span
  | .hideAll node => node.span
  | .alertAll node => node.span
  | .define node => node.span
  | .regexSync node => node.span
  | .blockSync node => node.span
  | .window node => node.span
  | .jump node => node.span
  | .duration node => node.span
  | .before node => node.span
  | .sound node => node.span
  | .entry span .. => span
  | .program span .. => span

end Node

/-- A literal as a node. -/
def Literal.toNode : Literal → Node
  | .string literal => .string literal
  | .number literal => .number literal

/-- A synchronisation as a node. -/
def Sync.toNode : Sync → Node
  | .regex sync => .regexSync sync
  | .block sync => .blockSync sync

/-- An entry as a node. -/
def Entry.toNode (e : Entry) : Node :=
  .entry e.span e.time e.name (e.sync.map Sync.toNode) e.window e.duration e.jump

/-- A statement as a node. -/
def Statement.toNode : Statement → Node
  | .hideAll statement => .hideAll statement
  | .alertAll statement => .alertAll statement
  | .define statement => .define statement
  | .entry statement => statement.toNode

/-- A program as a node. -/
def Program.toNode (p : Program) : Node :=
  .program p.span (p.body.map Statement.toNode) p.comments p.sourceFile p.sourceType

/-- The span of a statement. -/
def Statement.span (s : Statement) : Span := s.toNode.span

/-- The name that a statement is about. -/
def Statement.name : Statement → StringLiteral
  | .hideAll statement => statement.name
  | .alertAll statement => statement.name
  | .define statement => statement.name
  | .entry statement => statement.name

/-- The entries of a program, in source order. -/
def Program.entries (p : Program) : List Entry :=
  p.body.filterMap fun
    | .entry statement => some statement
    | _ => none

/-- A program on one line: where it comes from and how many statements it has. -/
def Program.label (p : Program) : Text :=
  "Program(".toList ++ (if p.sourceFile.isEmpty then "<unknown>".toList else p.sourceFile)
    ++ ", ".toList ++ Text.ofNat p.body.length ++ " statements)".toList

/-- The value of a field; of several fields with one key the last counts. -/
def BlockSync.get? (s : BlockSync) (key : Text) : Option Literal :=
  (s.fields.reverse.find? (·.key == key)).map (·.value)

end RaidTimeline
