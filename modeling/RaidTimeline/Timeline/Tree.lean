import RaidTimeline.Data.Value
import RaidTimeline.Timeline.Node

/-!
# Nodes as data

A node is exported as an object whose first field is the name of its kind.  With locations the
range and the positions of its span follow, and literals and comments keep their raw text.  Parts
that are absent are left out.

Main results:

- Definition {lit}`Node.tree`: a node as data.
- Definition {lit}`Value.nodeCount`: how many nodes exported data holds.
-/

namespace RaidTimeline

/-! ## Export -/

/-- A natural number as data. -/
def Value.ofNat (n : Nat) : Value := .integer n

/-- A position as data. -/
def Position.tree (p : Position) : Value :=
  .object [("line".toList, .ofNat p.line), ("column".toList, .ofNat p.column)]

/-- The fields for a span. -/
def Span.fields (s : Span) : List (Text × Value) :=
  [("range".toList, .array [.ofNat s.start, .ofNat s.stop]),
    ("loc".toList, .object [("start".toList, s.first.tree), ("end".toList, s.last.tree)])]

/-- The fields that every node begins with. -/
def headFields (locations : Bool) (typeName : Text) (s : Span) : List (Text × Value) :=
  ("type".toList, .string typeName) :: (if locations then s.fields else [])

/-- The field for a raw text. -/
def rawField (locations : Bool) (raw : Text) : List (Text × Value) :=
  if locations then [("raw".toList, .string raw)] else []

/-- The field for an optional part. -/
def optionalField {α : Type} (key : Text) (tree : α → Value) : Option α → List (Text × Value)
  | some x => [(key, tree x)]
  | none => []

/-- A comment as data. -/
def Comment.tree (locations : Bool) (c : Comment) : Value :=
  .object (headFields locations "CommentLine".toList c.span
    ++ ("value".toList, .string c.value) :: rawField locations c.raw)

/-- A string literal as data. -/
def StringLiteral.tree (locations : Bool) (s : StringLiteral) : Value :=
  .object (headFields locations "StringLiteral".toList s.span
    ++ ("value".toList, .string s.value) :: rawField locations s.raw)

/-- A number literal as data. -/
def NumberLiteral.tree (locations : Bool) (n : NumberLiteral) : Value :=
  .object (headFields locations "NumericLiteral".toList n.span
    ++ ("value".toList, .real n.value) :: rawField locations n.raw)

/-- A regular expression literal as data. -/
def RegexLiteral.tree (locations : Bool) (r : RegexLiteral) : Value :=
  .object (headFields locations "RegExpLiteral".toList r.span
    ++ ("pattern".toList, .string r.pattern) :: rawField locations r.raw
    ++ [("flags".toList, .string r.flags)])

/-- A field literal as data. -/
def Literal.tree (locations : Bool) : Literal → Value
  | .string s => s.tree locations
  | .number n => n.tree locations

/-- A field of a structured synchronisation as data. -/
def Field.tree (locations : Bool) (f : Field) : Value :=
  .object [("key".toList, .string f.key), ("value".toList, f.value.tree locations)]

/-- A synchronisation on a regular expression as data. -/
def RegexSync.tree (locations : Bool) (s : RegexSync) : Value :=
  .object (headFields locations "SyncStatement".toList s.span
    ++ [("regex".toList, s.regex.tree locations)])

/-- A structured synchronisation as data. -/
def BlockSync.tree (locations : Bool) (s : BlockSync) : Value :=
  .object (headFields locations "NetSyncStatement".toList s.span
    ++ [("sync_type".toList, .string s.logType),
      ("fields".toList, .array (s.fields.map (Field.tree locations)))])

/-- A time window as data. -/
def Window.tree (locations : Bool) (w : Window) : Value :=
  .object (headFields locations "WindowStatement".toList w.span
    ++ ("before".toList, w.before.tree locations)
      :: optionalField "after".toList (NumberLiteral.tree locations) w.after)

/-- A jump as data. -/
def Jump.tree (locations : Bool) (j : Jump) : Value :=
  .object (headFields locations "JumpStatement".toList j.span
    ++ [("time".toList, j.time.tree locations)])

/-- A duration as data. -/
def Duration.tree (locations : Bool) (d : Duration) : Value :=
  .object (headFields locations "DurationStatement".toList d.span
    ++ [("time".toList, d.time.tree locations)])

/-- The lead time of an alert as data. -/
def Before.tree (locations : Bool) (b : Before) : Value :=
  .object (headFields locations "BeforeStatement".toList b.span
    ++ [("time".toList, b.time.tree locations)])

/-- The sound of an alert as data. -/
def Sound.tree (locations : Bool) (s : Sound) : Value :=
  .object (headFields locations "SoundStatement".toList s.span
    ++ [("file".toList, s.file.tree locations)])

/-- A hidden name as data. -/
def HideAll.tree (locations : Bool) (h : HideAll) : Value :=
  .object (headFields locations "HideAllStatement".toList h.span
    ++ [("name".toList, h.name.tree locations)])

/-- An alert as data. -/
def AlertAll.tree (locations : Bool) (a : AlertAll) : Value :=
  .object (headFields locations "AlertAllStatement".toList a.span
    ++ ("name".toList, a.name.tree locations)
      :: optionalField "before".toList (Before.tree locations) a.before
    ++ optionalField "sound".toList (Sound.tree locations) a.sound)

/-- A definition as data. -/
def Define.tree (locations : Bool) (d : Define) : Value :=
  .object (headFields locations "DefineStatement".toList d.span
    ++ [("name".toList, d.name.tree locations), ("file".toList, d.file.tree locations),
      ("define_type".toList, .string d.defineType)])

mutual

/-- A node as data, with or without locations and raw texts. -/
def Node.tree (locations : Bool) : Node → Value
  | .comment n => n.tree locations
  | .string n => n.tree locations
  | .number n => n.tree locations
  | .regex n => n.tree locations
  | .hideAll n => n.tree locations
  | .alertAll n => n.tree locations
  | .define n => n.tree locations
  | .regexSync n => n.tree locations
  | .blockSync n => n.tree locations
  | .window n => n.tree locations
  | .jump n => n.tree locations
  | .duration n => n.tree locations
  | .before n => n.tree locations
  | .sound n => n.tree locations
  | .entry span time name s w d j =>
      .object (headFields locations "Entry".toList span
        ++ ("time".toList, time.tree locations) :: ("name".toList, name.tree locations)
          :: Node.syncField locations s
        ++ optionalField "window".toList (Window.tree locations) w
        ++ optionalField "duration".toList (Duration.tree locations) d
        ++ optionalField "jump".toList (Jump.tree locations) j)
  | .program span body comments sourceFile sourceType =>
      .object (headFields locations "Program".toList span
        ++ [("body".toList, .array (Node.trees locations body)),
          ("comments".toList, .array (comments.map (Comment.tree locations))),
          ("source_file".toList, .string sourceFile),
          ("source_type".toList, .string sourceType)])

/-- A list of nodes as data. -/
def Node.trees (locations : Bool) : List Node → List Value
  | [] => []
  | n :: rest => n.tree locations :: Node.trees locations rest

/-- The field for the synchronisation of an entry. -/
def Node.syncField (locations : Bool) : Option Node → List (Text × Value)
  | some n => [("sync".toList, n.tree locations)]
  | none => []

end

/-! ## Counting nodes -/

namespace Value

/-- Whether an object has a field of a key. -/
def hasField (fields : List (Text × Value)) (key : Text) : Bool := fields.any (·.1 == key)

mutual

/-- How many nodes the fields of an object hold.  Objects with a type are nodes; in a list,
objects without one are passed through, and elsewhere they hold none.  Locations hold none. -/
def fieldsCount : List (Text × Value) → Nat
  | [] => 0
  | (key, v) :: rest =>
      (if key = "loc".toList ∨ key = "range".toList then 0 else memberCount v) + fieldsCount rest

/-- How many nodes the value of a field holds. -/
def memberCount : Value → Nat
  | .array items => itemsCount items
  | .object fields => if hasField fields "type".toList then 1 + fieldsCount fields else 0
  | _ => 0

/-- How many nodes the items of a list hold. -/
def itemsCount : List Value → Nat
  | [] => 0
  | .object fields :: rest =>
      (if hasField fields "type".toList then 1 + fieldsCount fields else fieldsCount fields)
        + itemsCount rest
  | _ :: rest => itemsCount rest

end

/-- How many nodes exported data holds, its root included. -/
def nodeCount (fields : List (Text × Value)) : Nat := 1 + fieldsCount fields

end Value

end RaidTimeline
