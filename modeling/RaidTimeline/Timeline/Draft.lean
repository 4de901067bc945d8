import RaidTimeline.Timeline.Fault
import RaidTimeline.Timeline.Node

/-!
# Drafts: unfinished constructs

The grammar of timelines has no nesting, so a construct is read by a finite machine that is given
the tokens one by one.  A draft is a construct of which some tokens have been read.  Given the
next token, it becomes a longer draft, is complete, was complete before that token, or is at
fault there.

Main results:

- Definition {lit}`Verdict`: what a draft makes of a token.
- Definitions {lit}`BlockDraft.accept`, {lit}`ModifierDraft.accept`,
  {lit}`StatementDraft.accept` and {lit}`ProgramDraft.accept`: the four machines, each built on
  the one before it.
-/

namespace RaidTimeline

/-! ## Verdicts -/

/-- What a draft makes of a token: {lit}`more` and {lit}`done` consume it, {lit}`fault` consumes
it and rejects it, and {lit}`before` leaves it to what comes next. -/
inductive Verdict (σ ρ : Type) where
  | more (draft : σ)
  | done (result : ρ)
  | before (result : ρ)
  | fault (cause : Fault)
deriving DecidableEq

/-- A verdict about part of a larger construct. -/
def Verdict.map {σ σ' ρ ρ' : Type} (onDraft : σ → σ') (onResult : ρ → ρ') :
    Verdict σ ρ → Verdict σ' ρ'
  | .more draft => .more (onDraft draft)
  | .done result => .done (onResult result)
  | .before result => .before (onResult result)
  | .fault cause => .fault cause

namespace Token

/-- Goes on if a token is of a kind; unreadable text is always unrecognized. -/
def expect {σ ρ : Type} (t : Token) (kind : Kind) (otherwise : Fault) (next : Verdict σ ρ) :
    Verdict σ ρ :=
  if t.kind = .unknown then .fault .unrecognized
  else if t.kind = kind then next
  else .fault otherwise

/-- Goes on if a token is of a kind and has a value. -/
def expectWord {σ ρ : Type} (t : Token) (kind : Kind) (word : Text) (next : Verdict σ ρ) :
    Verdict σ ρ :=
  t.expect kind (.expectedWord word) (if t.value = word then next else .fault (.wrongWord word))

/-- A comment token as a comment. -/
def toComment (t : Token) : Comment := ⟨t.span, t.value, t.raw⟩

/-- A string token as a literal. -/
def toString (t : Token) : StringLiteral := ⟨t.span, t.value, t.raw⟩

/-- A number token as a literal. -/
def toNumber (t : Token) : NumberLiteral := ⟨t.span, .ofLiteral t.value, t.raw⟩

/-- A regular expression token as a literal. -/
def toRegex (t : Token) : RegexLiteral := ⟨t.span, t.value, t.raw, []⟩

end Token

/-! ## Structured synchronisations -/

/-- A structured synchronisation after its keyword: before the opening brace, where a field may
stand, within a field, and behind a field. -/
inductive BlockDraft where
  | opening (keyword : Token)
  | slot (keyword : Token) (fields : List Field)
  | colon (keyword : Token) (fields : List Field) (key : Token)
  | value (keyword : Token) (fields : List Field) (key : Token)
  | separator (keyword : Token) (fields : List Field)
deriving DecidableEq

namespace BlockDraft

/-- Behind a field, or in place of one: a comma goes on and a closing brace ends the block. -/
def close (keyword : Token) (fields : List Field) (t : Token) : Verdict BlockDraft BlockSync :=
  if t.holds .brace ['\x7d'] then .done ⟨keyword.span.through t.span, keyword.value, fields⟩
  else if t.holds .punctuator [','] then .more (.slot keyword fields)
  else if t.kind = .unknown then .fault .unrecognized
  else .fault .fieldEnd

/-- What a structured synchronisation makes of a token. -/
def accept : BlockDraft → Token → Verdict BlockDraft BlockSync
  | .opening keyword, t => t.expectWord .brace ['\x7b'] (.more (.slot keyword []))
  | .slot keyword fields, t =>
      if t.kind = .identifier then .more (.colon keyword fields t) else close keyword fields t
  | .colon keyword fields key, t =>
      t.expectWord .punctuator [':'] (.more (.value keyword fields key))
  | .value keyword fields key, t =>
      if t.kind = .string then
        .more (.separator keyword (fields ++ [⟨key.value, .string t.toString⟩]))
      else if t.kind = .number then
        .more (.separator keyword (fields ++ [⟨key.value, .number t.toNumber⟩]))
      else if t.kind = .unknown then .fault .unrecognized
      else .fault (.fieldValue key.value)
  | .separator keyword fields, t => close keyword fields t

end BlockDraft

/-! ## Modifiers of entries -/

/-- A modifier of an entry. -/
inductive Modifier where
  | sync (sync : Sync)
  | window (window : Window)
  | jump (jump : Jump)
  | duration (duration : Duration)
deriving DecidableEq

/-- The span of a modifier. -/
def Modifier.span : Modifier → Span
  | .sync s => s.toNode.span
  | .window w => w.span
  | .jump j => j.span
  | .duration d => d.span

/-- A modifier as a node. -/
def Modifier.toNode : Modifier → Node
  | .sync s => s.toNode
  | .window w => .window w
  | .jump j => .jump j
  | .duration d => .duration d

/-- A modifier after its keyword. -/
inductive ModifierDraft where
  | regex (keyword : Token)
  | block (draft : BlockDraft)
  | window (keyword : Token)
  | windowComma (keyword before : Token)
  | windowAfter (keyword before : Token)
  | jump (keyword : Token)
  | duration (keyword : Token)
deriving DecidableEq

namespace ModifierDraft

/-- The modifier that a keyword begins: the words of log line types begin structured
synchronisations, whatever else they may mean. -/
def begin? (logTypes : List Text) (t : Token) : Option ModifierDraft :=
  if t.kind ≠ .keyword then none
  else if t.value ∈ logTypes then some (.block (.opening t))
  else if t.value = "sync".toList then some (.regex t)
  else if t.value = "window".toList then some (.window t)
  else if t.value = "jump".toList then some (.jump t)
  else if t.value = "duration".toList then some (.duration t)
  else none

/-- What a modifier makes of a token. -/
def accept : ModifierDraft → Token → Verdict ModifierDraft Modifier
  | .regex keyword, t =>
      t.expect .regex .syncRegex (.done (.sync (.regex ⟨keyword.span.through t.span, t.toRegex⟩)))
  | .block draft, t =>
      (draft.accept t).map .block fun sync => .sync (.block sync)
  | .window keyword, t => t.expect .number .windowNumber (.more (.windowComma keyword t))
  | .windowComma keyword before, t =>
      if t.holds .punctuator [','] then .more (.windowAfter keyword before)
      else .before (.window ⟨keyword.span.through before.span, before.toNumber, none⟩)
  | .windowAfter keyword before, t =>
      t.expect .number .windowAfter
        (.done (.window ⟨keyword.span.through t.span, before.toNumber, some t.toNumber⟩))
  | .jump keyword, t =>
      t.expect .number .jumpNumber (.done (.jump ⟨keyword.span.through t.span, t.toNumber⟩))
  | .duration keyword, t =>
      t.expect .number .durationNumber (.done (.duration ⟨keyword.span.through t.span, t.toNumber⟩))

end ModifierDraft

/-- An entry with one more modifier; of several modifiers of one kind the last counts. -/
def Entry.modify (e : Entry) (m : Modifier) : Entry :=
  let e := { e with span := e.span.through m.span }
  match m with
  | .sync s => { e with sync := some s }
  | .window w => { e with window := some w }
  | .jump j => { e with jump := some j }
  | .duration d => { e with duration := some d }

/-! ## Statements -/

/-- A statement after its first token.  {lit}`alertMore` and {lit}`entryMore` hold statements
that are complete and may be extended. -/
inductive StatementDraft where
  | hideAll (keyword : Token)
  | alertAll (keyword : Token)
  | alertMore (alert : AlertAll)
  | alertBefore (alert : AlertAll) (keyword : Token)
  | alertSound (alert : AlertAll) (keyword : Token)
  | define (keyword : Token)
  | defineName (keyword defineType : Token)
  | defineFile (keyword defineType name : Token)
  | entry (time : Token)
  | entryMore (entry : Entry)
  | entryModifier (entry : Entry) (draft : ModifierDraft)
deriving DecidableEq

namespace StatementDraft

/-- The statement that a token begins. -/
def begin? (t : Token) : Option StatementDraft :=
  if t.kind = .keyword then
    if t.value = "hideall".toList then some (.hideAll t)
    else if t.value = "alertall".toList then some (.alertAll t)
    else if t.value = "define".toList then some (.define t)
    else none
  else if t.kind = .number then some (.entry t)
  else none

/-- What an entry that is complete so far makes of a token. -/
def acceptEntry (logTypes : List Text) (e : Entry) (t : Token) :
    Verdict StatementDraft Statement :=
  match ModifierDraft.begin? logTypes t with
  | some draft => .more (.entryModifier e draft)
  | none => .before (.entry e)

/-- What an alert that is complete so far makes of a token. -/
def acceptAlert (a : AlertAll) (t : Token) : Verdict StatementDraft Statement :=
  if t.holds .keyword "before".toList then .more (.alertBefore a t)
  else if t.holds .keyword "sound".toList then .more (.alertSound a t)
  else .before (.alertAll a)

/-- What a statement makes of a token. -/
def accept (logTypes : List Text) : StatementDraft → Token → Verdict StatementDraft Statement
  | .hideAll keyword, t =>
      t.expect .string .hideAllName (.done (.hideAll ⟨keyword.span.through t.span, t.toString⟩))
  | .alertAll keyword, t =>
      t.expect .string .alertAllName
        (.more (.alertMore ⟨keyword.span.through t.span, t.toString, none, none⟩))
  | .alertMore a, t => acceptAlert a t
  | .alertBefore a keyword, t =>
      t.expect .number .beforeNumber
        (.more (.alertMore { a with
          span := a.span.through t.span
          before := some ⟨keyword.span.through t.span, t.toNumber⟩ }))
  | .alertSound a keyword, t =>
      t.expect .string .soundString
        (.more (.alertMore { a with
          span := a.span.through t.span
          sound := some ⟨keyword.span.through t.span, t.toString⟩ }))
  | .define keyword, t =>
      t.expect .identifier .defineKind
        (if t.value = "alertsound".toList then .more (.defineName keyword t)
        else .fault .unsupportedDefine)
  | .defineName keyword defineType, t =>
      t.expect .string .defineName (.more (.defineFile keyword defineType t))
  | .defineFile keyword defineType name, t =>
      t.expect .string .defineFile
        (.done (.define ⟨keyword.span.through t.span, name.toString, t.toString, defineType.value⟩))
  | .entry time, t =>
      t.expect .string .entryName
        (.more (.entryMore
          ⟨time.span.through t.span, time.toNumber, t.toString, none, none, none, none⟩))
  | .entryMore e, t => acceptEntry logTypes e t
  | .entryModifier e draft, t =>
      match draft.accept t with
      | .more draft => .more (.entryModifier e draft)
      | .done m => .more (.entryMore (e.modify m))
      | .before m => acceptEntry logTypes (e.modify m) t
      | .fault cause => .fault cause

end StatementDraft

/-! ## Programs -/

/-- A program: the statements that are finished, and the one that is not. -/
structure ProgramDraft where
  statements : List Statement
  current : Option StatementDraft
deriving DecidableEq

/-- How a program ends between two statements: the statements before, and the error unless the
text has ended there. -/
structure ProgramEnd where
  statements : List Statement
  error : Option ParseError
deriving DecidableEq

namespace ProgramDraft

/-- What a program makes of a token between two statements.  It is complete before the end of
the text, and it stops before a token that begins no statement. -/
def acceptFirst (statements : List Statement) (t : Token) : Verdict ProgramDraft ProgramEnd :=
  match StatementDraft.begin? t with
  | some draft => .more ⟨statements, some draft⟩
  | none =>
      if t.kind = .eof then .before ⟨statements, none⟩
      else if t.kind = .unknown then .before ⟨statements, some ⟨.unrecognized, t⟩⟩
      else .before ⟨statements, some ⟨.unexpected, t⟩⟩

/-- What a program makes of a token. -/
def accept (logTypes : List Text) (p : ProgramDraft) (t : Token) :
    Verdict ProgramDraft ProgramEnd :=
  match p.current with
  | none => acceptFirst p.statements t
  | some draft =>
      match draft.accept logTypes t with
      | .more draft => .more ⟨p.statements, some draft⟩
      | .done statement => .more ⟨p.statements ++ [statement], none⟩
      | .before statement => acceptFirst (p.statements ++ [statement]) t
      | .fault cause => .fault cause

end ProgramDraft

/-! ## Single constructs -/

/-- The constructs that can be read on their own. -/
inductive Construct where
  | hideAll
  | alertAll
  | define
  | entry
  | sync
  | block
  | window
  | jump
  | duration
deriving DecidableEq, Repr

/-- A single construct, before its first token or after it. -/
inductive ConstructDraft where
  | start (construct : Construct)
  | statement (draft : StatementDraft)
  | modifier (draft : ModifierDraft)
deriving DecidableEq

namespace ConstructDraft

/-- What a single construct makes of its first token. -/
def acceptFirst (logTypes : List Text) (t : Token) : Construct → Verdict ConstructDraft Node
  | .hideAll => t.expectWord .keyword "hideall".toList (.more (.statement (.hideAll t)))
  | .alertAll => t.expectWord .keyword "alertall".toList (.more (.statement (.alertAll t)))
  | .define => t.expectWord .keyword "define".toList (.more (.statement (.define t)))
  | .entry => t.expect .number .entryTime (.more (.statement (.entry t)))
  | .sync => t.expectWord .keyword "sync".toList (.more (.modifier (.regex t)))
  | .block =>
      t.expect .keyword .expectedKeyword
        (if t.value ∈ logTypes then .more (.modifier (.block (.opening t)))
        else .fault .unknownLogType)
  | .window => t.expectWord .keyword "window".toList (.more (.modifier (.window t)))
  | .jump => t.expectWord .keyword "jump".toList (.more (.modifier (.jump t)))
  | .duration => t.expectWord .keyword "duration".toList (.more (.modifier (.duration t)))

/-- What a single construct makes of a token. -/
def accept (logTypes : List Text) : ConstructDraft → Token → Verdict ConstructDraft Node
  | .start construct, t => acceptFirst logTypes t construct
  | .statement draft, t => (draft.accept logTypes t).map .statement Statement.toNode
  | .modifier draft, t => (draft.accept t).map .modifier Modifier.toNode

end ConstructDraft

/-- What a statement, or the place where one may stand, makes of a token: it is complete before
a token that begins no statement, and unreadable text is an error. -/
def acceptStatement (logTypes : List Text) :
    Option StatementDraft → Token → Verdict (Option StatementDraft)
      (Except ParseError (Option Statement))
  | some draft, t => (draft.accept logTypes t).map some fun statement => .ok (some statement)
  | none, t =>
      match StatementDraft.begin? t with
      | some draft => .more (some draft)
      | none =>
          if t.kind = .unknown then .before (.error ⟨.unrecognized, t⟩) else .before (.ok none)

end RaidTimeline
