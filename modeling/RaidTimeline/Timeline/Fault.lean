import RaidTimeline.Token.Basic

/-!
# Why a source text is rejected

A source text is rejected at a token, for a cause.  The cause decides the words of the message.

Main results:

- Definition {lit}`Fault`: the causes, with {lit}`Fault.message`.
- Definition {lit}`ParseError`: a cause and the token at fault.
- Definition {lit}`Report`: an error as it is shown, with {lit}`Report.message`.
-/

namespace RaidTimeline

/-- Why a token is at fault. -/
inductive Fault where
  | unrecognized
  | unexpected
  | expectedWord (word : Text)
  | wrongWord (word : Text)
  | expectedKeyword
  | unknownLogType
  | hideAllName
  | alertAllName
  | beforeNumber
  | soundString
  | defineKind
  | unsupportedDefine
  | defineName
  | defineFile
  | entryTime
  | entryName
  | syncRegex
  | windowNumber
  | windowAfter
  | jumpNumber
  | durationNumber
  | fieldValue (key : Text)
  | fieldEnd
deriving DecidableEq, Repr

/-- The words for a cause at a token. -/
def Fault.message (t : Token) : Fault → Text
  | .unrecognized => "Unrecognized input ".toList ++ Text.quoted (t.raw.take 20)
  | .unexpected => "Unexpected ".toList ++ t.describe
  | .expectedWord word => "Expected ".toList ++ Text.quoted word
  | .wrongWord word =>
      "Expected ".toList ++ Text.quoted word ++ ", got ".toList ++ Text.quoted t.raw
  | .expectedKeyword => "Expected KEYWORD, got ".toList ++ t.describe
  | .unknownLogType => "Unknown log line type ".toList ++ Text.quoted t.value
  | .hideAllName => "hideall must be followed by a string".toList
  | .alertAllName => "alertall must be followed by a string".toList
  | .beforeNumber => "before must be followed by a number".toList
  | .soundString => "sound must be followed by a string".toList
  | .defineKind => "define must be followed by alertsound".toList
  | .unsupportedDefine =>
      "Unsupported define type ".toList ++ Text.quoted t.value ++ ", expected 'alertsound'".toList
  | .defineName => "define alertsound expects a name string".toList
  | .defineFile => "define alertsound expects a file string".toList
  | .entryTime => "Entry must start with a time".toList
  | .entryName => "Entry time must be followed by a name string".toList
  | .syncRegex => "sync must be followed by a /regex/".toList
  | .windowNumber => "window must be followed by a number".toList
  | .windowAfter => "window ',' must be followed by a number".toList
  | .jumpNumber => "jump must be followed by a number".toList
  | .durationNumber => "duration must be followed by a number".toList
  | .fieldValue key =>
      "Expected string or number for field ".toList ++ Text.quoted key ++ ", got ".toList
        ++ t.describe
  | .fieldEnd => "Expected ',' or '\x7d', got ".toList ++ t.describe

/-- A cause and the token at fault. -/
structure ParseError where
  fault : Fault
  token : Token
deriving DecidableEq, Repr

/-- The three families of timeline errors. -/
inductive ErrorKind where
  | lexical
  | grammatical
  | unsupported
deriving DecidableEq, Repr

/-- An error as it is shown: its family, its words, where it lies, and the token at fault. -/
structure Report where
  kind : ErrorKind
  text : Text
  position : Position
  token : Option Token
deriving DecidableEq, Repr

namespace Report

/-- An error that lies nowhere. -/
def ofText (kind : ErrorKind) (text : Text) : Report := ⟨kind, text, ⟨0, 0⟩, none⟩

/-- A position in words. -/
def place (p : Position) : Text :=
  " error at line ".toList ++ Text.ofNat p.line ++ ", column ".toList ++ Text.ofNat p.column
    ++ ": ".toList

/-- The whole message.  Lexical errors always name a place, grammatical ones if a token is at
fault, and unsupported nodes never. -/
def message (r : Report) : Text :=
  match r.kind, r.token with
  | .lexical, _ => "Lexer".toList ++ place r.position ++ r.text
  | .grammatical, some _ => "Parse".toList ++ place r.position ++ r.text
  | .grammatical, none => "Parse error: ".toList ++ r.text
  | .unsupported, _ => r.text

end Report

namespace ParseError

/-- Unreadable text is a lexical error, and every other cause a grammatical one. -/
def kind (e : ParseError) : ErrorKind :=
  if e.fault = .unrecognized then .lexical else .grammatical

/-- A rejection as it is shown. -/
def report (e : ParseError) : Report :=
  ⟨e.kind, e.fault.message e.token, e.token.span.first, some e.token⟩

end ParseError

end RaidTimeline
