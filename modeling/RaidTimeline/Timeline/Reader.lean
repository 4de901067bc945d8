import RaidTimeline.Timeline.Draft
import RaidTimeline.Token.Lexer

/-!
# Reading timelines

A reader gives the tokens of a lexer to a draft until the construct is complete or at fault.
Comments may stand anywhere; they are put aside on the way.  What a reader has consumed stays
consumed after an error, and the statements and comments found so far are kept.

Main results:

- Definition {lit}`run`: gives tokens to a draft.
- Definition {lit}`Reader.parse`: reads a whole program.
- Definitions {lit}`Reader.statement` and {lit}`Reader.construct`: read one statement, or one
  construct of a given kind.
- Definition {lit}`parseSource`: the program of a source text, or the error in it.
-/

namespace RaidTimeline

/-! ## Giving tokens to a draft -/

/-- A draft with the comments found on the way. -/
structure Annotated (σ : Type) where
  draft : σ
  comments : List Comment
deriving DecidableEq

/-- Comments are put aside, and other tokens are given to the draft. -/
def Annotated.accept {σ ρ : Type} (accept : σ → Token → Verdict σ ρ) (a : Annotated σ)
    (t : Token) : Verdict (Annotated σ) ρ :=
  if t.kind = .comment then .more ⟨a.draft, a.comments ++ [t.toComment]⟩
  else (accept a.draft t).map (⟨·, a.comments⟩) id

/-- How a run ended: with a result or an error, at a draft, and where the lexer is. -/
structure Run (σ ρ : Type) where
  outcome : Except ParseError ρ
  draft : σ
  lexer : Lexer

/-- The end of a run at a token, behind which the lexer is {lit}`next`; {lit}`go` says how a
longer draft goes on. -/
def settle {σ ρ : Type} (accept : σ → Token → Verdict σ ρ) (draft : σ) (t : Token)
    (next : Lexer) (go : σ → Run σ ρ) : Run σ ρ :=
  match accept draft t with
  | .more draft => go draft
  | .done result => ⟨.ok result, draft, next⟩
  | .before result => ⟨.ok result, draft, next.putBack t⟩
  | .fault cause => ⟨.error ⟨cause, t⟩, draft, next⟩

/-- Gives tokens to a draft until it is complete or at fault.  A token without text comes again
for ever; it is given twice, and a draft that is then still open is at fault. -/
def run {σ ρ : Type} (accept : σ → Token → Verdict σ ρ) (draft : σ) (lexer : Lexer) : Run σ ρ :=
  let t := lexer.next.1
  let next := lexer.next.2
  settle accept draft t next fun longer =>
    if 0 < t.span.width then run accept longer next
    else settle accept longer t next fun last => ⟨.error ⟨.unexpected, t⟩, last, next⟩
termination_by lexer.remaining
decreasing_by
  rename_i hwidth
  have hnext := lexer.remaining_next_add_width_le
  change 0 < lexer.next.1.span.width at hwidth
  omega

/-! ## Readers -/

/-- A reader: its lexer, the statements and comments found so far, and what the program is
labelled with. -/
structure Reader where
  lexer : Lexer
  statements : List Statement
  comments : List Comment
  sourceFile : Text
  sourceType : Text

namespace Reader

/-- A reader at the start of a source text. -/
def ofSource (vocabulary : Vocabulary) (source sourceFile sourceType : Text) : Reader :=
  ⟨.ofSource vocabulary source, [], [], sourceFile, sourceType⟩

/-- The log line types that begin structured synchronisations. -/
def logTypes (r : Reader) : List Text := r.lexer.vocabulary.logTypes

/-- Runs a draft with the comments of a reader. -/
def runDraft {σ ρ : Type} (r : Reader) (accept : σ → Token → Verdict σ ρ) (draft : σ) :
    Run (Annotated σ) ρ × Reader :=
  let result := run (Annotated.accept accept) ⟨draft, r.comments⟩ r.lexer
  (result, { r with lexer := result.lexer, comments := result.draft.comments })

/-- The program of everything that has been found. -/
def program (r : Reader) : Program where
  span := ⟨0, r.lexer.cursor.offset, .start, r.lexer.cursor.position⟩
  body := r.statements
  comments := r.comments
  sourceFile := r.sourceFile
  sourceType := r.sourceType

/-- Reads statements to the end of the text. -/
def parse (r : Reader) : Except ParseError Program × Reader :=
  let (result, r) := r.runDraft (ProgramDraft.accept r.logTypes) ⟨r.statements, none⟩
  match result.outcome with
  | .ok ⟨statements, none⟩ =>
      let r := { r with statements }
      (.ok r.program, r)
  | .ok ⟨statements, some error⟩ => (.error error, { r with statements })
  | .error error => (.error error, { r with statements := result.draft.draft.statements })

/-- Reads one statement or comment; nothing if the next token begins neither. -/
def statement (r : Reader) : Except ParseError (Option Node) × Reader :=
  let (t, next) := r.lexer.next
  if t.kind = .comment then (.ok (some (.comment t.toComment)), { r with lexer := next })
  else
    let (result, r) := r.runDraft (acceptStatement r.logTypes) none
    match result.outcome with
    | .ok (.ok found) => (.ok (found.map Statement.toNode), r)
    | .ok (.error error) => (.error error, r)
    | .error error => (.error error, r)

/-- Reads one construct of a given kind. -/
def construct (r : Reader) (construct : Construct) : Except ParseError Node × Reader :=
  let (result, r) := r.runDraft (ConstructDraft.accept r.logTypes) (.start construct)
  (result.outcome, r)

end Reader

/-- The program of a source text, or the error in it. -/
def parseSource (vocabulary : Vocabulary) (source sourceFile : Text) :
    Except ParseError Program :=
  ((Reader.ofSource vocabulary source sourceFile "module".toList).parse).1

end RaidTimeline
