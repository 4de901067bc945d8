import RaidTimeline.Settings
import RaidTimeline.Timeline.Canonical
import RaidTimeline.Timeline.Reader

/-!
# From text to text

A source text is read under some settings and written in its canonical form.  There is one kind
of canonical form so far, and it has to be asked for by name.

Main results:

- Definitions {lit}`parseText` and {lit}`parseFile`: the program of a text or file.
- Definition {lit}`generate`: the canonical form of a program of a given kind.
- Definitions {lit}`transformText` and {lit}`transformFile`: both together.
-/

namespace RaidTimeline

/-- The options of canonical forms: the fields of an object, of which only the kind of canonical
form is known. -/
abbrev Options := List (Text × Value)

/-- Why a text or program has no canonical form. -/
inductive TransformError where
  | parse (error : ParseError)
  | unsupported (node : Unsupported)
  | unsupportedTarget (target : Value)
  | unknownOption
  | storage (fault : StorageFault)

/-- The names of the kinds of canonical form. -/
def targets : List Text := ["cactbot".toList]

/-- The vocabulary of optional settings. -/
def vocabularyOf : Option Settings → Vocabulary
  | some s => s.vocabulary
  | none => .default

/-- The kind of canonical form that is asked for: by the options if there are any, else by the
settings. -/
def targetOf : Option Options → Option Settings → Except TransformError Value
  | none, none => .ok (.string "cactbot".toList)
  | none, some s => .ok (.string s.target)
  | some options, _ =>
      if options.all (·.1 == "target".toList) then
        .ok ((Value.field? options "target".toList).getD (.string "cactbot".toList))
      else .error .unknownOption

/-- Whether a kind of canonical form exists. -/
def isTarget : Value → Bool
  | .string t => targets.contains t
  | _ => false

/-- The canonical form of a program of a given kind. -/
def generate (program : Node) (options : Option Options) (settings : Option Settings) :
    Except TransformError Text :=
  match targetOf options settings with
  | .error error => .error error
  | .ok target =>
      if isTarget target then program.canonical.mapError .unsupported
      else .error (.unsupportedTarget target)

/-- The program of a text; without a source file its name is empty. -/
def parseText (source : Text) (settings : Option Settings) (sourceFile : Text) :
    Except ParseError Program :=
  parseSource (vocabularyOf settings) source sourceFile

/-- The canonical form of a text. -/
def transformText (source : Text) (options : Option Options) (settings : Option Settings) :
    Except TransformError Text :=
  match parseText source settings [] with
  | .error error => .error (.parse error)
  | .ok program => generate program.toNode options settings

/-- Why the program of a file cannot be had. -/
inductive FileError where
  | storage (fault : StorageFault)
  | parse (error : ParseError)

/-- The program of a file. -/
def parseFile (store : Store) (path : Text) (settings : Option Settings) :
    Except FileError Program :=
  match store.readText path with
  | .error fault => .error (.storage fault)
  | .ok source => (parseText source settings path).mapError .parse

/-- The canonical form of a file. -/
def transformFile (store : Store) (path : Text) (options : Option Options)
    (settings : Option Settings) : Except TransformError Text :=
  match parseFile store path settings with
  | .error (.storage fault) => .error (.storage fault)
  | .error (.parse error) => .error (.parse error)
  | .ok program => generate program.toNode options settings

/-- The tokens of a file that a view shows. -/
def tokensOfFile (store : Store) (path : Text) (vocabulary : Vocabulary) (view : Lexer.View) :
    Except StorageFault (List Token) :=
  (store.readText path).map fun source => tokensOf vocabulary source view

/-- The words for a failed transformation; an unknown option has none. -/
def TransformError.message : TransformError → Text
  | .parse error => error.report.message
  | .unsupported node => node.report.message
  | .unsupportedTarget target => "Unsupported generator target: ".toList ++ target.literal
  | .unknownOption => []
  | .storage fault => fault.message

/-- The words for a file that cannot be read. -/
def FileError.message : FileError → Text
  | .storage fault => fault.message
  | .parse error => error.report.message

end RaidTimeline
