import RaidTimeline.Command.Arguments
import RaidTimeline.Command.LogLevel
import RaidTimeline.Data.Json
import RaidTimeline.Timeline.Tree
import RaidTimeline.Transform

/-!
# Outcomes of commands

The outcome of a command is a function of the command line, the stored files and the environment.
It has an exit status, what is printed, and the files as they are afterwards.  What reads the
setting files is a parameter.

Main results:

- Definition {lit}`execute`: the outcome of a command under some settings.
- Definitions {lit}`Invocation.run` and {lit}`Invocation.outcome`: the outcome of an invocation, and
  what is seen of it.
-/

namespace RaidTimeline

/-- The outcome of a run: exit status, output, error output, and the files afterwards. -/
structure Outcome where
  status : Nat
  output : Text
  errors : Text
  store : Store
deriving DecidableEq

/-! ## Usage -/

/-- The first line of the help texts. -/
def usageLine : Option CommandName → Text
  | none =>
      "usage: suo [-h] [--version] [--config CONFIG] [--log-level LOG_LEVEL] ".toList
        ++ "\x7btransform,parse,tokens\x7d ...\n".toList
  | some .transform => "usage: suo transform [-h] [-o OUTPUT] [--target TARGET] file\n".toList
  | some .parse => "usage: suo parse [-h] [--json] [--no-location] [-v] file\n".toList
  | some .tokens => "usage: suo tokens [-h] [--whitespace] file\n".toList

/-- The help text of the program or of a command. -/
def helpText (command : Option CommandName) : Text :=
  usageLine command ++
    (match command with
    | none =>
        Text.lines (["", "Raid timeline parser and formatter", "", "Commands:",
          "  transform  Print canonical timeline text", "  parse      Parse a timeline file",
          "  tokens     Dump the token stream", "", "Examples:",
          "    suo transform raid/p1s.txt",
          "    suo transform raid/p1s.txt -o p1s.canonical.txt",
          "    suo parse raid/p1s.txt --json",
          "    suo tokens raid/p1s.txt --whitespace"].map String.toList)
    | some _ => [])

/-- The name and version of the program. -/
def versionText : Text := "suo 0.1.0\n".toList

/-- The outcome of a command line that stops at once. -/
def Stop.outcome (store : Store) : Stop → Outcome
  | .help command => ⟨0, helpText command, [], store⟩
  | .version => ⟨0, versionText, [], store⟩
  | .misuse command =>
      ⟨2, [], usageLine command ++ "suo: error: invalid arguments\n".toList, store⟩

/-! ## Commands -/

/-- One line of error output, for exit status one. -/
def failure (store : Store) (label message : Text) : Outcome :=
  ⟨1, [], label ++ message ++ ['\n'], store⟩

/-- The options that ask for a kind of canonical form, if one is named. -/
def targetOptions (target : Option Text) : Option Options :=
  target.map fun t => [("target".toList, .string t)]

/-- Prints the canonical form of a file, or stores it. -/
def runTransform (store : Store) (settings : Settings) (file : Text)
    (output target : Option Text) : Except StorageFault Outcome :=
  match transformFile store file (targetOptions target) (some settings) with
  | .error error => .ok (failure store "Error: ".toList error.message)
  | .ok text =>
      match output with
      | none => .ok ⟨0, text ++ ['\n'], [], store⟩
      | some path => (store.writeText path text).map fun store => ⟨0, [], [], store⟩

/-- One line about a statement. -/
def statementLine (s : Statement) : Text :=
  "  - L".toList ++ Text.ofNat s.span.first.line ++ ' ' :: s.toNode.typeName ++ ' ' :: s.name.value

/-- How many statements a summary lists. -/
def summaryLimit : Nat := 20

/-- The lines about the first statements, and how many more there are. -/
def statementLines (body : List Statement) : List Text :=
  (body.take summaryLimit).map statementLine ++
    (if summaryLimit < body.length then
      ["  ... and ".toList ++ Text.ofNat (body.length - summaryLimit) ++ " more".toList]
    else [])

/-- The summary of a program. -/
def summary (file : Text) (program : Program) (verbose : Bool) : Text :=
  Text.lines
    (["Parsed: ".toList ++ file, "Statements: ".toList ++ Text.ofNat program.body.length,
      "Comments: ".toList ++ Text.ofNat program.comments.length]
      ++ (if verbose then statementLines program.body else []))

/-- Prints the program of a file, as a summary or as data. -/
def runParse (store : Store) (settings : Settings) (file : Text)
    (json noLocation verbose : Bool) : Outcome :=
  match parseFile store file (some settings) with
  | .error error => failure store "Parse error: ".toList error.message
  | .ok program =>
      if json then
        ⟨0, Json.writeIndented (program.toNode.tree !noLocation) ++ ['\n'], [], store⟩
      else ⟨0, summary file program verbose, [], store⟩

/-- One line about a token. -/
def tokenLine (t : Token) : Text :=
  Text.ofNat t.span.first.line ++ ':' :: Text.ofNat t.span.first.column ++ '\t' :: t.kind.name
    ++ '\t' :: Text.quoted t.raw

/-- Prints the tokens of a file; unreadable text makes the run fail. -/
def runTokens (store : Store) (settings : Settings) (file : Text) (whitespace : Bool) : Outcome :=
  match tokensOfFile store file settings.vocabulary ⟨true, whitespace⟩ with
  | .error fault => failure store "Error: ".toList fault.message
  | .ok tokens =>
      let unreadable := tokens.getLast?.map (·.kind) = some .unknown
      ⟨if unreadable then 1 else 0, Text.lines (tokens.map tokenLine), [], store⟩

/-- The outcome of a command under some settings; only output that cannot be stored stops the
program without an outcome. -/
def execute (store : Store) (settings : Settings) : Command → Except StorageFault Outcome
  | .transform file output target => runTransform store settings file output target
  | .parse file json noLocation verbose =>
      .ok (runParse store settings file json noLocation verbose)
  | .tokens file whitespace => .ok (runTokens store settings file whitespace)

/-! ## Programs -/

/-- The setting files of an invocation: the one that is named, or the usual ones. -/
def Invocation.candidates (invocation : Invocation) (usual : List Text) : List Text :=
  match invocation.config with
  | some path => [path]
  | none => usual

/-- What is seen of a run that may stop without an outcome: then one line of error output, for
exit status one, and the files as they were. -/
def Outcome.ofRun (store : Store) : Except StorageFault Outcome → Outcome
  | .ok outcome => outcome
  | .error fault => failure store [] fault.message

namespace Invocation

section

variable (read : Text → Option Value) (handled : Bool)

/-- The settings of an invocation; {lit}`read` gives the value of the text of a setting file. -/
def settings (invocation : Invocation) (store : Store) (usual : List Text)
    (environment : Settings.Environment) : Except StorageFault Settings :=
  ((Settings.loadWith read store (invocation.candidates usual) true environment).map (·.1)).mapError
    .undecodable

/-- The name of the level of log messages: the one that is given, or else that of the settings. -/
def levelName (invocation : Invocation) (store : Store) (usual : List Text)
    (environment : Settings.Environment) : Except StorageFault Text :=
  match invocation.logLevel with
  | some name => .ok name
  | none => (invocation.settings read store usual environment).map Settings.logLevel

/-- The outcome of an invocation.  First the level of log messages is set, unless messages are
{lit}`handled` already; a name without level stops the program.  Without a command the settings
matter for that level only. -/
def run (invocation : Invocation) (store : Store) (usual : List Text)
    (environment : Settings.Environment) : Except StorageFault Outcome :=
  (invocation.levelName read store usual environment).bind fun name =>
    match setLevel handled name with
    | .error fault => .ok (failure store [] fault.message)
    | .ok () =>
        match invocation.command with
        | none => .ok (Stop.outcome store (.help none))
        | some command =>
            (invocation.settings read store usual environment).bind fun s =>
              execute store s command

/-- What is seen of an invocation. -/
def outcome (invocation : Invocation) (store : Store) (usual : List Text)
    (environment : Settings.Environment) : Outcome :=
  .ofRun store (invocation.run read handled store usual environment)

end

end Invocation

end RaidTimeline
