import RaidTimeline.Data.Value
import RaidTimeline.Storage
import RaidTimeline.Text.Blank
import RaidTimeline.Text.Uppercase
import RaidTimeline.Token.Vocabulary

/-!
# Settings

Settings come from three places: the defaults, the first usable file of a list of candidates,
and the environment.  A candidate that cannot be used is passed over with a warning.  A setting
of the wrong kind is replaced when it is used, also with a warning.

Main results:

- Definition {lit}`Settings.loadWith`: the settings of some candidates and an environment, for any
  kind of setting file.
- Definitions {lit}`Settings.target`, {lit}`Settings.keywords`, {lit}`Settings.logTypes` and
  {lit}`Settings.logLevel`: the effective settings, with {lit}`Settings.warnings`.
-/

namespace RaidTimeline

/-- What is reported about unusable settings. -/
inductive Warning where
  | unreadable (path : Text)
  | notMapping (path : Text)
  | expectedList (key kindName : Text)
deriving DecidableEq, Repr

/-- The words for a warning; what the reader of the file said about it is not part of them. -/
def Warning.message : Warning → Text
  | .unreadable path => "Failed to load config from ".toList ++ path
  | .notMapping path =>
      "Ignoring config ".toList ++ path ++ ": top level is not a mapping".toList
  | .expectedList key kindName =>
      "Ignoring config value for ".toList ++ Text.quoted key ++ ": expected a list, got ".toList
        ++ kindName

/-- The values of a setting file, and the file they come from. -/
structure Settings where
  values : List (Text × Value)
  path : Option Text

namespace Settings

/-! ## Loading -/

/-- A list of words as data. -/
def wordList (words : List Text) : Value := .array (words.map .string)

/-- The settings of a program that is not configured. -/
def defaults : List (Text × Value) :=
  [("target".toList, .string "cactbot".toList),
    ("keywords".toList, wordList Vocabulary.defaultKeywords),
    ("log_types".toList, wordList Vocabulary.defaultLogTypes),
    ("extra_log_types".toList, .array []),
    ("log_level".toList, .string "WARNING".toList)]

/-- The environment variables that override settings. -/
def overrides : List (Text × Text) :=
  [("SUO_TARGET".toList, "target".toList),
    ("SUO_EXTRA_LOG_TYPES".toList, "extra_log_types".toList),
    ("SUO_LOG_LEVEL".toList, "log_level".toList)]

/-- What a candidate file is good for. -/
inductive Candidate where
  | absent
  | unreadable
  | undecodable (fault : Utf8Fault)
  | notMapping
  | mapping (fields : List (Text × Value))

/-- A file is decoded piece by piece, so a sequence of octets that the end of the file cuts off
is reported as a piece of its own. -/
def pieceFault (fault : Utf8Fault) : Utf8Fault :=
  if fault.reason = .unfinished then { fault with offset := 0 } else fault

section

variable (read : Text → Option Value)

/-- What the octets of a setting file are good for; {lit}`read` gives the value of a text, or
nothing if the text is malformed. -/
def candidateOf (octets : List UInt8) : Candidate :=
  match Text.decode octets with
  | .error fault => .undecodable (pieceFault fault)
  | .ok text =>
      match read (Text.foldLineEnds text) with
      | none => .unreadable
      | some (.object fields) => .mapping fields
      | some v => if v.isBlank then .mapping [] else .notMapping

/-- What is found under a candidate path. -/
def candidate (store : Store) (path : Text) : Candidate :=
  match store.resolve path with
  | .error _ => .absent
  | .ok .directory => .unreadable
  | .ok (.file octets) => candidateOf read octets

/-- The settings of the first usable candidate, and the warnings about those before it. -/
def search (store : Store) : List Text → Except Utf8Fault (Settings × List Warning)
  | [] => .ok (⟨defaults, none⟩, [])
  | path :: rest =>
      match candidate read store path with
      | .absent => search store rest
      | .unreadable => (search store rest).map fun (s, ws) => (s, .unreadable path :: ws)
      | .undecodable fault => .error fault
      | .notMapping => (search store rest).map fun (s, ws) => (s, .notMapping path :: ws)
      | .mapping fields => .ok (⟨Value.putAll defaults fields, some path⟩, [])

end

/-- An environment gives texts to some names. -/
abbrev Environment := List (Text × Text)

/-- The settings that an environment overrides. -/
def environmentFields (environment : Environment) : List (Text × Value) :=
  overrides.filterMap fun (name, key) =>
    (environment.find? (·.1 == name)).map fun found => (key, .string found.2)

/-- The settings of some candidates, overridden by an environment unless that is not to be
used. -/
def loadWith (read : Text → Option Value) (store : Store) (candidates : List Text)
    (useEnvironment : Bool) (environment : Environment) :
    Except Utf8Fault (Settings × List Warning) :=
  let overriding := if useEnvironment then environmentFields environment else []
  (search read store candidates).map fun (s, ws) =>
    ({ s with values := Value.putAll s.values overriding }, ws)

/-! ## Effective settings -/

/-- The words of a comma-separated text. -/
def wordsOf (t : Text) : List Text :=
  ((Text.splitOn ',' t).map Text.trim).filter (!·.isEmpty)

/-- The words of a setting: a list, a comma-separated text, or nothing. -/
def words? : Option Value → Except Text (List Text)
  | none => .ok []
  | some .null => .ok []
  | some (.string t) => .ok (wordsOf t)
  | some (.array items) => .ok (items.map Value.text)
  | some v => .error v.kindName

/-- The words of a setting, or others if it is of the wrong kind. -/
def wordsOr (s : Settings) (key : Text) (otherwise : List Text) : List Text :=
  match words? (Value.field? s.values key) with
  | .ok words => words
  | .error _ => otherwise

/-- The warning about a setting of the wrong kind. -/
def wordsWarning (s : Settings) (key : Text) : List Warning :=
  match words? (Value.field? s.values key) with
  | .ok _ => []
  | .error kindName => [.expectedList key kindName]

/-- The text of a setting. -/
def textOr (s : Settings) (key : Text) (otherwise : Text) : Text :=
  ((Value.field? s.values key).map Value.text).getD otherwise

/-- The kind of canonical form. -/
def target (s : Settings) : Text := s.textOr "target".toList "cactbot".toList

/-- The keywords; there are always some. -/
def keywords (s : Settings) : List Text :=
  match s.wordsOr "keywords".toList [] with
  | [] => Vocabulary.defaultKeywords
  | words => words

/-- A list with the words of another that it does not have, each once. -/
def extend (types extra : List Text) : List Text :=
  extra.foldl (fun types word => if word ∈ types then types else types ++ [word]) types

/-- The log line types, with the extra ones behind them. -/
def logTypes (s : Settings) : List Text :=
  extend (s.wordsOr "log_types".toList Vocabulary.defaultLogTypes)
    (s.wordsOr "extra_log_types".toList [])

/-- The level of log messages, in uppercase. -/
def logLevel (s : Settings) : Text :=
  Text.uppercase (s.textOr "log_level".toList "WARNING".toList)

/-- The warnings about settings of the wrong kind, in the order in which they are used. -/
def warnings (s : Settings) : List Warning :=
  s.wordsWarning "keywords".toList ++ s.wordsWarning "log_types".toList
    ++ s.wordsWarning "extra_log_types".toList

/-- The effective vocabulary. -/
def vocabulary (s : Settings) : Vocabulary := ⟨s.keywords, s.logTypes⟩

end Settings

end RaidTimeline
