import RaidTimeline.Text.Quoted
import RaidTimeline.Text.Uppercase

/-!
# Levels of log messages

The least level at which messages are logged is given by a name, in any case of letters.  A name
that means nothing stands for warnings.  Some names mean something else than a level, and with
these the level cannot be set.

Main results:

- Definition {lit}`levelOf`: the level of a name, or why it has none.
- Definition {lit}`setLevel`: whether the level can be set.
-/

namespace RaidTimeline

/-- What a name means to the facility for log messages. -/
inductive LogName where
  | level (number : Nat)
  | pattern (text : Text)
  | styles
deriving DecidableEq, Repr

/-- The names in capitals that mean something. -/
def logNames : List (Text × LogName) :=
  [("CRITICAL".toList, .level 50), ("FATAL".toList, .level 50), ("ERROR".toList, .level 40),
    ("WARNING".toList, .level 30), ("WARN".toList, .level 30), ("INFO".toList, .level 20),
    ("DEBUG".toList, .level 10), ("NOTSET".toList, .level 0),
    ("BASIC_FORMAT".toList, .pattern "%(levelname)s:%(name)s:%(message)s".toList),
    ("_STYLES".toList, .styles)]

/-- Why a name has no level: it means a text, which is the name of no level itself, or it means
neither a number nor a text. -/
inductive LevelFault where
  | unknown (text : Text)
  | notName
deriving DecidableEq, Repr

/-- The words for a name without level; what the name means is not part of the second ones. -/
def LevelFault.message : LevelFault → Text
  | .unknown text => "Unknown level: ".toList ++ Text.quoted text
  | .notName => "Level not an integer or a valid string".toList

/-- The level of warnings. -/
def warningLevel : Nat := 30

/-- What a name means, if it means something. -/
def logName? (name : Text) : Option LogName :=
  (logNames.find? (·.1 == Text.uppercase name)).map (·.2)

/-- The level of a name. -/
def levelOf (name : Text) : Except LevelFault Nat :=
  match logName? name with
  | none => .ok warningLevel
  | some (.level number) => .ok number
  | some (.pattern text) => .error (.unknown text)
  | some .styles => .error .notName

/-- Sets the level of log messages, unless messages are {lit}`handled` already; then the level
stays as it is. -/
def setLevel (handled : Bool) (name : Text) : Except LevelFault Unit :=
  if handled then .ok () else (levelOf name).map fun _ => ()

end RaidTimeline
