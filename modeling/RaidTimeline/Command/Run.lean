import RaidTimeline.Command.Outcome
import RaidTimeline.Data.Yaml

/-!
# Running command lines

Here the setting files get their form: they hold block and flow data.

Main results:

- Definition {lit}`Settings.load`: the settings of some candidates and an environment.
- Definition {lit}`runProgram`: the outcome of a command line.
-/

namespace RaidTimeline

/-- The settings of some candidates and an environment. -/
def Settings.load (store : Store) (candidates : List Text) (environment : Environment) :
    Except Utf8Fault (Settings × List Warning) :=
  loadWith Yaml.read? store candidates true environment

/-- The outcome of a command line where log messages are handled already, over the stored files,
the usual setting files and the environment. -/
def runProgram (arguments : List Text) (store : Store) (usual : List Text)
    (environment : Settings.Environment) : Except StorageFault Outcome :=
  match Invocation.ofArguments arguments with
  | .error stop => .ok (stop.outcome store)
  | .ok invocation => invocation.run Yaml.read? true store usual environment

end RaidTimeline
