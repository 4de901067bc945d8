import RaidTimeline.Command.Run

/-!
# The program

The outer layer: it takes a picture of the files that the command line names, runs the program
on it, stores the file that the run has written, and prints the rest.

Main results:

- Definition {lit}`main`: the program.
-/

namespace RaidTimeline

/-- The path that a file of a command line has, and the one that it writes. -/
def Command.paths : Command → List Text
  | .transform file output _ =>
      file :: (match output with
        | some path => [path, Text.join ['/'] (Store.names path).dropLast]
        | none => [])
  | .parse file _ _ _ => [file]
  | .tokens file _ => [file]

/-- The paths that an invocation may look at. -/
def Invocation.paths (invocation : Invocation) (usual : List Text) : List Text :=
  invocation.candidates usual ++ ((invocation.command.map Command.paths).getD [])

/-- What is stored under a path on disk, if anything is. -/
def picture (path : Text) : IO (Option (Text × Stored)) := do
  try
    let real ← IO.FS.realPath (String.ofList path)
    if !(← real.pathExists) then return none
    if ← real.isDir then return some (path, .directory)
    let octets ← IO.FS.readBinFile real
    return some (path, .file octets.toList)
  catch _ => return none

/-- The environment variables that matter. -/
def readEnvironment : IO Settings.Environment := do
  let found ← Settings.overrides.mapM fun (name, _) => do
    let value ← IO.getEnv (String.ofList name)
    return value.map fun value => (name, value.toList)
  return found.filterMap id

/-- The setting files that are looked for when none is named. -/
def usualSettings : IO (List Text) := do
  match ← IO.getEnv "HOME" with
  | some home => return [(home ++ "/.suo/config.yaml").toList]
  | none => return []

/-- Stores the file that a command has written. -/
def keepOutput (store : Store) : Option Command → IO Unit
  | some (.transform _ (some path) _) =>
      match store.entry? (Store.names path) with
      | some (.file octets) => IO.FS.writeBinFile (String.ofList path) octets.toByteArray
      | _ => return ()
  | _ => return ()

/-- Prints an outcome and gives its exit status. -/
def report (outcome : Outcome) : IO UInt32 := do
  (← IO.getStdout).putStr (String.ofList outcome.output)
  (← IO.getStderr).putStr (String.ofList outcome.errors)
  return outcome.status.toUInt32

/-- Runs a command line on a picture of the disk. -/
def runOnDisk (arguments : List Text) : IO UInt32 := do
  let usual ← usualSettings
  let environment ← readEnvironment
  match Invocation.ofArguments arguments with
  | .error stop => report (stop.outcome [])
  | .ok invocation =>
      let store := (← (invocation.paths usual).mapM picture).filterMap id
      let outcome := invocation.outcome Yaml.read? false store usual environment
      if outcome.status = 0 then keepOutput outcome.store invocation.command
      report outcome

end RaidTimeline

/-- The program. -/
def main (arguments : List String) : IO UInt32 :=
  RaidTimeline.runOnDisk (arguments.map String.toList)
