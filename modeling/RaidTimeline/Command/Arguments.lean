import RaidTimeline.Text.Basic

/-!
# Command line arguments

A command line has switches of its own, then the name of a command, then the switches and the
file of that command.  Switches may be shortened as long as they stay unambiguous, a value may be
attached with an equals sign, and single letters may be bundled.  Two dashes end the switches.

Main results:

- Definition {lit}`Invocation.ofArguments`: what a command line asks for, or why the program stops
  at once.
-/

namespace RaidTimeline

/-! ## Switches -/

/-- What a switch is for. -/
inductive Flag where
  | help
  | version
  | config
  | logLevel
  | output
  | target
  | json
  | noLocation
  | verbose
  | whitespace
deriving DecidableEq, Repr

/-- A switch: its spellings, what it is for, and whether it takes a value. -/
structure Switch where
  names : List Text
  flag : Flag
  takesValue : Bool
deriving DecidableEq, Repr

/-- A switch without value. -/
def Switch.plain (flag : Flag) (names : List String) : Switch :=
  ⟨names.map String.toList, flag, false⟩

/-- A switch with a value. -/
def Switch.valued (flag : Flag) (names : List String) : Switch :=
  ⟨names.map String.toList, flag, true⟩

/-- The names of commands. -/
inductive CommandName where
  | transform
  | parse
  | tokens
deriving DecidableEq, Repr

/-- The command of a name. -/
def CommandName.ofText? (t : Text) : Option CommandName :=
  if t = "transform".toList then some .transform
  else if t = "parse".toList then some .parse
  else if t = "tokens".toList then some .tokens
  else none

/-- The switches in front of a command. -/
def globalSwitches : List Switch :=
  [.plain .help ["-h", "--help"], .plain .version ["--version"], .valued .config ["--config"],
    .valued .logLevel ["--log-level"]]

/-- The switches of a command. -/
def CommandName.switches : CommandName → List Switch
  | .transform =>
      [.plain .help ["-h", "--help"], .valued .output ["-o", "--output"],
        .valued .target ["--target"]]
  | .parse =>
      [.plain .help ["-h", "--help"], .plain .json ["--json"],
        .plain .noLocation ["--no-location"], .plain .verbose ["-v", "--verbose"]]
  | .tokens => [.plain .help ["-h", "--help"], .plain .whitespace ["--whitespace"]]

/-! ## Recognising switches -/

/-- A switch as it was written: the spelling, and the value attached to it with the equals sign
or without. -/
structure Written where
  switch : Switch
  name : Text
  equals : Bool
  attached : Option Text
deriving DecidableEq, Repr

/-- What an argument is: the two dashes, an operand, or a switch that may be unknown. -/
inductive Argument where
  | dashes
  | operand (text : Text)
  | switch (written : Option Written)
deriving DecidableEq, Repr

/-- The switch of a spelling. -/
def exactSwitch? (switches : List Switch) (name : Text) : Option Switch :=
  switches.find? (·.names.contains name)

/-- The text before the first equals sign, and the text behind it if there is one. -/
def splitEquals (t : Text) : Text × Option Text :=
  match t.dropWhile (· != '=') with
  | [] => (t, none)
  | _ :: rest => (t.takeWhile (· != '='), some rest)

/-- Every switch that a text may be short for. -/
def shortenings (switches : List Switch) (t : Text) : List Written :=
  let spelt := switches.flatMap fun s => s.names.map fun name => (s, name)
  if "--".toList.isPrefixOf t then
    let (start, attached) := splitEquals t
    (spelt.filter fun (_, name) => start.isPrefixOf name).map fun (s, name) =>
      ⟨s, name, attached.isSome, attached⟩
  else
    spelt.filterMap fun (s, name) =>
      if name = t.take 2 then some ⟨s, name, false, some (t.drop 2)⟩
      else if t.isPrefixOf name then some ⟨s, name, false, none⟩
      else none

/-- Whether a text looks like a negative number. -/
def isNegativeNumber : Text → Bool
  | '-' :: rest =>
      let whole := rest.takeWhile Char.isDigit
      match rest.drop whole.length with
      | [] => !whole.isEmpty
      | '.' :: fraction => !fraction.isEmpty && fraction.all Char.isDigit
      | _ => false
  | _ => false

/-- What an argument in front of the two dashes is; nothing if it is ambiguous. -/
def recogniseArgument? (switches : List Switch) (t : Text) : Option Argument :=
  if t = "--".toList then some .dashes
  else if t.head? ≠ some '-' ∨ t.length = 1 then some (.operand t)
  else
    match exactSwitch? switches t with
    | some s => some (.switch (some ⟨s, t, false, none⟩))
    | none =>
        let exact :=
          match splitEquals t with
          | (name, some value) =>
              (exactSwitch? switches name).map fun s => (⟨s, name, true, some value⟩ : Written)
          | _ => none
        match exact with
        | some written => some (.switch (some written))
        | none =>
            match shortenings switches t with
            | [written] => some (.switch (some written))
            | [] =>
                if isNegativeNumber t || t.contains ' ' then some (.operand t)
                else some (.switch none)
            | _ => none

/-- What every argument is; nothing if one is ambiguous.  Behind the two dashes all are
operands. -/
def recogniseArguments? (switches : List Switch) : List Text → Option (List (Text × Argument))
  | [] => some []
  | t :: rest =>
      match recogniseArgument? switches t with
      | none => none
      | some .dashes => some ((t, .dashes) :: rest.map fun t => (t, .operand t))
      | some argument => (recogniseArguments? switches rest).map ((t, argument) :: ·)

/-! ## Reading one level of arguments -/

/-- Why the program stops at once. -/
inductive Stop where
  | help (command : Option CommandName)
  | version
  | misuse (command : Option CommandName)
deriving DecidableEq, Repr

/-- What has been read: values of flags, the operand, the arguments behind it if they belong to
it, and whether there were arguments too many. -/
structure Level where
  values : List (Flag × Text)
  operand : Option Text
  rest : List Text
  excess : Bool
deriving DecidableEq, Repr

/-- Sets flags one after the other; help and version stop the program. -/
def applyFlags (command : Option CommandName) (level : Level) :
    List (Flag × Text) → Except Stop Level
  | [] => .ok level
  | (.help, _) :: _ => .error (.help command)
  | (.version, _) :: _ => .error .version
  | (flag, value) :: rest =>
      applyFlags command { level with values := level.values ++ [(flag, value)] } rest

/-- What a bundle of switches amounts to: the flags that are complete, the switch that still
needs a value, and whether a letter was unknown. -/
structure Bundle where
  flags : List (Flag × Text)
  waiting : Option Flag
  excess : Bool
deriving DecidableEq, Repr

/-- Takes a bundle of single letter switches apart; {lit}`none` is a misuse. -/
def unbundle (switches : List Switch) : Nat → Written → Option Bundle
  | 0, _ => none
  | fuel + 1, w =>
      match w.attached with
      | none =>
          if w.switch.takesValue then some ⟨[], some w.switch.flag, false⟩
          else some ⟨[(w.switch.flag, [])], none, false⟩
      | some attached =>
          if w.switch.takesValue then some ⟨[(w.switch.flag, attached)], none, false⟩
          else
            match attached with
            | [] => none
            | c :: tail =>
                if "--".toList.isPrefixOf w.name || w.equals || c == '-' then none
                else
                  match exactSwitch? switches ['-', c] with
                  | none => some ⟨[(w.switch.flag, [])], none, true⟩
                  | some s =>
                      let next : Written :=
                        match tail with
                        | [] => ⟨s, ['-', c], false, none⟩
                        | '=' :: value => ⟨s, ['-', c], true, some value⟩
                        | tail => ⟨s, ['-', c], false, some tail⟩
                      (unbundle switches fuel next).map fun b =>
                        { b with flags := (w.switch.flag, []) :: b.flags }

/-- Reads the arguments of a level.  With {lit}`nested` the operand is a command name, and
everything behind it belongs to the command. -/
def readLevel (switches : List Switch) (command : Option CommandName) (nested : Bool) :
    Level → List (Text × Argument) → Except Stop Level
  | level, [] => .ok level
  | level, (_, .dashes) :: (t, .operand _) :: rest =>
      if nested then .error (.misuse command)
      else if level.operand.isSome then .ok { level with excess := true }
      else readLevel switches command nested { level with operand := some t } rest
  | level, (_, .dashes) :: _ => .ok { level with excess := true }
  | level, (t, .operand _) :: rest =>
      if level.operand.isSome then
        readLevel switches command nested { level with excess := true } rest
      else if nested then .ok { level with operand := some t, rest := rest.map (·.1) }
      else
        match rest with
        | (_, .dashes) :: rest =>
            readLevel switches command nested { level with operand := some t } rest
        | rest => readLevel switches command nested { level with operand := some t } rest
  | level, (_, .switch none) :: rest =>
      readLevel switches command nested { level with excess := true } rest
  | level, (t, .switch (some w)) :: rest =>
      match unbundle switches (t.length + 1) w with
      | none => .error (.misuse command)
      | some ⟨flags, none, excess⟩ =>
          match applyFlags command { level with excess := level.excess || excess } flags with
          | .error stop => .error stop
          | .ok level => readLevel switches command nested level rest
      | some ⟨flags, some flag, _⟩ =>
          match rest with
          | (value, .operand _) :: rest =>
              match applyFlags command level (flags ++ [(flag, value)]) with
              | .error stop => .error stop
              | .ok level => readLevel switches command nested level rest
          | _ => .error (.misuse command)

/-- Recognises and reads the arguments of a level. -/
def readArguments (switches : List Switch) (command : Option CommandName) (nested : Bool)
    (excess : Bool) (arguments : List Text) : Except Stop Level :=
  match recogniseArguments? switches arguments with
  | none => .error (.misuse command)
  | some recognised => readLevel switches command nested ⟨[], none, [], excess⟩ recognised

namespace Level

/-- The last value of a flag. -/
def value? (level : Level) (flag : Flag) : Option Text :=
  (level.values.reverse.find? (·.1 == flag)).map (·.2)

/-- The last value of a flag, unless it is empty. -/
def nonempty? (level : Level) (flag : Flag) : Option Text :=
  (level.value? flag).filter (!·.isEmpty)

/-- Whether a flag is set. -/
def has (level : Level) (flag : Flag) : Bool := (level.value? flag).isSome

end Level

/-! ## Invocations -/

/-- A command with its file and switches. -/
inductive Command where
  | transform (file : Text) (output target : Option Text)
  | parse (file : Text) (json noLocation verbose : Bool)
  | tokens (file : Text) (whitespace : Bool)
deriving DecidableEq, Repr

/-- What a command line asks for. -/
structure Invocation where
  config : Option Text
  logLevel : Option Text
  command : Option Command
deriving DecidableEq, Repr

/-- The command of a name with the switches of a level. -/
def Command.ofLevel (name : CommandName) (file : Text) (level : Level) : Command :=
  match name with
  | .transform => .transform file (level.nonempty? .output) (level.nonempty? .target)
  | .parse => .parse file (level.has .json) (level.has .noLocation) (level.has .verbose)
  | .tokens => .tokens file (level.has .whitespace)

/-- Reads the command behind the switches in front of it. -/
def Invocation.ofLevel (outer : Level) : Except Stop Invocation :=
  let invocation : Option Command → Invocation :=
    fun command => ⟨outer.nonempty? .config, outer.nonempty? .logLevel, command⟩
  match outer.operand with
  | none => if outer.excess then .error (.misuse none) else .ok (invocation none)
  | some word =>
      match CommandName.ofText? word with
      | none => .error (.misuse none)
      | some name =>
          match readArguments name.switches (some name) false false outer.rest with
          | .error stop => .error stop
          | .ok inner =>
              match inner.operand with
              | none => .error (.misuse (some name))
              | some file =>
                  if outer.excess || inner.excess then .error (.misuse none)
                  else .ok (invocation (some (Command.ofLevel name file inner)))

/-- What a command line asks for, or why the program stops at once. -/
def Invocation.ofArguments (arguments : List Text) : Except Stop Invocation :=
  (readArguments globalSwitches none true false arguments).bind Invocation.ofLevel

end RaidTimeline
