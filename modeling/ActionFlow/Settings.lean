import ActionFlow.Field

/-!
# Settings

Four settings, each given by name or by an environment variable, else a default. A setting given by
name wins over the variable, and only the value that wins is checked. Settings that were read from
the environment are remembered until the memory is cleared, however they are read.
-/

namespace ActionFlow

/-- The settings. -/
structure Settings where
  debug : Bool := false
  logLevel : String := "INFO"
  logJson : Bool := false
  barrierTimeout : Option Binary64 := none
  deriving DecidableEq, Repr, Inhabited

/-- Environment variables, in order. -/
abbrev Environment := List (String × String)

namespace Settings

/-- What the names of the variables begin with, in lower case. -/
def variableStem : String := "treeactions_"

/-- A name in lower case. -/
def lowered (name : String) : String := String.ofList (name.toList.map Char.toLower)

/-- The value of the variable for a field. Variables are found in any case; the last one counts. -/
def fromEnvironment? (environment : Environment) (field : String) : Option Value :=
  (environment.reverse.find? fun entry => lowered entry.1 = variableStem ++ field).map fun entry =>
    .text entry.2

/-- The value that is given for a field by name. Names are taken in any case; the first one that fits
counts. -/
def given? (given : List (String × Value)) (field : String) : Option Value :=
  (given.find? fun entry => lowered entry.1 = field).map (·.2)

/-- How settings are read, from what is given by name and from the environment. -/
abbrev Reader := List (String × Value) → Environment → Except Failure Settings

/-- The settings from what is given by name and from the environment. All faulty settings are
reported together. -/
def read : Reader := fun given environment =>
  let field (name : String) : Option Value :=
    (given? given name).or (fromEnvironment? environment name)
  let debug := Field.orDefault Field.truth (field "debug") false
  let logLevel := Field.orDefault Field.text (field "log_level") "INFO"
  let logJson := Field.orDefault Field.truth (field "log_json") false
  let barrierTimeout :=
    Field.orDefault (Field.optional Field.number) (field "barrier_timeout") none
  match debug, logLevel, logJson, barrierTimeout with
  | .ok debug, .ok logLevel, .ok logJson, .ok barrierTimeout =>
      .ok { debug, logLevel, logJson, barrierTimeout }
  | _, _, _, _ =>
      .error (.invalidFields ([Field.fault? "debug" debug, Field.fault? "log_level" logLevel,
        Field.fault? "log_json" logJson,
        Field.fault? "barrier_timeout" barrierTimeout].filterMap (·)))

/-- The limit on waiting for the barrier that the settings ask for. -/
def barrierLimit (settings : Settings) : Option Value := settings.barrierTimeout.map .real

/-- The environment with the settings that were read from it. -/
structure Memory where
  environment : Environment := []
  remembered : Option Settings := none
  deriving Repr, Inhabited

namespace Memory

/-- The remembered settings, or else those of the environment, which are then remembered unless
they are faulty. -/
def get (memory : Memory) (read : Reader := Settings.read) : Except Failure Settings × Memory :=
  match memory.remembered with
  | some settings => (.ok settings, memory)
  | none =>
      match read [] memory.environment with
      | .ok settings => (.ok settings, { memory with remembered := some settings })
      | .error failure => (.error failure, memory)

/-- Forgets the settings that were read. -/
def clear (memory : Memory) : Memory := { memory with remembered := none }

end Memory
end Settings
end ActionFlow
