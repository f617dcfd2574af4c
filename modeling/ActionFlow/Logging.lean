import ActionFlow.Settings
import ActionFlow.Text.Digit
import ActionFlow.Text.Lines

/-!
# Log set-up

One place routes the log of the whole program: it resolves the level, chooses how lines are written,
and installs one handler, unless there are handlers already and it was not told to replace them.
-/

namespace ActionFlow
namespace Logging

/-! ## Levels -/

/-- The level below which records are dropped while nothing is set up. -/
def initialLevel : Int := 30

/-- The levels by name. -/
def levelNames : List (String × Int) :=
  [("CRITICAL", 50), ("FATAL", 50), ("ERROR", 40), ("WARN", 30), ("WARNING", 30), ("INFO", 20),
    ("DEBUG", 10), ("NOTSET", 0)]

/-- The plain capital of a letter. Beside the plain small letters two further ones have a plain
capital, the dotless `ı` and the long `ſ`. -/
def plainCapital (c : Char) : Char :=
  if c = 'ı' then 'I' else if c = 'ſ' then 'S' else c.toUpper

/-- The level that a name stands for in any case, or else the level for information. -/
def namedLevel (name : String) : Int :=
  let capitals := String.ofList (name.toList.map plainCapital)
  ((levelNames.find? fun entry => entry.1 = capitals).map (·.2)).getD 20

/-- The level that a value asks for. When debugging, it is the level for that, whatever is asked. A
text is read as a whole number if it is one. -/
def resolveLevel (value : Value) (debug : Bool) : Except Failure Int :=
  if debug then .ok 10
  else match value with
    | .null => .ok 20
    | .bool truth => .ok (if truth then 1 else 0)
    | .int number => .ok number
    | .real .nan => .error .lacking
    | .real (.infinite _) => .error .overflow
    | .real (.finite negative steps) =>
        .ok (((Binary64.finite negative steps).truncate?).getD 0)
    | .text text =>
        match Text.wholeNumber? (Text.trimSpace text.toList) with
        | some number => .ok number
        | none => .ok (namedLevel text)
    | _ => .error .lacking

/-- How the level of a record is written. -/
def levelText (level : Int) : String :=
  match level with
  | 50 => "critical"
  | 40 => "error"
  | 30 => "warning"
  | 20 => "info"
  | 10 => "debug"
  | 0 => "notset"
  | other => "level " ++ toString other

/-! ## Handlers -/

/-- How a handler writes a record. -/
inductive Renderer where
  | json
  | console
  deriving DecidableEq, Repr, Inhabited

/-- A handler: one made by the set-up, with its renderer, or a foreign one that drops everything. -/
inductive Handler where
  | written (renderer : Renderer)
  | silent
  deriving DecidableEq, Repr, Inhabited

/-- A line that was written. -/
inductive Line where
  | json (event level : String)
  | console
  deriving DecidableEq, Repr, Inhabited

/-- The state of the log. -/
structure Log where
  handlers : List Handler := []
  level : Int := initialLevel
  configured : Bool := false
  memory : Settings.Memory := {}
  deriving Repr, Inhabited

/-- What a call of the set-up asks for; `null` leaves a value to the settings. -/
structure Request where
  level : Value := .null
  debug : Value := .null
  json : Value := .null
  force : Bool := false
  settings : Option (List (String × Value)) := none
  deriving Repr, Inhabited

/-- A value that was given, or else the one of the settings. -/
def givenOr (value : Value) (setting : Bool) : Bool :=
  match value with
  | .null => setting
  | given => given.truthy

/-- The settings that a call goes by: those it brings, or else the remembered ones. -/
def Log.settingsFor (log : Log) (request : Request) (read : Settings.Reader := Settings.read) :
    Except Failure Settings × Log :=
  match request.settings with
  | some given => (read given log.memory.environment, log)
  | none =>
      let (found, memory) := log.memory.get read
      (found, { log with memory })

/-- Sets the log up. A call that fails changes nothing but what is remembered of the settings. -/
def Log.configure (log : Log) (request : Request) (read : Settings.Reader := Settings.read) :
    Except Failure Unit × Log :=
  match log.settingsFor request read with
  | (.error failure, log) => (.error failure, log)
  | (.ok settings, log) =>
      let asked := match request.level with
        | .null => .text settings.logLevel
        | given => given
      match resolveLevel asked (givenOr request.debug settings.debug) with
      | .error failure => (.error failure, log)
      | .ok level =>
          let renderer := if givenOr request.json settings.logJson then .json else .console
          let log := { log with configured := true }
          if !log.handlers.isEmpty && !request.force then (.ok (), log)
          else
            let kept := if request.force then [] else log.handlers
            (.ok (), { log with handlers := kept ++ [.written renderer], level })

/-- Adds a foreign handler. -/
def Log.addSilent (log : Log) : Log := { log with handlers := log.handlers ++ [.silent] }

/-- How records are written. Whatever is to be written, a line of it there is. -/
structure Style where
  lines : Renderer → Int → String → List Line
  speaks : ∀ renderer level event, lines renderer level event ≠ []

/-- The usual style. On the console an event takes as many lines as it has by itself, followed by what
else stands in its last line. -/
def Style.usual : Style where
  lines
    | .json, level, event => [.json event (levelText level)]
    | .console, _, event => List.replicate (Text.lineEnds event.toList + 1) .console
  speaks renderer level event := by cases renderer <;> simp

/-- The lines that a handler writes for a record. -/
def Handler.lines (level : Int) (event : String) (style : Style := .usual) : Handler → List Line
  | .written renderer => style.lines renderer level event
  | .silent => []

/-- The lines that are written for a record when there is no handler at all: those of the bare event,
if the record is one that is not dropped before the set-up. -/
def lastResort (level : Int) (event : String) : List Line :=
  if level < initialLevel then []
  else List.replicate (Text.lineEnds (event.toList ++ ['\n'])) .console

/-- The lines that a record causes. Records of no positive level, or of one below that of the log, are
dropped. -/
def Log.emit (log : Log) (level : Int) (event : String) (style : Style := .usual) : List Line :=
  if level ≤ 0 ∨ level < log.level then []
  else if log.handlers.isEmpty then lastResort level event
  else log.handlers.flatMap (Handler.lines level event style)

end Logging
end ActionFlow
