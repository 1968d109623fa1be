import Croupier.Game
import Croupier.Text.Case

/-!
# Settings

The settings of the program: what is logged, how games are run and how suites are played. Settings that make no sense
are refused.
-/

namespace Croupier

/-- The settings of the program. -/
structure Settings where
  level : String := "info"
  format : String := "console"
  seed : UInt64 := 1
  maxDepth : Int := 64
  historyLimit : Int := 256
  recordHistory : Bool := true
  failFast : Bool := false
  deriving DecidableEq, Repr

/-- Why settings are refused. -/
inductive SettingsError where
  | level (name : String)
  | format (name : String)
  | maxDepth (n : Int)
  | historyLimit (n : Int)
  deriving DecidableEq, Repr

/-- The text of an error. -/
def SettingsError.message : SettingsError → String
  | level name => "logging.level: unknown level " ++ Text.quote name
  | format name => "logging.format: unknown format " ++ Text.quote name
  | maxDepth n => "engine.max_call_depth must be positive, got " ++ toString n
  | historyLimit n => "engine.history_limit must not be negative, got " ++ toString n

namespace Settings

/-- Checks settings. -/
def check (s : Settings) : Except SettingsError Unit :=
  if !(["debug", "info", "warn", "error"].contains s.level) then .error (.level s.level)
  else if !(["json", "console"].contains s.format) then .error (.format s.format)
  else if s.maxDepth < 1 then .error (.maxDepth s.maxDepth)
  else if s.historyLimit < 0 then .error (.historyLimit s.historyLimit)
  else .ok ()

/-- How games are run under settings. -/
def gameOptions (s : Settings) : GameOptions := ⟨s.seed, s.maxDepth, s.historyLimit, s.recordHistory⟩

end Settings

/-- How important a log record is. -/
inductive LogLevel where
  | debug
  | info
  | warn
  | error
  | dpanic
  | panic
  | fatal
  deriving DecidableEq, Repr

namespace LogLevel

/-- All levels, in ascending order. -/
def all : List LogLevel := [debug, info, warn, error, dpanic, panic, fatal]

/-- The name of a level. -/
def name : LogLevel → String
  | debug => "debug"
  | info => "info"
  | warn => "warn"
  | error => "error"
  | dpanic => "dpanic"
  | panic => "panic"
  | fatal => "fatal"

/-- The place of a level in the order. -/
def rank : LogLevel → Nat
  | debug => 0
  | info => 1
  | warn => 2
  | error => 3
  | dpanic => 4
  | panic => 5
  | fatal => 6

/-- The level with a given name, in which case does not matter. The empty name is that of `info`. -/
def ofName? (s : String) : Option LogLevel := if s.isEmpty then some info else all.find? (·.name = Text.lower s)

/-- Tells whether records of a level are written if `least` is the least that is. -/
def isEnabled (least level : LogLevel) : Bool := least.rank ≤ level.rank

/-- The text for a name that no level has. -/
def unknownMessage (s : String) : String := "logging.level: unrecognized level: " ++ Text.quote s

end LogLevel

end Croupier
