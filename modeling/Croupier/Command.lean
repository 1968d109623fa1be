import Croupier.Command.Launch
import Croupier.Program.Parser
import Croupier.Scenario.Document
import Croupier.Scenario.Report
import Croupier.Settings.EnvFile
import Croupier.Settings.File

/-!
# Commands

The program takes a command, the file of a card game and possibly the file of a suite. It summarises the game, shows how
it starts, or plays the suite. Files are read by a function that is given, so that commands can be carried out on real
files and on a list of files alike. So is the text of a suite, and commands do not depend on the form of documents.
-/

namespace Croupier

/-- A text with blanks behind it up to a width. -/
def padRight (width : Nat) (s : String) : String := s ++ String.ofList (List.replicate (width - s.length) ' ')

/-- A summary of a program. -/
def Program.summary (p : Program) : String :=
  let functions := p.functions.map fun f =>
    "  " ++ f.name ++ "(" ++ ", ".intercalate f.params ++ ")  " ++ toString f.body.length ++ " statements\n"
  "name:           " ++ p.name ++ "\n" ++
    "deck:           " ++ p.deck.text ++ "\n" ++
    "players:        " ++ toString p.players ++ "\n" ++
    "current_player: " ++ toString p.firstPlayer ++ "\n" ++
    "stacks:         " ++ ", ".intercalate p.tableStacks ++ "\n" ++
    "player stacks:  " ++ ", ".intercalate p.playerStacks ++ "\n" ++
    "functions:\n" ++ String.join functions

/-- A line about the pile that a reference names. -/
def Game.stackLine (g : Game) (ref : String) : String :=
  padRight 14 ref ++ " " ++ match g.render ref with
  | .error e => e.message ++ "\n"
  | .ok cs => "(" ++ toString cs.length ++ ") " ++ ", ".intercalate (Card.names cs) ++ "\n"

/-- An overview of a game. -/
def Game.overview (g : Game) : String :=
  let checksum := match g.history.last? with
    | some c => "turn " ++ toString c.turn ++ "  checksum " ++ c.checksum ++ "\n"
    | none => "checksum " ++ g.table.checksum ++ "\n"
  "game " ++ g.id ++ "  phase " ++ g.turn.phase.name ++ "  current player " ++ toString g.currentPlayer ++ "\n" ++
    checksum ++ String.join (g.table.references.map g.stackLine)

/-- How the program is used. -/
def usage : String :=
  "usage: cardlang [-config path] <command> <file.card> [specs.yaml]\n\n" ++
    "commands:\n" ++
    "  build   parse a program and summarize it\n" ++
    "  show    start a game and print every stack\n" ++
    "  test    run a spec-test document against a program\n" ++
    "  -config string\n" ++
    "    \tpath to configuration file (default \"" ++ Launch.defaultConfig ++ "\")\n"

/-- What a command answers: an exit code, what it prints, and whether the usage is to be shown. -/
structure Response where
  code : Nat
  out : String := ""
  showsUsage : Bool := false
  deriving DecidableEq, Repr

namespace Response

/-- The answer to wrong arguments. -/
def misuse : Response := { code := 2, showsUsage := true }

/-- The answer to a failure. -/
def failure (message : String) : Response := { code := 1, out := message ++ "\n" }

end Response

namespace Command

/-- Shows how a game starts. -/
def showGame (id : String) (p : Program) (s : Settings) : Response :=
  match Game.start id p s.gameOptions with
  | .error e => .failure (e.message p.name)
  | .ok (g, _) => { code := 0, out := g.overview }

/-- Plays the suite in the file with a given path. -/
def testSuite (decode : String → Except String Suite) (p : Program) (s : Settings) (path : String)
    (file : Except FileError String) : Response :=
  match file with
  | .error .directory => .failure ("spectest: parse: yaml: input error: " ++ FileError.directory.message path)
  | .error e => .failure (e.message path)
  | .ok text =>
    match decode text with
    | .error message => .failure message
    | .ok suite =>
      let report := suite.play p s.gameOptions s.failFast
      { code := if report.passed then 0 else 1, out := report.write }

/-- Reads the program in the file with a given path. -/
def readProgram (path : String) (file : Except FileError String) : Except String Program := do
  let text ← file.mapError fun e => e.message path
  (Program.ofSource text.toList).mapError fun e => path ++ ": " ++ e.message

variable {m : Type → Type} [Monad m]

/-- Carries out a command on a program. -/
def perform (decode : String → Except String Suite) (read : String → m (Except FileError String)) (id : String)
    (s : Settings) (p : Program) (name : String) (rest : List String) : m Response :=
  if name = "build" then pure { code := 0, out := p.summary }
  else if name = "show" then pure (showGame id p s)
  else if name = "test" then
    match rest with
    | [] => pure .misuse
    | path :: _ => do
      let file ← read path
      pure (testSuite decode p s path file)
  else pure { code := 2, out := "unknown command " ++ Text.quote name ++ "\n" }

/-- Carries out the command that arguments ask for, if suites are read in a given way. -/
def runWith (decode : String → Except String Suite) (read : String → m (Except FileError String)) (id : String)
    (s : Settings) (args : List String) : m Response :=
  match args with
  | name :: path :: rest => do
    let file ← read path
    match readProgram path file with
    | .error message => pure (.failure message)
    | .ok p => perform decode read id s p name rest
  | _ => pure .misuse

/-- Carries out the command that arguments ask for. -/
def run (read : String → m (Except FileError String)) (id : String) (s : Settings) (args : List String) : m Response :=
  runWith Suite.decode read id s args

/-- The path of the environment file. -/
def envPath : String := ".env"

/-- Runs the program with all its arguments. -/
def launch (read : String → m (Except FileError String)) (id : String) (env : Env) (args : List String) : m Response :=
  match Launch.ofArgs args with
  | .help => pure { code := 0, showsUsage := true }
  | .misuse => pure .misuse
  | .run config args => do
    let envFile ← read envPath
    let env := match envFile with
      | .ok text => EnvFile.extend env text
      | .error _ => env
    let file ← read config
    match Settings.loadFile env config file with
    | .error _ => pure { code := 1 }
    | .ok s => run read id s args

end Command

end Croupier
