import Croupier.Yaml.Node
import Croupier.Text.Quoted

/-!
# Scenarios

A scenario plays a game from a start position through some moves and says what is to be expected of every move and of
the position at the end. A suite is a list of scenarios; it is read from a document.
-/

namespace Croupier

/-- Names of cards for every reference. -/
abbrev CardNames := List (String × List String)

/-- The position that a scenario starts from. What it does not name is as the setup of the game leaves it. -/
structure Fixture where
  deck : Option (List String) := none
  piles : CardNames := []
  /-- The stacks of the players, in their order. -/
  players : List CardNames := []
  deriving DecidableEq, Repr

/-- A move of a scenario. Without an expectation it is expected to be committed. -/
structure ScriptedMove where
  player : Int := 0
  action : String := ""
  cards : List String := []
  target : List String := []
  expect : String := ""
  deriving DecidableEq, Repr

/-- What is expected at the end. What is not named is not looked at. -/
structure Expectation where
  piles : CardNames := []
  counts : List (String × Int) := []
  /-- The player on turn; 0 is not looked at. -/
  currentPlayer : Int := 0
  ended : Option Bool := none
  winners : Option (List Int) := none
  deriving DecidableEq, Repr

/-- A scenario. -/
structure Scenario where
  name : String := ""
  fixture : Option Fixture := none
  moves : List ScriptedMove := []
  expect : Expectation := {}
  deriving DecidableEq, Repr

/-- Scenarios for a game. -/
structure Suite where
  game : String := ""
  scenarios : List Scenario := []
  deriving DecidableEq, Repr

/-- How a move can end. -/
inductive MoveEnd where
  | committed
  | rejected
  | error
  deriving DecidableEq, Repr

/-- The name of an end. -/
def MoveEnd.name : MoveEnd → String
  | committed => "committed"
  | rejected => "rejected"
  | error => "error"

/-- The name of the end that a move is expected to have. -/
def ScriptedMove.expected (m : ScriptedMove) : String := if m.expect.isEmpty then MoveEnd.committed.name else m.expect

/-- Tells whether the expectation of a move can be met. -/
def ScriptedMove.isSensible (m : ScriptedMove) : Bool :=
  [MoveEnd.committed, .rejected, .error].any (·.name = m.expected)

/-- Why a suite makes no sense. Scenarios and moves are counted from one. -/
inductive SuiteError where
  | noName (index : Nat)
  | duplicate (name : String)
  | expectation (name : String) (move : Nat) (expect : String)
  deriving DecidableEq, Repr

/-- The text of an error. -/
def SuiteError.message : SuiteError → String
  | noName i => "spectest: test " ++ toString i ++ " has no name"
  | duplicate name => "spectest: duplicate test " ++ Text.quote name
  | expectation name j e =>
    "spectest: " ++ name ++ ": move " ++ toString j ++ ": unknown expectation " ++ Text.quote e

namespace Suite

/-- Checks the moves of a scenario, the first of which has a given number. -/
def checkMoves (name : String) : Nat → List ScriptedMove → Except SuiteError Unit
  | _, [] => .ok ()
  | j, m :: ms => if m.isSensible then checkMoves name (j + 1) ms else .error (.expectation name j m.expect)

/-- Checks scenarios, the first of which has a given number, after others with given names. -/
def checkScenarios (seen : List String) : Nat → List Scenario → Except SuiteError Unit
  | _, [] => .ok ()
  | i, s :: ss =>
    if s.name.isEmpty then .error (.noName i)
    else if seen.contains s.name then .error (.duplicate s.name)
    else do
      checkMoves s.name 1 s.moves
      checkScenarios (s.name :: seen) (i + 1) ss

/-- Checks that every scenario has a name of its own and that every expectation can be met. -/
def check (s : Suite) : Except SuiteError Unit := checkScenarios [] 1 s.scenarios

end Suite

end Croupier
