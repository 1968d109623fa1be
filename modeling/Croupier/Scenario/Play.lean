import Croupier.Card.Reading
import Croupier.Game.Arrange
import Croupier.Scenario

/-!
# Playing scenarios

A scenario is played in a game of its own. Everything that is not as expected is noted; the scenario passes if nothing
is noted. A suite may stop at the first scenario that does not pass, and then the others are skipped.
-/

namespace Croupier

/-- The outcome of a scenario. -/
structure ScenarioResult where
  name : String
  passed : Bool
  /-- Everything that was noted. -/
  failures : List String
  deriving DecidableEq, Repr

/-- The outcome of a suite. -/
structure Report where
  results : List ScenarioResult
  /-- The number of scenarios that were not played. -/
  skipped : Nat
  deriving DecidableEq, Repr

namespace Report

/-- The number of scenarios that did not pass. -/
def failed (r : Report) : Nat := (r.results.filter (!·.passed)).length

/-- Tells whether all scenarios were played and passed. -/
def passed (r : Report) : Bool := r.failed == 0 && r.skipped == 0

end Report

/-- Why a start position cannot be laid out. -/
inductive FixtureError where
  | twice (ref : String)
  | cards (ref : String) (error : CardError)
  | arrange (error : ArrangeError)
  deriving DecidableEq, Repr

/-- The text of an error. -/
def FixtureError.message : FixtureError → String
  | twice ref => ref ++ " given twice"
  | cards ref e => ref ++ ": " ++ e.message
  | arrange e => e.message

/-- Entries in the order of their names. -/
def sortByName {α : Type} (entries : List (String × α)) : List (String × α) :=
  entries.mergeSort fun a b => decide (a.1 ≤ b.1)

namespace Fixture

/-- Adds entries whose references are not there yet. -/
def addAll (refs : CardNames) : CardNames → Except FixtureError CardNames
  | [] => .ok refs
  | e :: es => if (refs.lookup e.1).isSome then .error (.twice e.1) else addAll (refs ++ [e]) es

/-- Adds the stacks of players, the first of whom has a given number. -/
def addPlayers (refs : CardNames) : Nat → List CardNames → Except FixtureError CardNames
  | _, [] => .ok refs
  | id, p :: ps => do
    let refs ← addAll refs (p.map fun (name, cards) => (toString id ++ ":" ++ name, cards))
    addPlayers refs (id + 1) ps

/-- The names of the cards for every reference, in the order of the references. -/
def references (f : Fixture) : Except FixtureError CardNames := do
  let refs ← addPlayers f.piles 1 f.players
  let refs ← match f.deck with
    | none => .ok refs
    | some deck => addAll refs [(deckName, deck)]
  .ok (sortByName refs)

/-- The placements of a start position. -/
def placements (f : Fixture) : Except FixtureError (List Placement) := do
  let refs ← f.references
  refs.mapM fun (ref, names) => do
    let cards ← (Card.readAll names).mapError (.cards ref)
    .ok ⟨ref, cards⟩

/-- Lays out a start position. -/
def apply (f : Fixture) (g : Game) : Except FixtureError Game := do
  let ps ← f.placements
  (g.arrange ps).mapError .arrange

end Fixture

/-- The move that a scripted move stands for. -/
def ScriptedMove.move (m : ScriptedMove) : Except CardError Move := do
  let cards ← Card.readAll m.cards
  let target ← Card.readAll m.target
  .ok ⟨m.player, m.action, cards, target⟩

/-- How a submitted move ended, and why if it was not committed. -/
def Submission.moveEnd (s : Submission) : MoveEnd × String :=
  match s.reply with
  | .error e => (.error, ": " ++ e.message)
  | .ok r => match r.verdict with
    | .committed _ => (.committed, "")
    | .rejected f => (.rejected, ": " ++ f.reason)

/-- What is noted about the `i`-th move. -/
def ScriptedMove.failures (m : ScriptedMove) (i : Nat) (s : Submission) : List String :=
  let (got, detail) := s.moveEnd
  if got.name = m.expected then []
  else ["move " ++ toString i ++ " (" ++ m.action ++ "): expected " ++ m.expected ++ ", got " ++ got.name ++ detail]

/-- What is noted about moves, the first of which has a given number. A move whose cards cannot be read stops the
scenario; otherwise the game at the end is given. -/
def playMoves : Nat → List ScriptedMove → Game → List String × Option Game
  | _, [], g => ([], some g)
  | i, m :: ms, g =>
    match m.move with
    | .error e => (["move " ++ toString i ++ ": " ++ e.message], none)
    | .ok move =>
      let s := g.submit move
      let (failures, last) := playMoves (i + 1) ms s.game
      (m.failures i s ++ failures, last)

namespace Expectation

/-- Tells whether a pile holds the expected cards. Only the order of the deck counts. -/
def holds (ref : String) (want got : List Card) : Bool := if ref = deckName then want == got else Pile.same want got

/-- What is noted about a stack. -/
def stackFailures (g : Game) (ref : String) (names : List String) : List String :=
  match Card.readAll names with
  | .error e => ["expect " ++ ref ++ ": " ++ e.message]
  | .ok want => match g.render ref with
    | .error e => ["expect " ++ ref ++ ": " ++ e.message]
    | .ok got =>
      if holds ref want got then []
      else [ref ++ ": expected " ++ Text.bracketed (Card.names want) ++ ", got " ++ Text.bracketed (Card.names got)]

/-- What is noted about the number of cards in a stack. -/
def countFailures (g : Game) (ref : String) (want : Int) : List String :=
  match g.render ref with
  | .error e => ["expect " ++ ref ++ ": " ++ e.message]
  | .ok got =>
    if (got.length : Int) = want then []
    else [ref ++ ": expected " ++ toString want ++ " cards, got " ++ toString got.length]

/-- What is noted about the player on turn. -/
def playerFailures (g : Game) (want : Int) : List String :=
  if want = 0 ∨ (g.currentPlayer : Int) = want then []
  else ["current_player: expected " ++ toString want ++ ", got " ++ toString g.currentPlayer]

/-- What is noted about the end of the game. -/
def endFailures (g : Game) (want : Option Bool) : List String :=
  match want with
  | none => []
  | some b => if g.isEnded = b then [] else ["ended: expected " ++ toString b ++ ", got " ++ toString g.isEnded]

/-- What is noted about the winners, who are compared as they are written. -/
def winnerFailures (g : Game) (want : Option (List Int)) : List String :=
  match want with
  | none => []
  | some ids =>
    let want := Text.bracketed (ids.map toString)
    let got := Text.bracketed (g.table.winners.map toString)
    if got = want then [] else ["winners: expected " ++ want ++ ", got " ++ got]

/-- What is noted about a position. -/
def failures (e : Expectation) (g : Game) : List String :=
  (sortByName e.piles).flatMap (fun (ref, names) => stackFailures g ref names) ++
    (sortByName e.counts).flatMap (fun (ref, n) => countFailures g ref n) ++
    playerFailures g e.currentPlayer ++ endFailures g e.ended ++ winnerFailures g e.winners

end Expectation

namespace Scenario

/-- The game that a scenario starts from, or what is noted about it. -/
def begin (s : Scenario) (p : Program) (o : GameOptions) : Except String Game := do
  let (g, _) ← (Game.start s.name p o).mapError fun e => "new game: " ++ e.message p.name
  match s.fixture with
  | none => .ok g
  | some f => (f.apply g).mapError fun e => "fixture: " ++ e.message

/-- Plays a scenario. One that cannot be played to its end does not pass. -/
def play (s : Scenario) (p : Program) (o : GameOptions) : ScenarioResult :=
  match s.begin p o with
  | .error note => ⟨s.name, false, [note]⟩
  | .ok g =>
    let (notes, last) := playMoves 1 s.moves g
    match last with
    | none => ⟨s.name, false, notes⟩
    | some g =>
      let notes := notes ++ s.expect.failures g
      ⟨s.name, notes.isEmpty, notes⟩

end Scenario

namespace Suite

/-- Plays scenarios. -/
def playAll (p : Program) (o : GameOptions) (failFast : Bool) : List Scenario → Report
  | [] => ⟨[], 0⟩
  | s :: ss =>
    let result := s.play p o
    if failFast && !result.passed then ⟨[result], ss.length⟩
    else
      let rest := playAll p o failFast ss
      ⟨result :: rest.results, rest.skipped⟩

/-- Plays a suite. -/
def play (s : Suite) (p : Program) (o : GameOptions) (failFast : Bool) : Report := playAll p o failFast s.scenarios

end Suite

end Croupier
