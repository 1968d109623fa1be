import Croupier.Scenario
import Croupier.Yaml.Reader

/-!
# Documents of scenarios

A suite is read from a document with known keys. A key that is not known, a key that occurs twice and a value of the
wrong form are errors.
-/

namespace Croupier

open Yaml

/-- Why a text is no suite. -/
inductive DocumentError where
  | empty
  | unreadable (error : ReadError)
  | form (error : FormError)
  | suite (error : SuiteError)
  deriving DecidableEq, Repr

/-- The text of an error. -/
def DocumentError.message : DocumentError → String
  | empty => "spectest: parse: EOF"
  | unreadable e => "spectest: parse: " ++ e.message
  | form e => "spectest: parse: " ++ e.message
  | suite e => e.message

namespace Suite

/-- The text under a key. -/
def textOf (record : List (String × Node)) (key : String) : Except FormError String := do
  let s ← (Node.valueOf record key).text?
  .ok (s.getD "")

/-- The number under a key. -/
def numberOf (record : List (String × Node)) (key : String) : Except FormError Int := do
  let n ← (Node.valueOf record key).int?
  .ok (n.getD 0)

/-- A list of texts. -/
def texts? (n : Node) : Except FormError (Option (List String)) := n.list? Node.text?

/-- The list of texts under a key. -/
def textsOf (record : List (String × Node)) (key : String) : Except FormError (List String) := do
  let xs ← texts? (Node.valueOf record key)
  .ok (xs.getD [])

/-- Names of cards under references. -/
def cardNames? (n : Node) : Except FormError (Option CardNames) := n.dictionary? [] texts?

/-- Names of cards for a player. A player for whom nothing is given counts. -/
def playerCards? (n : Node) : Except FormError (Option CardNames) := do
  let names ← cardNames? n
  .ok (some (names.getD []))

/-- A start position. -/
def fixture? (n : Node) : Except FormError (Option Fixture) := do
  match ← n.record? ["deck", "stacks", "players"] with
  | none => .ok none
  | some r => do
    let deck ← texts? (Node.valueOf r "deck")
    let piles ← cardNames? (Node.valueOf r "stacks")
    let players ← (Node.valueOf r "players").list? playerCards?
    .ok (some ⟨deck, piles.getD [], players.getD []⟩)

/-- A move. -/
def move? (n : Node) : Except FormError (Option ScriptedMove) := do
  match ← n.record? ["player", "action", "cards", "target", "expect"] with
  | none => .ok none
  | some r => do
    let player ← numberOf r "player"
    let action ← textOf r "action"
    let cards ← textsOf r "cards"
    let target ← textsOf r "target"
    let expect ← textOf r "expect"
    .ok (some ⟨player, action, cards, target, expect⟩)

/-- An expectation. -/
def expectation? (n : Node) : Except FormError (Option Expectation) := do
  match ← n.record? ["stacks", "counts", "current_player", "ended", "winners"] with
  | none => .ok none
  | some r => do
    let piles ← cardNames? (Node.valueOf r "stacks")
    let counts ← (Node.valueOf r "counts").dictionary? 0 Node.int?
    let current ← numberOf r "current_player"
    let ended ← (Node.valueOf r "ended").bool?
    let winners ← (Node.valueOf r "winners").list? Node.int?
    .ok (some ⟨piles.getD [], counts.getD [], current, ended, winners⟩)

/-- A scenario. -/
def scenario? (n : Node) : Except FormError (Option Scenario) := do
  match ← n.record? ["name", "state", "moves", "expect"] with
  | none => .ok none
  | some r => do
    let name ← textOf r "name"
    let fixture ← fixture? (Node.valueOf r "state")
    let moves ← (Node.valueOf r "moves").list? move?
    let expect ← expectation? (Node.valueOf r "expect")
    .ok (some ⟨name, fixture, moves.getD [], expect.getD {}⟩)

/-- The suite that a document holds. -/
def ofNode (n : Node) : Except FormError Suite := do
  match ← n.record? ["game", "tests"] with
  | none => .ok {}
  | some r => do
    let game ← textOf r "game"
    let scenarios ← (Node.valueOf r "tests").list? scenario?
    .ok ⟨game, scenarios.getD []⟩

/-- The suite that a document holds, if it makes sense. -/
def ofDocument (n : Node) : Except DocumentError Suite := do
  let s ← (ofNode n).mapError .form
  s.check.mapError .suite
  .ok s

/-- Reads a suite. -/
def ofText (text : String) : Except DocumentError Suite := do
  match ← (readDocument text).mapError .unreadable with
  | none => .error .empty
  | some n => ofDocument n

/-- Reads a suite, or gives the text of the error. -/
def decode (text : String) : Except String Suite := (ofText text).mapError (·.message)

end Suite

end Croupier
