import Croupier.Hand
import Croupier.Number
import Croupier.Program.Binding
import Croupier.Run.Cards

/-!
# Built-in functions

The functions that every program can call: they give the standard deck, choose, count and value cards, declare the open
actions, shuffle, end the game, name winners and pass the turn on. A built-in function calls back only to filter cards
and to find the cards of a function.
-/

namespace Croupier

/-- A built-in function. -/
inductive Builtin where
  | standardDeck
  | filter
  | count
  | cardsInStack
  | getValue
  | validMoves
  | shuffle
  | endGame
  | winner
  | handRank
  | nextPlayer
  deriving DecidableEq, Repr

namespace Builtin

/-- All built-in functions. -/
def all : List Builtin :=
  [standardDeck, filter, count, cardsInStack, getValue, validMoves, shuffle, endGame, winner, handRank, nextPlayer]

/-- The name of a built-in function. -/
def name : Builtin → String
  | standardDeck => "StandardDeck"
  | filter => filterName
  | count => "count"
  | cardsInStack => "cards_in_stack"
  | getValue => "get_value"
  | validMoves => "valid_moves"
  | shuffle => "shuffle"
  | endGame => "end"
  | winner => "winner"
  | handRank => "hand_rank"
  | nextPlayer => "next_player"

/-- The number of arguments of a built-in function that takes a fixed number. -/
def arity : Builtin → Nat
  | standardDeck => 0
  | filter => 2
  | count => 1
  | cardsInStack => 2
  | getValue => 1
  | validMoves => 0
  | shuffle => 1
  | endGame => 0
  | winner => 1
  | handRank => 1
  | nextPlayer => 0

/-- The built-in function with a given name. -/
def ofName? (name : String) : Option Builtin := all.find? (·.name = name)

/-- The sum of the values of some cards. -/
def totalValue (cs : List Card) : Int := wrap ((cs.map Card.value).foldr (· + ·) 0)

/-- The cards for which a predicate gives true, in order. -/
def keep (invoke : Invoke) (predicate : String) (pos : Pos) : List Card → Run (List Card)
  | [] => pure []
  | c :: cs => do
    let v ← invoke predicate [.card c] pos
    match v with
    | .bool keeps => do
      let rest ← keep invoke predicate pos cs
      pure (if keeps then c :: rest else rest)
    | v => Run.mismatch predicate "boolean" v pos

/-- The names of actions. -/
def actionNames (pos : Pos) : List Value → Run (List String)
  | [] => pure []
  | v :: vs =>
    match v with
    | .function name | .symbol name => do
      let names ← actionNames pos vs
      pure (name :: names)
    | v => Run.mismatch validMoves.name "action name" v pos

/-- The number of the player that a value names. -/
def playerNumber (v : Value) (pos : Pos) : Run Int :=
  match v with
  | .number n => pure n
  | .player id => pure id
  | v => Run.mismatch winner.name "player id" v pos

/-- Calls a built-in function. -/
def call (invoke : Invoke) (b : Builtin) (args : List Value) (pos : Pos) : Run Value :=
  match b, args with
  | .standardDeck, [] => pure (.cards Card.standardDeck)
  | .filter, [source, predicate] => do
    let cs ← Run.cardsOf invoke b.name source pos
    match predicate with
    | .function p => do
      let kept ← keep invoke p pos cs
      pure (.cards kept)
    | v => Run.mismatch b.name "predicate function" v pos
  | .count, [v] => do
    let cs ← Run.cardsOf invoke b.name v pos
    pure (.number cs.length)
  | .cardsInStack, [v, stack] =>
    match stack with
    | .pile r => do
      let place ← Run.locate r pos
      let cs ← Run.cardsOf invoke b.name v pos
      let pile ← Run.pileAt place
      pure (.bool (Pile.includes pile cs))
    | v => Run.mismatch b.name "stack" v pos
  | .getValue, [v] => do
    let cs ← Run.cardsOf invoke b.name v pos
    pure (.number (totalValue cs))
  | .validMoves, args => do
    let names ← actionNames pos args
    Run.declare names
    pure .empty
  | .shuffle, [stack] =>
    match stack with
    | .pile r => do
      let place ← Run.locate r pos
      Run.modifyTable (·.shuffle place)
      pure .empty
    | v => Run.mismatch b.name "stack or deck" v pos
  | .endGame, [] => do
    Run.modifyTable fun t => { t with ended := true }
    pure .empty
  | .winner, [v] => do
    let id ← playerNumber v pos
    let t ← Run.table
    match t.win? id with
    | some t => do
      Run.modifyTable fun _ => t
      pure .empty
    | none => Run.fail (.mismatch b.name "a seated player id" (toString id) pos)
  | .handRank, [v] => do
    let cs ← Run.cardsOf invoke b.name v pos
    match Hand.rank cs with
    | .ok n => pure (.number n)
    | .error _ => Run.fail (.mismatch b.name "3, 5 or 7 cards" (toString cs.length ++ " cards") pos)
  | .nextPlayer, [] => do
    Run.modifyTable Table.pass
    pure .empty
  | b, args => Run.fail (.mismatch b.name (toString b.arity ++ " arguments") (toString args.length) pos)

end Builtin

end Croupier
