import Croupier.Pile
import Croupier.Table
import Croupier.Text.Quoted

/-!
# Values

A value is what an expression stands for: nothing, a truth value, a number, a symbol, some cards or one card, a player,
a move, a pile or a function.
-/

namespace Croupier

/-- A move that a player asks for. Player 0 is the player whose turn it is. -/
structure Move where
  player : Int
  action : String
  cards : List Card
  target : List Card
  deriving DecidableEq, Repr, Inhabited

/-- The text of a move. -/
def Move.text (m : Move) : String :=
  m.action ++ " cards=" ++ Text.bracketed (Card.names m.cards) ++ " target=" ++ Text.bracketed (Card.names m.target)

/-- A pile as a program speaks of it. Players are counted from one. -/
inductive PileRef where
  | shared (name : String)
  | ofPlayer (id : Nat) (name : String)
  | everyPlayer (name : String)
  deriving DecidableEq, Repr

/-- The text of a reference. -/
def PileRef.text : PileRef → String
  | shared name => name
  | ofPlayer id name => toString id ++ ":" ++ name
  | everyPlayer name => "players:" ++ name

/-- A value. -/
inductive Value where
  | empty
  | bool (b : Bool)
  | number (n : Int)
  | symbol (s : String)
  | cards (cs : List Card)
  | card (c : Card)
  | player (id : Nat)
  | move (m : Move)
  | pile (r : PileRef)
  | function (name : String)
  deriving DecidableEq, Repr

namespace Value

/-- The names of the kinds of value, by their numbers. -/
def kindNames : List String :=
  ["empty", "boolean", "number", "symbol", "card set", "card", "player", "move", "stack", "function"]

/-- The name of the kind with a given number. -/
def kindName (code : Int) : String :=
  match (if 0 ≤ code then kindNames[code.toNat]? else none) with
  | some name => name
  | none => "KIND_" ++ toString code

/-- The number of the kind of a value. -/
def kindCode : Value → Int
  | empty => 0
  | bool _ => 1
  | number _ => 2
  | symbol _ => 3
  | cards _ => 4
  | card _ => 5
  | player _ => 6
  | move _ => 7
  | pile _ => 8
  | function _ => 9

/-- The name of the kind of a value. -/
def kind (v : Value) : String := kindName v.kindCode

/-- The text of a value. -/
def text : Value → String
  | empty => "()"
  | bool b => toString b
  | number n => toString n
  | symbol s => s
  | cards cs => "[" ++ ", ".intercalate (Card.names cs) ++ "]"
  | card c => c.name
  | player id => "player " ++ toString id
  | move m => m.text
  | pile r => r.text
  | function name => name

/-- Tells whether a value is compared by its text. -/
def isScalar : Value → Bool
  | number _ | symbol _ | function _ => true
  | _ => false

/-- Tells whether a value stands for cards without anything being called. -/
def isCards : Value → Bool
  | cards _ | card _ | pile _ => true
  | _ => false

end Value

end Croupier
