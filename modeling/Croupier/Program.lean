import Croupier.Expr

/-!
# Programs

A program declares a name, a deck, the number of players, the player who starts, the stacks on the table and the stacks
that every player has, and it defines functions. The body of a function is a list of statements.
-/

namespace Croupier

/-- How many cards a transfer moves. -/
inductive Amount where
  | one
  | count (n : Int)
  | all
  | these (cards : Expr)
  deriving Repr

/-- A statement. -/
inductive Stmt where
  | transfer (source target : Expr) (amount : Amount) (pos : Pos)
  | check (condition : Expr) (pos : Pos)
  | ret (value : Option Expr) (pos : Pos)
  | call (fn : String) (args : List Expr) (callPos : Pos) (pos : Pos)
  | when (condition : Expr) (body : List Stmt) (pos : Pos)
  deriving Repr

/-- Where a statement stands. -/
def Stmt.pos : Stmt → Pos
  | transfer _ _ _ p => p
  | check _ p => p
  | ret _ p => p
  | call _ _ _ p => p
  | when _ _ p => p

/-- A function with positional parameters. -/
structure Function where
  name : String
  params : List String
  body : List Stmt
  pos : Pos
  deriving Repr

/-- A program. Functions stand in the order of their definition. -/
structure Program where
  name : String
  deck : Expr
  players : Int
  firstPlayer : Int
  tableStacks : List String
  playerStacks : List String
  functions : List Function
  deriving Repr

namespace Program

/-- The function with a given name. -/
def function? (p : Program) (name : String) : Option Function := p.functions.find? (·.name = name)

/-- The names of the functions. -/
def functionNames (p : Program) : List String := p.functions.map (·.name)

end Program

end Croupier
