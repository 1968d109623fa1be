import Croupier.Program
import Croupier.Text.Closest
import Croupier.Value

/-!
# Runs

A run evaluates the functions of a program for a player and a move. It works on a table of its own and may declare the
actions that are open to the player. A run that fails leaves nothing behind but its fault; a rejection is the fault that
only refuses the move.
-/

namespace Croupier

/-- Why a move is refused. -/
structure Rejection where
  fn : String
  reason : String
  pos : Pos
  deriving DecidableEq, Repr

/-- The text of a rejection. -/
def Rejection.message (r : Rejection) : String :=
  let place := if r.fn.isEmpty then "" else " in " ++ r.fn
  r.pos.text ++ ": move rejected" ++ place ++ ": " ++ r.reason

/-- Why a run stops. -/
inductive Fault where
  | unknownFunction (name : String) (pos : Pos) (meant : Option String)
  | mismatch (op want got : String) (pos : Pos)
  | tooFewCards (pile : String) (want : Int) (held : Nat) (pos : Pos)
  | rejected (rejection : Rejection)
  | tooDeep (fn : String) (pos : Pos)
  deriving DecidableEq, Repr

/-- The text of a fault. -/
def Fault.message : Fault → String
  | unknownFunction name pos meant =>
    let hint := match meant with
      | none => ""
      | some s => " (" ++ Text.didYouMean (Text.quote s) ++ ")"
    pos.text ++ ": unknown function " ++ Text.quote name ++ hint
  | mismatch op want got pos => pos.text ++ ": " ++ op ++ ": expected " ++ want ++ ", got " ++ got
  | tooFewCards pile want held pos =>
    pos.text ++ ": cannot take " ++ toString want ++ " cards from " ++ pile ++ " holding " ++ toString held
  | rejected r => r.message
  | tooDeep fn pos => pos.text ++ ": " ++ fn ++ ": call depth limit exceeded"

/-- The player and the move that a run acts for. A player that is not positive is the player whose turn it is. -/
structure Context where
  player : Int := 0
  move : Option Move := none
  deriving DecidableEq, Repr

/-- What a run works on: the table, and the actions it has declared. -/
structure Work where
  table : Table
  moves : Option (List String) := none
  deriving DecidableEq, Repr

/-- A run that gives a result of type `α`. -/
abbrev Run := StateT Work (Except Fault)

namespace Run

/-- Stops the run. -/
def fail {α : Type} (f : Fault) : Run α := fun _ => .error f

/-- Stops the run because a value has the wrong kind. -/
def mismatch {α : Type} (op want : String) (got : Value) (pos : Pos) : Run α := fail (.mismatch op want got.kind pos)

/-- The table as it stands. -/
def table : Run Table := fun w => .ok (w.table, w)

/-- Changes the table. -/
def modifyTable (f : Table → Table) : Run Unit := fun w => .ok ((), { w with table := f w.table })

/-- Declares the open actions. -/
def declare (moves : List String) : Run Unit := fun w => .ok ((), { w with moves := some moves })

end Run

/-- The player that a context acts for. -/
def Context.actor (ctx : Context) (t : Table) : Nat := if 0 < ctx.player then ctx.player.toNat else t.currentPlayer

/-- The move that a context acts for. -/
def Context.moveValue (ctx : Context) : Value :=
  match ctx.move with
  | some m => .move m
  | none => .empty

/-- The values of local names, the inner ones first. -/
abbrev Scope := List (String × Value)

/-- The scope of a function: its parameters, then the player and the move that the run acts for. -/
def Context.scope (ctx : Context) (params : List String) (args : List Value) (t : Table) : Scope :=
  params.zip args ++ [("player", .player (ctx.actor t)), ("move", ctx.moveValue)]

/-- How a run calls a function by its name. -/
abbrev Invoke := String → List Value → Pos → Run Value

end Croupier
