import Croupier.Run.Eval

/-!
# Executing functions

To execute a function is to run it once on a copy of the table. The outcome is a new table, the value that was returned
and the actions that were declared; or it is a rejection, and the table has not changed. The deck of a program is
evaluated on the empty table.
-/

namespace Croupier

/-- The outcome of an execution that did not fail. -/
inductive Outcome where
  | committed (table : Table) (value : Value) (moves : Option (List String))
  | rejected (rejection : Rejection)
  deriving DecidableEq, Repr

/-- The number of calls that may be nested if no other number is given. -/
def defaultDepth : Nat := 64

/-- The number of calls that may be nested. -/
def depthLimit (n : Int) : Nat := if 0 < n then n.toNat else defaultDepth

/-- Why there is no table for a program. -/
inductive SetupError where
  | layout (error : LayoutError)
  | deck (fault : Fault)
  deriving DecidableEq, Repr

/-- The text of an error. -/
def SetupError.message : SetupError → String
  | layout e => e.message
  | deck f => "build deck: " ++ f.message

namespace Program

/-- The arguments of a function that is executed: the player and the move, as far as it takes them. -/
def executionArgs (fn : Function) (ctx : Context) (t : Table) : Except Fault (List Value) :=
  let args := [.player (ctx.actor t), ctx.moveValue]
  if args.length < fn.params.length then
    .error (.mismatch fn.name "at most 2 parameters (player, move)" (toString fn.params.length) fn.pos)
  else .ok (args.take fn.params.length)

/-- Executes a function on a table. -/
def execute (p : Program) (depth : Nat) (fn : Function) (t : Table) (ctx : Context) : Except Fault Outcome := do
  let args ← executionArgs fn ctx t
  match Run.enter ⟨p, ctx⟩ depth fn args fn.pos ⟨t, none⟩ with
  | .ok (value, work) => .ok (.committed work.table value work.moves)
  | .error (.rejected r) => .ok (.rejected r)
  | .error f => .error f

/-- Evaluates the deck. -/
def evalDeck (p : Program) (depth : Nat) : Run (List Card) := do
  let env : Run.Env := ⟨p, {}⟩
  let call := Run.invoke env (Run.enter env depth)
  let t ← Run.table
  let v ← Run.eval env call (env.context.scope [] [] t) p.deck
  Run.cardsOf call deckName v p.deck.pos

/-- The cards of the deck, evaluated on a table. The table is not changed. -/
def buildDeck (p : Program) (depth : Nat) (t : Table) : Except Fault (List Card) :=
  (evalDeck p depth ⟨t, none⟩).map (·.1)

/-- Lays the table of a program with some cards in the deck. -/
def layTable (p : Program) (deck : Pile) (seed : UInt64) : Except LayoutError Table :=
  Table.lay deck p.tableStacks p.playerStacks p.players p.firstPlayer seed

/-- Lays the table for a new game. -/
def newTable (p : Program) (depth : Nat) (seed : UInt64) : Except SetupError Table := do
  let empty ← (p.layTable [] seed).mapError .layout
  let deck ← (p.buildDeck depth empty).mapError .deck
  (p.layTable deck seed).mapError .layout

end Program

end Croupier
