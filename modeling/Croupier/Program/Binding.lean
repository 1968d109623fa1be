import Croupier.Program
import Croupier.Program.Error

/-!
# Binding

Before a program is accepted, the names in it that can be resolved without playing are resolved: fields of records and
stacks of players, the two ends of a transfer, and the predicate of a filter. What passes has no field that nothing can
have, deals to every player by number only, and filters by functions that it defines.
-/

namespace Croupier

/-- The field that holds the number of a player. -/
def playerId : String := "id"

/-- The fields of moves, cards and players. -/
def recordFields : List String := [playerId, "action", "cards", "target", "player", "rank", "suit"]

/-- The function whose second argument names a predicate. -/
def filterName : String := "filter"

namespace Binding

/-- The names that a program declares. -/
structure Names where
  playerStacks : List String
  functions : List String
  deriving Repr

/-- The names that a program declares. -/
def Names.ofProgram (p : Program) : Names := ⟨p.playerStacks, p.functionNames⟩

/-- The names that can stand after a colon. -/
def Names.fields (n : Names) : List String := recordFields ++ n.playerStacks

/-- The names that can stand after a colon, in ascending order and without repetition. -/
def Names.sortedFields (n : Names) : List String := (n.fields.mergeSort fun a b => decide (a ≤ b)).eraseReps

/-- A hint at the candidate that was probably meant. -/
def hint? (name : String) (candidates : List String) : Option Hint := (Text.closest? name candidates).map .meant

/-- The error that a field is unknown. -/
def unknownField (name : String) (pos : Pos) (candidates : List String) : ParseError :=
  { pos := pos, expected := "field name", found := name, hint := hint? name candidates }

/-- Checks that the argument names a function of the program. -/
def checkPredicate (n : Names) : Expr → Except ParseError Unit
  | .name id pos =>
    if n.functions.contains id then .ok ()
    else .error { pos := pos, expected := "predicate function name", found := id, hint := hint? id n.functions }
  | e => .error { pos := e.pos, expected := "predicate function name", found := e.text }

/-- Checks a stack of every player. -/
def checkEveryPlayer (n : Names) (name : String) (pos : Pos) : Except ParseError Unit :=
  if n.playerStacks.contains name then .ok () else .error (unknownField name pos n.playerStacks)

/-- Checks the predicate of a call with two arguments to the filter. -/
def checkFilter (n : Names) (fn : String) : List Expr → Except ParseError Unit
  | [_, predicate] => if fn = filterName then checkPredicate n predicate else .ok ()
  | _ => .ok ()

mutual

/-- Checks an expression. -/
def checkExpr (n : Names) : Expr → Except ParseError Unit
  | .name _ _ => .ok ()
  | .int _ _ => .ok ()
  | .field base name pos =>
    if (Expr.field base name pos).isEveryPlayer then checkEveryPlayer n name pos
    else if n.fields.contains name then checkExpr n base
    else .error (unknownField name pos n.sortedFields)
  | .call fn args _ => do
    checkFilter n fn args
    checkExprs n args
  | .compare left right _ _ => do
    checkExpr n left
    checkExpr n right
  | .join _ left right _ => do
    checkExpr n left
    checkExpr n right
  | .not operand _ => checkExpr n operand

/-- Checks expressions from left to right. -/
def checkExprs (n : Names) : List Expr → Except ParseError Unit
  | [] => .ok ()
  | e :: es => do
    checkExpr n e
    checkExprs n es

end

/-- Checks an end of a transfer that is a name. -/
def checkEndName (id : String) (pos : Pos) : Except ParseError Unit :=
  if id = Expr.everyPlayer then .error { pos := pos, expected := "players:<stack>", found := id }
  else if id = "current_player" then .error { pos := pos, expected := "stack or deck", found := id }
  else .ok ()

/-- Checks the source of a transfer. -/
def checkSource (n : Names) : Expr → Except ParseError Unit
  | .name id pos => checkEndName id pos
  | e =>
    if e.isEveryPlayer then
      .error { pos := e.pos, expected := "a single stack as transfer source", found := e.text }
    else checkExpr n e

/-- Checks the target of a transfer. -/
def checkTarget (n : Names) : Expr → Except ParseError Unit
  | .name id pos => checkEndName id pos
  | e => checkExpr n e

/-- Checks how many cards go to a target: a card set cannot go to every player. -/
def checkAmount (n : Names) (target : Expr) : Amount → Except ParseError Unit
  | .these cards =>
    if target.isEveryPlayer then
      .error { pos := cards.pos, expected := "a card count when dealing to every player", found := "a card set" }
    else checkExpr n cards
  | _ => .ok ()

mutual

/-- Checks a statement. -/
def checkStmt (n : Names) : Stmt → Except ParseError Unit
  | .transfer source target amount _ => do
    checkSource n source
    checkTarget n target
    checkAmount n target amount
  | .check condition _ => checkExpr n condition
  | .ret none _ => .ok ()
  | .ret (some value) _ => checkExpr n value
  | .call fn args pos _ => checkExpr n (.call fn args pos)
  | .when condition body _ => do
    checkExpr n condition
    checkStmts n body

/-- Checks statements in order. -/
def checkStmts (n : Names) : List Stmt → Except ParseError Unit
  | [] => .ok ()
  | s :: ss => do
    checkStmt n s
    checkStmts n ss

end

/-- Checks functions in order. -/
def checkFunctions (n : Names) : List Function → Except ParseError Unit
  | [] => .ok ()
  | f :: fs => do
    checkStmts n f.body
    checkFunctions n fs

/-- Checks a program: the deck first, then the functions in the order of their definition. -/
def check (p : Program) : Except ParseError Unit := do
  let n := Names.ofProgram p
  checkExpr n p.deck
  checkFunctions n p.functions

end Binding

end Croupier
