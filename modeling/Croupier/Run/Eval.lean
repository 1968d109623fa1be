import Croupier.Run.Builtin
import Croupier.Run.Transfer

/-!
# Evaluation

Expressions and statements are evaluated by recursion on their form, and calls of the program's own functions by
recursion on the number of calls that may still be nested. A name that is called means the program's function of that
name, or else the built-in one; a function with an empty body leaves its name to the built-in function.
-/

namespace Croupier.Run

/-- What a run is about: the program, and the player and the move that it acts for. -/
structure Env where
  program : Program
  context : Context

/-- Tells whether a name can be called. -/
def Env.isCallable (env : Env) (name : String) : Bool :=
  env.program.functionNames.contains name || (Builtin.ofName? name).isSome

/-- The names that can be called, in ascending order. -/
def Env.callableNames (env : Env) : List String :=
  let own := env.program.functionNames
  let others := (Builtin.all.map (·.name)).filter fun name => !own.contains name
  (own ++ others).mergeSort fun a b => decide (a ≤ b)

/-- How a call of one of the program's functions is carried out. -/
abbrev Enter := Function → List Value → Pos → Run Value

/-- Calls what a name means; `refer` calls what a built-in function is given by name. -/
def dispatch (env : Env) (enter : Enter) (refer : Invoke) : Invoke := fun name args pos =>
  match env.program.function? name, Builtin.ofName? name with
  | some fn, none => enter fn args pos
  | some fn, some b => if fn.body.isEmpty then b.call refer args pos else enter fn args pos
  | none, some b => b.call refer args pos
  | none, none => fail (.unknownFunction name pos (Text.closest? name env.callableNames))

/-- Calls what a built-in function is given by name. A built-in function is given no function then, so it does not call
back in its turn. -/
def refer (env : Env) (enter : Enter) : Invoke :=
  dispatch env enter fun name _ pos => fail (.unknownFunction name pos none)

/-- Calls what a name means. -/
def invoke (env : Env) (enter : Enter) : Invoke := dispatch env enter (refer env enter)

/-- What a name stands for: a local value, the deck, the players, a truth value, a shared stack, a function, or itself. -/
def resolve (env : Env) (scope : Scope) (name : String) : Run Value := do
  let t ← table
  match scope.lookup name with
  | some v => pure v
  | none =>
    if name = deckName then pure (.pile (.shared deckName))
    else if name = "current_player" then pure (.number t.currentPlayer)
    else if name = "players" then pure (.number t.players)
    else if name = "true" then pure (.bool true)
    else if name = "false" then pure (.bool false)
    else if env.program.tableStacks.contains name then pure (.pile (.shared name))
    else if env.isCallable name then pure (.function name)
    else pure (.symbol name)

/-- The field of a player. -/
def playerField? (env : Env) (id : Nat) (key : String) : Option Value :=
  if key = playerId then some (.number id)
  else if env.program.playerStacks.contains key then some (.pile (.ofPlayer id key))
  else none

/-- The field of a move. A move that names no player is the move of the player whose turn it is. -/
def moveField? (m : Move) (t : Table) (key : String) : Option Value :=
  if key = "action" then some (.symbol m.action)
  else if key = "cards" then some (.cards m.cards)
  else if key = "target" then some (.cards m.target)
  else if key = "player" then some (.player (if 0 < m.player then m.player.toNat else t.currentPlayer))
  else none

/-- The field of a card. -/
def cardField? (c : Card) (key : String) : Option Value :=
  if key = "rank" then some (.symbol c.rank.name)
  else if key = "suit" then some (.symbol c.suit.name)
  else none

/-- Selects a field. -/
def select (env : Env) (v : Value) (key : String) (pos : Pos) : Run Value := do
  let t ← table
  let selected := match v with
    | .player id => playerField? env id key
    | .move m => moveField? m t key
    | .card c => cardField? c key
    | _ => none
  match selected with
  | some x => pure x
  | none => mismatch (":" ++ key) ("a record with field " ++ key) v pos

/-- The truth value that an operator needs. -/
def truth (op : String) (v : Value) (pos : Pos) : Run Bool :=
  match v with
  | .bool b => pure b
  | v => mismatch op "boolean" v pos

/-- Tells whether the left side of a junction decides it. -/
def decides : Junction → Bool → Bool
  | .and, left => !left
  | .or, left => left

mutual

/-- The value of an expression. -/
def eval (env : Env) (call : Invoke) (scope : Scope) : Expr → Run Value
  | .name id _ => resolve env scope id
  | .int n _ => pure (.number n)
  | .field base key pos =>
    if (Expr.field base key pos).isEveryPlayer then pure (.pile (.everyPlayer key))
    else do
      let v ← eval env call scope base
      select env v key pos
  | .call fn args pos => do
    let vs ← evalAll env call scope args
    call fn vs pos
  | .compare left right negate pos => do
    let a ← eval env call scope left
    let b ← eval env call scope right
    let same ← equal a b pos
    pure (.bool (same != negate))
  | .join op left right _ => do
    let v ← eval env call scope left
    let a ← truth op.sign v left.pos
    if decides op a then pure (.bool a)
    else do
      let v ← eval env call scope right
      let b ← truth op.sign v right.pos
      pure (.bool b)
  | .not operand _ => do
    let v ← eval env call scope operand
    let b ← truth "not" v operand.pos
    pure (.bool !b)

/-- The values of expressions, from left to right. -/
def evalAll (env : Env) (call : Invoke) (scope : Scope) : List Expr → Run (List Value)
  | [] => pure []
  | e :: es => do
    let v ← eval env call scope e
    let vs ← evalAll env call scope es
    pure (v :: vs)

end

mutual

/-- Carries out a statement of a function. The result is there once the function has returned. -/
def exec (env : Env) (call : Invoke) (fn : String) (scope : Scope) : Stmt → Run (Option Value)
  | .transfer source target amount pos => do
    transfer (eval env call scope) call fn source target amount pos
    pure none
  | .check condition pos => do
    let v ← eval env call scope condition
    let holds ← truth "check" v pos
    if holds then pure none
    else fail (.rejected ⟨fn, "check failed: " ++ condition.text, pos⟩)
  | .ret none _ => pure (some .empty)
  | .ret (some value) _ => do
    let v ← eval env call scope value
    pure (some v)
  | .call name args callPos _ => do
    let _ ← eval env call scope (.call name args callPos)
    pure none
  | .when condition body _ => do
    let v ← eval env call scope condition
    let holds ← truth "if" v condition.pos
    if holds then execAll env call fn scope body else pure none

/-- Carries out statements until one returns. -/
def execAll (env : Env) (call : Invoke) (fn : String) (scope : Scope) : List Stmt → Run (Option Value)
  | [] => pure none
  | s :: ss => do
    let result ← exec env call fn scope s
    match result with
    | some v => pure (some v)
    | none => execAll env call fn scope ss

end

/-- Refuses a wrong number of arguments. -/
def checkArity (fn : Function) (args : List Value) (pos : Pos) : Run Unit :=
  if args.length = fn.params.length then pure ()
  else fail (.mismatch fn.name (toString fn.params.length ++ " arguments") (toString args.length) pos)

/-- Enters a function of the program when so many calls may still be nested. -/
def enter (env : Env) : Nat → Enter
  | 0, fn, args, pos => do
    checkArity fn args pos
    fail (.tooDeep fn.name pos)
  | depth + 1, fn, args, pos => do
    checkArity fn args pos
    let t ← table
    let result ← execAll env (invoke env (enter env depth)) fn.name (env.context.scope fn.params args t) fn.body
    pure (result.getD .empty)

end Croupier.Run
