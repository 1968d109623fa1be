import Croupier.Run.Execute

/-!
# The calls of built-in functions that a run makes

A trace lists, for every work that a run may start on, the calls of built-in functions that the run makes, in their
order: the calls in arguments come before the call that they are for, those that a built-in function makes itself to
filter cards or to find them come after it, and a call that is not reached is not in the list. The traces follow the
evaluator: `evalTrace` and `execTrace` the form of expressions and statements, `enterTrace` the calls that may still be
nested.
-/

namespace Croupier

/-- A call of a built-in function. -/
structure BuiltinCall where
  builtin : Builtin
  args : List Value
  deriving DecidableEq, Repr

namespace Run

/-- The calls of built-in functions that a run makes, by the work that it starts on. -/
abbrev Trace := Work → List BuiltinCall

namespace Trace

/-- The trace of a run that calls nothing. -/
def quiet : Trace := fun _ => []

/-- The trace of a run and of what is run after it. -/
def andThen {α : Type} (m : Run α) (calls : Trace) (next : α → Trace) : Trace := fun w =>
  calls w ++ match m w with
    | .ok (a, w') => next a w'
    | .error _ => []

end Trace

open Trace (quiet andThen)

/-- How functions are called by their names, and the trace of every such call. -/
structure Caller where
  invoke : Invoke
  trace : String → List Value → Pos → Trace

/-- The calls made to find the cards that a value stands for. -/
def cardsTrace (c : Caller) (v : Value) (pos : Pos) : Trace :=
  match v with
  | .function name => c.trace name [] pos
  | _ => quiet

/-- The calls made to ask a predicate about some cards. -/
def keepTrace (c : Caller) (predicate : String) (pos : Pos) : List Card → Trace
  | [] => quiet
  | x :: xs => andThen (c.invoke predicate [.card x] pos) (c.trace predicate [.card x] pos) fun v =>
    match v with
    | .bool _ => keepTrace c predicate pos xs
    | _ => quiet -- the predicate has failed

/-- The trace of what a built-in function calls itself. -/
def callbackTrace (c : Caller) (b : Builtin) (args : List Value) (pos : Pos) : Trace :=
  match b, args with
  | .filter, [source, .function p] =>
    andThen (cardsOf c.invoke b.name source pos) (cardsTrace c source pos) (keepTrace c p pos)
  -- the cards are found before the predicate is refused
  | .filter, [source, _] => cardsTrace c source pos
  | .cardsInStack, [v, .pile r] => andThen (locate r pos) quiet fun _ => cardsTrace c v pos
  | .count, [v] => cardsTrace c v pos
  | .getValue, [v] => cardsTrace c v pos
  | .handRank, [v] => cardsTrace c v pos
  | _, _ => quiet

/-- The call of a built-in function, and then what it calls back. -/
def builtinTrace (c : Caller) (b : Builtin) (args : List Value) (pos : Pos) : Trace := fun w =>
  ⟨b, args⟩ :: callbackTrace c b args pos w

mutual

/-- The calls made to evaluate an expression. -/
def evalTrace (env : Env) (c : Caller) (scope : Scope) : Expr → Trace
  | .name _ _ => quiet
  | .int _ _ => quiet
  | .field base key pos => if (Expr.field base key pos).isEveryPlayer then quiet else evalTrace env c scope base
  | .call fn args pos =>
    andThen (evalAll env c.invoke scope args) (evalAllTrace env c scope args) fun vs => c.trace fn vs pos
  | .compare left right _ _ =>
    andThen (eval env c.invoke scope left) (evalTrace env c scope left) fun _ => evalTrace env c scope right
  | .join op left right _ =>
    andThen (eval env c.invoke scope left) (evalTrace env c scope left) fun v =>
      -- the right side is not reached if the left one decides
      andThen (truth op.sign v left.pos) quiet fun a => if decides op a then quiet else evalTrace env c scope right
  | .not operand _ => evalTrace env c scope operand

/-- The calls made to evaluate some expressions. -/
def evalAllTrace (env : Env) (c : Caller) (scope : Scope) : List Expr → Trace
  | [] => quiet
  | e :: es => andThen (eval env c.invoke scope e) (evalTrace env c scope e) fun _ => evalAllTrace env c scope es

end

/-- The calls made to move cards to a pile. -/
def moveTrace (eval : Expr → Run Value) (trace : Expr → Trace) (c : Caller) (targetRef : PileRef) (targetPos : Pos)
    (amount : Amount) : Trace :=
  andThen (locate targetRef targetPos) quiet fun _ =>
    match amount with
    | .these e => andThen (eval e) (trace e) fun v => cardsTrace c v e.pos
    | _ => quiet

/-- The calls made to move cards between two piles. -/
def betweenTrace (eval : Expr → Run Value) (trace : Expr → Trace) (c : Caller) (targetRef : PileRef) (targetPos : Pos)
    (amount : Amount) : Trace :=
  match targetRef with
  | .everyPlayer _ => quiet -- a deal does not evaluate a set of cards
  | _ => moveTrace eval trace c targetRef targetPos amount

/-- The calls made by a transfer. -/
def transferTrace (eval : Expr → Run Value) (trace : Expr → Trace) (c : Caller) (source target : Expr)
    (amount : Amount) : Trace :=
  andThen (eval source) (trace source) fun v =>
    andThen (pileRef "transfer source" v source.pos) quiet fun sourceRef =>
      andThen (eval target) (trace target) fun v =>
        andThen (pileRef "transfer destination" v target.pos) quiet fun targetRef =>
          andThen (locate sourceRef source.pos) quiet fun _ => betweenTrace eval trace c targetRef target.pos amount

mutual

/-- The calls made to carry out a statement. -/
def execTrace (env : Env) (c : Caller) (fn : String) (scope : Scope) : Stmt → Trace
  | .transfer source target amount _ =>
    transferTrace (eval env c.invoke scope) (evalTrace env c scope) c source target amount
  | .check condition _ => evalTrace env c scope condition
  | .ret none _ => quiet
  | .ret (some value) _ => evalTrace env c scope value
  | .call name args callPos _ => evalTrace env c scope (.call name args callPos)
  | .when condition body _ =>
    andThen (eval env c.invoke scope condition) (evalTrace env c scope condition) fun v =>
      andThen (truth "if" v condition.pos) quiet fun holds => if holds then execAllTrace env c fn scope body else quiet

/-- The calls made to carry out some statements. -/
def execAllTrace (env : Env) (c : Caller) (fn : String) (scope : Scope) : List Stmt → Trace
  | [] => quiet
  | s :: ss => andThen (exec env c.invoke fn scope s) (execTrace env c fn scope s) fun result =>
    match result with
    | some _ => quiet -- the function has returned
    | none => execAllTrace env c fn scope ss

end

/-- How calls of the program's functions are carried out, and the trace of every such call. -/
structure Entry where
  enter : Enter
  trace : Function → List Value → Pos → Trace

/-- The calls of what names mean. -/
def Entry.dispatch (e : Entry) (env : Env) (refer : Caller) : Caller where
  invoke := Run.dispatch env e.enter refer.invoke
  trace name args pos :=
    match env.program.function? name, Builtin.ofName? name with
    | some fn, none => e.trace fn args pos
    | some fn, some b => if fn.body.isEmpty then builtinTrace refer b args pos else e.trace fn args pos
    | none, some b => builtinTrace refer b args pos
    | none, none => quiet

/-- The calls of what a built-in function is given by name. -/
def Entry.refer (e : Entry) (env : Env) : Caller :=
  e.dispatch env ⟨fun name _ pos => fail (.unknownFunction name pos none), fun _ _ _ => quiet⟩

/-- The calls by name. -/
def Entry.caller (e : Entry) (env : Env) : Caller := e.dispatch env (e.refer env)

/-- The trace of a call of one of the program's functions when so many calls may still be nested. -/
def enterTrace (env : Env) : Nat → Function → List Value → Pos → Trace
  | 0, _, _, _ => quiet
  | depth + 1, fn, args, pos => andThen (checkArity fn args pos) quiet fun _ => andThen table quiet fun t =>
    execAllTrace env (Entry.caller ⟨enter env depth, enterTrace env depth⟩ env) fn.name
      (env.context.scope fn.params args t) fn.body

end Run

namespace Program

/-- The calls of built-in functions that an execution makes. -/
def executionCalls (p : Program) (depth : Nat) (fn : Function) (t : Table) (ctx : Context) : List BuiltinCall :=
  match executionArgs fn ctx t with
  | .ok args => Run.enterTrace ⟨p, ctx⟩ depth fn args fn.pos ⟨t, none⟩
  | .error _ => []

end Program

end Croupier
