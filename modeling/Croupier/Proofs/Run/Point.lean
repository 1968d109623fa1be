import Mathlib.Logic.Relation
import Croupier.Run.Execute

/-!
# The points of a run

A point of a run is something to be evaluated, carried out or called, and the work that it starts on (`Task`). A task
needs others: its parts, each on the work that the parts before it have left, the function that a name means, the body
of that function, and what a built-in function calls back (`Needs`). The points that a run comes to are those that its
first task needs, directly or not (`ComesTo`). A part that is not reached, because a part before it fails, decides or
returns, is not needed.
-/

namespace Croupier.Run

namespace Env

variable (env : Env)

/-- The calls by name when so many calls may still be nested. -/
def call (depth : Nat) : Invoke := invoke env (enter env depth)

/-- The calls of what a built-in function is given by name. -/
def callback (depth : Nat) : Invoke := refer env (enter env depth)

/-- The function of the program that a name means. -/
def own? (name : String) : Option Function :=
  (env.program.function? name).filter fun fn => (Builtin.ofName? name).isNone || !fn.body.isEmpty

/-- The built-in function that a name means. -/
def builtin? (name : String) : Option Builtin := if (env.own? name).isSome then none else Builtin.ofName? name

end Env

/-- Something that a run does. -/
inductive Task where
  | eval (depth : Nat) (scope : Scope) (e : Expr)
  | evalAll (depth : Nat) (scope : Scope) (es : List Expr)
  | exec (depth : Nat) (fn : String) (scope : Scope) (s : Stmt)
  | execAll (depth : Nat) (fn : String) (scope : Scope) (ss : List Stmt)
  | call (depth : Nat) (name : String) (args : List Value) (pos : Pos)
  | callback (depth : Nat) (name : String) (args : List Value) (pos : Pos)
  | enter (depth : Nat) (fn : Function) (args : List Value) (pos : Pos)

namespace Task

/-- The values that a task is given: those of its local names, or its arguments. -/
def given : Task → List Value
  | eval _ scope _ => scope.map (·.2)
  | evalAll _ scope _ => scope.map (·.2)
  | exec _ _ scope _ => scope.map (·.2)
  | execAll _ _ scope _ => scope.map (·.2)
  | call _ _ args _ => args
  | callback _ _ args _ => args
  | enter _ _ args _ => args

/-- The run of a task, which gives back values. -/
def run (env : Env) : Task → Run (List Value)
  | eval depth scope e => do
    let v ← Run.eval env (env.call depth) scope e
    pure [v]
  | evalAll depth scope es => Run.evalAll env (env.call depth) scope es
  | exec depth fn scope s => do
    let result ← Run.exec env (env.call depth) fn scope s
    pure result.toList
  | execAll depth fn scope ss => do
    let result ← Run.execAll env (env.call depth) fn scope ss
    pure result.toList
  | call depth name args pos => do
    let v ← env.call depth name args pos
    pure [v]
  | callback depth name args pos => do
    let v ← env.callback depth name args pos
    pure [v]
  | enter depth fn args pos => do
    let v ← Run.enter env depth fn args pos
    pure [v]

end Task

/-- A built-in function that starts on a work calls back: to find the cards of a function, or to ask a predicate about
the next card. -/
inductive CallsBack (invoke : Invoke) :
    Builtin → List Value → Pos → Work → String → List Value → Work → Prop where
  | count {name pos w} : CallsBack invoke .count [.function name] pos w name [] w
  | getValue {name pos w} : CallsBack invoke .getValue [.function name] pos w name [] w
  | handRank {name pos w} : CallsBack invoke .handRank [.function name] pos w name [] w
  | cardsInStack {name r place pos w w'} : locate r pos w = .ok (place, w') →
    CallsBack invoke .cardsInStack [.function name, .pile r] pos w name [] w'
  | filter {name predicate pos w} : CallsBack invoke .filter [.function name, predicate] pos w name [] w
  | keep {source name c before after kept pos w w₁ w₂} :
    cardsOf invoke Builtin.filter.name source pos w = .ok (before ++ c :: after, w₁) →
    Builtin.keep invoke name pos before w₁ = .ok (kept, w₂) →
    CallsBack invoke .filter [source, .function name] pos w name [.card c] w₂

/-- A task that starts on a work needs another, which starts on the work that has been left until then. -/
inductive Needs (env : Env) : Task → Work → Task → Work → Prop where
  -- The parts of an expression, from left to right.
  | base {d scope base key pos w} : (Expr.field base key pos).isEveryPlayer = false →
    Needs env (.eval d scope (.field base key pos)) w (.eval d scope base) w
  | args {d scope fn args pos w} : Needs env (.eval d scope (.call fn args pos)) w (.evalAll d scope args) w
  | call {d scope fn args pos w vs w'} : evalAll env (env.call d) scope args w = .ok (vs, w') →
    Needs env (.eval d scope (.call fn args pos)) w (.call d fn vs pos) w'
  | compareLeft {d scope left right negate pos w} :
    Needs env (.eval d scope (.compare left right negate pos)) w (.eval d scope left) w
  | compareRight {d scope left right negate pos w v w'} : eval env (env.call d) scope left w = .ok (v, w') →
    Needs env (.eval d scope (.compare left right negate pos)) w (.eval d scope right) w'
  | joinLeft {d scope op left right pos w} :
    Needs env (.eval d scope (.join op left right pos)) w (.eval d scope left) w
  | joinRight {d scope op left right pos w b w'} : eval env (env.call d) scope left w = .ok (.bool b, w') →
    decides op b = false → Needs env (.eval d scope (.join op left right pos)) w (.eval d scope right) w'
  | operand {d scope operand pos w} : Needs env (.eval d scope (.not operand pos)) w (.eval d scope operand) w
  | firstArg {d scope e es w} : Needs env (.evalAll d scope (e :: es)) w (.eval d scope e) w
  | otherArgs {d scope e es w v w'} : eval env (env.call d) scope e w = .ok (v, w') →
    Needs env (.evalAll d scope (e :: es)) w (.evalAll d scope es) w'
  -- The parts of a statement; the cards of a transfer come after its ends have been located.
  | source {d fn scope source target amount pos w} :
    Needs env (.exec d fn scope (.transfer source target amount pos)) w (.eval d scope source) w
  | target {d fn scope source target amount pos w r w'} : eval env (env.call d) scope source w = .ok (.pile r, w') →
    Needs env (.exec d fn scope (.transfer source target amount pos)) w (.eval d scope target) w'
  | cards {d fn scope source target e pos w r w₁ r' w₂ place place'} :
    eval env (env.call d) scope source w = .ok (.pile r, w₁) →
    eval env (env.call d) scope target w₁ = .ok (.pile r', w₂) →
    locate r source.pos w₂ = .ok (place, w₂) → locate r' target.pos w₂ = .ok (place', w₂) →
    Needs env (.exec d fn scope (.transfer source target (.these e) pos)) w (.eval d scope e) w₂
  | cardsCall {d fn scope source target e pos w r w₁ r' w₂ place place' name w₃} :
    eval env (env.call d) scope source w = .ok (.pile r, w₁) →
    eval env (env.call d) scope target w₁ = .ok (.pile r', w₂) →
    locate r source.pos w₂ = .ok (place, w₂) → locate r' target.pos w₂ = .ok (place', w₂) →
    eval env (env.call d) scope e w₂ = .ok (.function name, w₃) →
    Needs env (.exec d fn scope (.transfer source target (.these e) pos)) w (.call d name [] e.pos) w₃
  | checked {d fn scope condition pos w} :
    Needs env (.exec d fn scope (.check condition pos)) w (.eval d scope condition) w
  | returned {d fn scope value pos w} :
    Needs env (.exec d fn scope (.ret (some value) pos)) w (.eval d scope value) w
  | called {d fn scope name args callPos pos w} :
    Needs env (.exec d fn scope (.call name args callPos pos)) w (.eval d scope (.call name args callPos)) w
  | condition {d fn scope condition body pos w} :
    Needs env (.exec d fn scope (.when condition body pos)) w (.eval d scope condition) w
  | body {d fn scope condition body pos w w'} : eval env (env.call d) scope condition w = .ok (.bool true, w') →
    Needs env (.exec d fn scope (.when condition body pos)) w (.execAll d fn scope body) w'
  | firstStmt {d fn scope s ss w} : Needs env (.execAll d fn scope (s :: ss)) w (.exec d fn scope s) w
  | otherStmts {d fn scope s ss w w'} : exec env (env.call d) fn scope s w = .ok (none, w') →
    Needs env (.execAll d fn scope (s :: ss)) w (.execAll d fn scope ss) w'
  -- A name means a function of the program before it means a built-in one.
  | own {d name args pos w fn} : env.own? name = some fn →
    Needs env (.call d name args pos) w (.enter d fn args pos) w
  | callback {d name args pos w b name' args' w'} : env.builtin? name = some b →
    CallsBack (env.callback d) b args pos w name' args' w' →
    Needs env (.call d name args pos) w (.callback d name' args' pos) w'
  | ownCallback {d name args pos w fn} : env.own? name = some fn →
    Needs env (.callback d name args pos) w (.enter d fn args pos) w
  | enter {d fn args pos w} : args.length = fn.params.length →
    Needs env (.enter (d + 1) fn args pos) w
      (.execAll d fn.name (env.context.scope fn.params args w.table) fn.body) w

/-- From one point a run comes to another. -/
abbrev ComesTo (env : Env) : Task × Work → Task × Work → Prop :=
  Relation.ReflTransGen fun a b => Needs env a.1 a.2 b.1 b.2

/-- A value turns up at a point while a table lies there: it is given to the task, or the task gives it back. -/
inductive TurnsUp (env : Env) : Task × Work → Value → Table → Prop where
  | given {task w v} : v ∈ task.given → TurnsUp env (task, w) v w.table
  | result {task w v vs w'} : task.run env w = .ok (vs, w') → v ∈ vs → TurnsUp env (task, w) v w'.table

end Croupier.Run
