import Mathlib.Tactic.Lemma
import Croupier.Proofs.Run.Law
import Croupier.Proofs.Run.Point

/-!
# The rules of evaluation

The rules say how a job is done: something is evaluated, carried out or called while so many functions of the program
are being carried out (`Job`). A job is done in terms of other jobs, and how those are done is an argument of the rules
(`rules`). So the rules give no account of why evaluation ends: a call of a function is refused where too many are being
carried out, and apart from that a built-in function calls by name whatever it is given, as often as it likes.

A run asks for a job on a work if it fails whenever that job fails there (`Asks`): nothing goes on after a failure. A
run rests on good jobs if it asks for finitely many jobs, all of them good, and does the same however all others are
done (`RestsOn`). This passes through a sequence (`RestsOn.bind`). A built-in function that is given the names of
functions rests on calls without such names, and one that is given none asks for nothing (`Builtin.call_restsOn`); hence
the evaluator, which cuts calls back off after the first, obeys the rules (`rules_evaluator`).
-/

namespace Croupier

/-- Tells whether a value is the name of a function. -/
def Value.isFunction : Value → Bool
  | function _ => true
  | _ => false

namespace Run

/-- Something that evaluation has to do while so many functions of the program are being carried out. -/
inductive Job where
  | eval (nested : Nat) (scope : Scope) (e : Expr)
  | evalAll (nested : Nat) (scope : Scope) (es : List Expr)
  | exec (nested : Nat) (fn : String) (scope : Scope) (s : Stmt)
  | execAll (nested : Nat) (fn : String) (scope : Scope) (ss : List Stmt)
  | call (nested : Nat) (name : String) (args : List Value) (pos : Pos)
  | enter (nested : Nat) (fn : Function) (args : List Value) (pos : Pos)

namespace Job

/-- What a job gives. -/
abbrev Result : Job → Type
  | eval .. => Value
  | evalAll .. => List Value
  | exec .. => Option Value
  | execAll .. => Option Value
  | call .. => Value
  | enter .. => Value

/-- The number of functions that are being carried out. -/
def nested : Job → Nat
  | eval k _ _ => k
  | evalAll k _ _ => k
  | exec k _ _ _ => k
  | execAll k _ _ _ => k
  | call k _ _ _ => k
  | enter k _ _ _ => k

/-- Tells whether a job is a call by name. -/
def isCall : Job → Bool
  | call .. => true
  | _ => false

/-- Tells whether a job is to carry out a function of the program. -/
def isEnter : Job → Bool
  | enter .. => true
  | _ => false

end Job

/-- A way to do all jobs. -/
abbrev Doing := (job : Job) → Run job.Result

namespace Doing

/-- The calls by name while so many functions are being carried out. -/
def calls (go : Doing) (k : Nat) : Invoke := fun name args pos => go (.call k name args pos)

/-- The calls of functions of the program while so many are being carried out. -/
def enters (go : Doing) (k : Nat) : Enter := fun fn args pos => go (.enter k fn args pos)

/-- A way to do only the calls by name. -/
def ofCalls (call : Invoke) : Doing
  | .call _ name args pos => call name args pos
  | _ => fail (.tooDeep "" .start)

open Classical in
/-- The same way to do all jobs, but one that fails on one work. -/
noncomputable def failing (go : Doing) (point : Job × Work) (f : Fault) : Doing := fun job w =>
  if (job, w) = point then .error f else go job w

end Doing

section Rules

variable (env : Env) (limit : Nat) (go : Doing)

/-- How an expression is evaluated. -/
def evalRule (k : Nat) (scope : Scope) : Expr → Run Value
  | .name id _ => resolve env scope id
  | .int n _ => pure (.number n)
  | .field base key pos =>
    if (Expr.field base key pos).isEveryPlayer then pure (.pile (.everyPlayer key))
    else do
      let v ← go (.eval k scope base)
      select env v key pos
  | .call fn args pos => do
    let vs ← go (.evalAll k scope args)
    go (.call k fn vs pos)
  | .compare left right negate pos => do
    let a ← go (.eval k scope left)
    let b ← go (.eval k scope right)
    let same ← equal a b pos
    pure (.bool (same != negate))
  | .join op left right _ => do
    let v ← go (.eval k scope left)
    let a ← truth op.sign v left.pos
    if decides op a then pure (.bool a)
    else do
      let v ← go (.eval k scope right)
      let b ← truth op.sign v right.pos
      pure (.bool b)
  | .not operand _ => do
    let v ← go (.eval k scope operand)
    let b ← truth "not" v operand.pos
    pure (.bool !b)

/-- How a statement is carried out. -/
def execRule (k : Nat) (fn : String) (scope : Scope) : Stmt → Run (Option Value)
  | .transfer source target amount pos => do
    transfer (fun e => go (.eval k scope e)) (go.calls k) fn source target amount pos
    pure none
  | .check condition pos => do
    let v ← go (.eval k scope condition)
    let holds ← truth "check" v pos
    if holds then pure none
    else fail (.rejected ⟨fn, "check failed: " ++ condition.text, pos⟩)
  | .ret none _ => pure (some .empty)
  | .ret (some value) _ => do
    let v ← go (.eval k scope value)
    pure (some v)
  | .call name args callPos _ => do
    let _ ← go (.eval k scope (.call name args callPos))
    pure none
  | .when condition body _ => do
    let v ← go (.eval k scope condition)
    let holds ← truth "if" v condition.pos
    if holds then go (.execAll k fn scope body) else pure none

/-- How a function of the program is carried out: it is one more. -/
def enterRule (k : Nat) (fn : Function) (args : List Value) (pos : Pos) : Run Value := do
  checkArity fn args pos
  if limit < k + 1 then fail (.tooDeep fn.name pos)
  else do
    let t ← table
    let result ← go (.execAll (k + 1) fn.name (env.context.scope fn.params args t) fn.body)
    pure (result.getD .empty)

/-- How a job is done if others are done in a given way. -/
def rules : Doing
  | .eval k scope e => evalRule env go k scope e
  | .evalAll _ _ [] => pure []
  | .evalAll k scope (e :: es) => do
    let v ← go (.eval k scope e)
    let vs ← go (.evalAll k scope es)
    pure (v :: vs)
  | .exec k fn scope s => execRule go k fn scope s
  | .execAll _ _ _ [] => pure none
  | .execAll k fn scope (s :: ss) => do
    let result ← go (.exec k fn scope s)
    match result with
    | some v => pure (some v)
    | none => go (.execAll k fn scope ss)
  -- what a built-in function calls back is called like anything else
  | .call k name args pos => dispatch env (go.enters k) (go.calls k) name args pos
  | .enter k fn args pos => enterRule env limit go k fn args pos

end Rules

/-- How the evaluator does all jobs. -/
def evaluator (env : Env) (limit : Nat) : Doing
  | .eval k scope e => eval env (env.call (limit - k)) scope e
  | .evalAll k scope es => evalAll env (env.call (limit - k)) scope es
  | .exec k fn scope s => exec env (env.call (limit - k)) fn scope s
  | .execAll k fn scope ss => execAll env (env.call (limit - k)) fn scope ss
  | .call k name args pos => env.call (limit - k) name args pos
  | .enter k fn args pos => enter env (limit - k) fn args pos

section RestsOn

variable {α β : Type} {good : Job → Prop} {go : Doing} {w : Work} {point : Job × Work} {f : Fault}

/-- The one job fails on the one work. -/
lemma Doing.failing_self {job : Job} : go.failing (job, w) f job w = .error f := if_pos rfl

/-- At any other point nothing is different. -/
lemma Doing.failing_of_ne {other : Job × Work} (h : other ≠ point) :
    go.failing point f other.1 other.2 = go other.1 other.2 := if_neg h

/-- Where a run comes to a job on a work, it fails if the job fails there. -/
def Asks (m : Doing → Run α) (go : Doing) (w : Work) (point : Job × Work) : Prop :=
  ∀ f, m (go.failing point f) w = .error f

/-- A run asks for finitely many jobs, all of them good, and does the same however the others are done. -/
def RestsOn (good : Job → Prop) (m : Doing → Run α) : Prop :=
  ∀ go w, ∃ asked : List (Job × Work), (∀ q ∈ asked, good q.1 ∧ Asks m go w q) ∧
    ∀ go' : Doing, (∀ q ∈ asked, go' q.1 q.2 = go q.1 q.2) → m go' w = m go w

namespace RestsOn

variable {m : Doing → Run α}

/-- A run that has no use for jobs rests on none. -/
lemma const {run : Run α} : RestsOn good fun _ => run :=
  fun _ _ => ⟨[], List.forall_mem_nil _, fun _ _ => rfl⟩

/-- A job rests on itself. -/
lemma job {job : Job} (h : good job) : RestsOn good fun go => go job := by
  intro go w
  refine ⟨[(job, w)], List.forall_mem_singleton.mpr ⟨h, fun f => Doing.failing_self⟩, ?_⟩
  exact fun go' hgo' => hgo' _ List.mem_cons_self

/-- What rests on good jobs rests on those that are good in a wider sense. -/
lemma weaken {good' : Job → Prop} (h : RestsOn good m) (hgood : ∀ job, good job → good' job) : RestsOn good' m := by
  intro go w
  obtain ⟨asked, hasked, hsame⟩ := h go w
  exact ⟨asked, fun q hq => ⟨hgood _ (hasked q hq).1, (hasked q hq).2⟩, hsame⟩

/-- A sequence asks for what its first part asks for, and then for what its second part does. -/
lemma bind {k : α → Doing → Run β} (hm : RestsOn good m) (hk : ∀ a, RestsOn good (k a)) :
    RestsOn good fun go => m go >>= fun a => k a go := by
  intro go w
  obtain ⟨asked, hasked, hsame⟩ := hm go w
  have hfirst : ∀ q, Asks m go w q → Asks (fun go => m go >>= fun a => k a go) go w q :=
    fun q hq f => bind_of_error (hq f)
  cases hr : m go w with
  | error e =>
    refine ⟨asked, fun q hq => ⟨(hasked q hq).1, hfirst q (hasked q hq).2⟩, fun go' hgo' => ?_⟩
    exact (bind_of_error ((hsame go' hgo').trans hr)).trans (bind_of_error hr).symm
  | ok r =>
    obtain ⟨a, w'⟩ := r
    obtain ⟨asked', hasked', hsame'⟩ := hk a go w'
    refine ⟨asked ++ asked', ?_, fun go' hgo' => ?_⟩
    · rw [List.forall_mem_append]
      refine ⟨fun q hq => ⟨(hasked q hq).1, hfirst q (hasked q hq).2⟩, fun q hq => ⟨(hasked' q hq).1, ?_⟩⟩
      by_cases hmem : q ∈ asked
      · exact hfirst q (hasked q hmem).2
      · -- a job that the first part does not ask for may fail without the first part noticing
        intro f
        have hunnoticed : m (go.failing q f) w = .ok (a, w') :=
          (hsame _ fun q' hq' => Doing.failing_of_ne (ne_of_mem_of_not_mem hq' hmem)).trans hr
        exact (bind_of_ok hunnoticed).trans ((hasked' q hq).2 f)
    · obtain ⟨hgo, hgo'⟩ := List.forall_mem_append.mp hgo'
      show (m go' >>= fun a => k a go') w = (m go >>= fun a => k a go) w
      rw [bind_of_ok hr, bind_of_ok ((hsame go' hgo).trans hr)]
      exact hsame' go' hgo'

/-- A run does the same if all good jobs are done in the same way. -/
lemma congr {go' : Doing} (h : RestsOn good m) (hgo : ∀ job, good job → go' job = go job) : m go' = m go := by
  funext w
  obtain ⟨asked, hasked, hsame⟩ := h go w
  exact hsame go' fun q hq => congrFun (hgo q.1 (hasked q hq).1) q.2

/-- The jobs that a run asks for are finitely many and good, and nothing else matters to it. -/
lemma exists_asked (h : RestsOn good m) (go : Doing) (w : Work) : ∃ asked : List (Job × Work), (∀ q ∈ asked, good q.1) ∧
    (∀ q, Asks m go w q ↔ q ∈ asked) ∧
    ∀ go' : Doing, (∀ q ∈ asked, go' q.1 q.2 = go q.1 q.2) → m go' w = m go w := by
  obtain ⟨asked, hasked, hsame⟩ := h go w
  refine ⟨asked, fun q hq => (hasked q hq).1, fun q => ⟨fun hq => ?_, fun hq => (hasked q hq).2⟩, hsame⟩
  by_contra hmem
  have hunnoticed : ∀ f, m (go.failing q f) w = m go w :=
    fun f => hsame _ fun q' hq' => Doing.failing_of_ne (ne_of_mem_of_not_mem hq' hmem)
  have hfault : ∀ f, m go w = .error f := fun f => (hunnoticed f).symm.trans (hq f)
  cases (hfault (.tooDeep "" .start)).symm.trans (hfault (.unknownFunction "" .start none))

end RestsOn

/-- Tells whether there is the name of a function among some values. -/
def namesFunction (args : List Value) : Bool := args.any Value.isFunction

/-- What a built-in function with some arguments may call back: it is given the name of a function, and calls it with
arguments among which there is none. -/
def CalledBack (k : Nat) (args : List Value) (job : Job) : Prop :=
  namesFunction args = true ∧ ∃ name args' pos, namesFunction args' = false ∧ job = .call k name args' pos

variable {k : Nat} {args : List Value} {pos : Pos}

/-- To find the cards that an argument stands for rests on calls back. -/
lemma cardsOf_restsOn {op : String} {v : Value} (hv : v ∈ args) :
    RestsOn (CalledBack k args) fun go => cardsOf (go.calls k) op v pos := by
  cases v with
  | function name =>
    have hback : CalledBack k args (.call k name [] pos) :=
      ⟨List.any_eq_true.mpr ⟨_, hv, rfl⟩, name, [], pos, rfl, rfl⟩
    exact .bind (.job hback) fun result => .const
  | _ => exact .const

end RestsOn

end Run

namespace Builtin

open Run

variable {k : Nat} {args : List Value} {pos : Pos}

/-- To keep the cards that a predicate holds of rests on calls back. -/
lemma keep_restsOn {predicate : String} (h : .function predicate ∈ args) {cs : List Card} :
    RestsOn (CalledBack k args) fun go => keep (go.calls k) predicate pos cs := by
  induction cs with
  | nil => exact .const
  | cons c cs ih =>
    have hback : CalledBack k args (.call k predicate [.card c] pos) :=
      ⟨List.any_eq_true.mpr ⟨_, h, rfl⟩, predicate, [.card c], pos, rfl, rfl⟩
    refine .bind (.job hback) fun v => ?_
    cases v with
    | bool keeps => exact .bind ih fun rest => .const
    | _ => exact .const

/-- A built-in function calls back only what it is given by name, and gives no names in its turn. -/
lemma call_restsOn {b : Builtin} : RestsOn (CalledBack k args) fun go => b.call (go.calls k) args pos := by
  unfold Builtin.call
  split
  · exact .const
  · next source predicate =>
    refine .bind (cardsOf_restsOn List.mem_cons_self) fun cs => ?_
    cases predicate with
    | function p => exact .bind (keep_restsOn (List.mem_cons_of_mem _ List.mem_cons_self)) fun kept => .const
    | _ => exact .const
  · exact .bind (cardsOf_restsOn List.mem_cons_self) fun cs => .const
  · next v stack =>
    cases stack with
    | pile r =>
      refine .bind .const fun place => ?_
      exact .bind (cardsOf_restsOn List.mem_cons_self) fun cs => .const
    | _ => exact .const
  · exact .bind (cardsOf_restsOn List.mem_cons_self) fun cs => .const
  · exact .const
  · exact .const
  · exact .const
  · exact .const
  · exact .bind (cardsOf_restsOn List.mem_cons_self) fun cs => .const
  · exact .const
  · exact .const

/-- A built-in function does the same if calls without the names of functions are carried out alike. -/
lemma call_congr {call call' : Invoke} {b : Builtin}
    (h : namesFunction args = true → ∀ name args' pos, namesFunction args' = false →
      call' name args' pos = call name args' pos) : b.call call' args pos = b.call call args pos := by
  have hgood : ∀ job, CalledBack 0 args job → Doing.ofCalls call' job = Doing.ofCalls call job := by
    rintro _ ⟨hargs, name, args', pos, hargs', rfl⟩
    exact h hargs name args' pos hargs'
  exact (call_restsOn (b := b)).congr hgood

end Builtin

namespace Run

variable {env : Env} {limit : Nat}

/-- Without the names of functions among the arguments, what is called back does not matter. -/
lemma dispatch_congr {enter : Enter} {refer refer' : Invoke} {name : String} {args : List Value} {pos : Pos}
    (h : namesFunction args = true → ∀ name args' pos, namesFunction args' = false →
      refer' name args' pos = refer name args' pos) :
    dispatch env enter refer' name args pos = dispatch env enter refer name args pos := by
  unfold dispatch
  split
  · rfl
  · rw [Builtin.call_congr h]
  · rw [Builtin.call_congr h]
  · rfl

/-- Calls back are calls: that the evaluator cuts them off after the first makes no difference. -/
lemma call_eq_dispatch (depth : Nat) (name : String) (args : List Value) (pos : Pos) :
    env.call depth name args pos = dispatch env (enter env depth) (env.call depth) name args pos := by
  have hback : ∀ name args' pos, namesFunction args' = false →
      env.call depth name args' pos = env.callback depth name args' pos := by
    intro name args' pos hargs'
    exact dispatch_congr fun h => absurd (h.symm.trans hargs') Bool.noConfusion
  exact (dispatch_congr fun _ => hback).symm

/-- The evaluator obeys the rules. -/
lemma rules_evaluator : rules env limit (evaluator env limit) = evaluator env limit := by
  funext job
  cases job with
  | eval k scope e =>
    show evalRule env (evaluator env limit) k scope e = eval env (env.call (limit - k)) scope e
    cases e <;> rw [eval] <;> rfl
  | evalAll k scope es =>
    show rules env limit (evaluator env limit) (.evalAll k scope es) = evalAll env (env.call (limit - k)) scope es
    cases es <;> rw [evalAll] <;> rfl
  | exec k fn scope s =>
    show execRule (evaluator env limit) k fn scope s = exec env (env.call (limit - k)) fn scope s
    cases s with
    | ret value pos => cases value <;> rw [exec] <;> rfl
    | _ => rw [exec]; rfl
  | execAll k fn scope ss =>
    show rules env limit (evaluator env limit) (.execAll k fn scope ss) =
      execAll env (env.call (limit - k)) fn scope ss
    cases ss with
    | nil => rw [execAll]; rfl
    | cons s ss =>
      rw [execAll]
      exact bind_congr fun result => by cases result <;> rfl
  | call k name args pos => exact (call_eq_dispatch (limit - k) name args pos).symm
  | enter k fn args pos =>
    show enterRule env limit (evaluator env limit) k fn args pos = enter env (limit - k) fn args pos
    unfold enterRule
    by_cases hk : limit < k + 1
    · have hzero : limit - k = 0 := by omega
      simp only [hk, if_true, hzero]
      rfl
    · have hsucc : limit - k = limit - (k + 1) + 1 := by omega
      simp only [hk, if_false, hsucc]
      rfl

end Run

end Croupier
