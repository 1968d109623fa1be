import Mathlib.Data.Prod.Lex
import Mathlib.Order.WellFounded
import Mathlib.Data.List.Chain
import Mathlib.Data.Set.Finite.List
import Croupier.Proofs.Run.Rules

/-!
# Evaluation ends

What a job can ask for is said once (`Follows`): something within an expression or a statement asks for smaller parts
and for calls, a call for a call back or for the function of the program that its name means, and a function for its
body, unless too many are being carried out. All rules rest on such jobs (`rules_restsOn`). From one job to the next
falls the number of functions that may still be carried out, or else the kind of the job, or else the size of what it is
about (`Follows.lower`); so evaluation ends, and what it comes to is the one way to obey the rules (`eq_evaluator`),
which the rules reach when they are unrolled far enough (`exists_rounds`).
-/

namespace Croupier

namespace Run

namespace Job

/-- Tells whether a job is about something within an expression or a statement. -/
def isInner : Job → Bool
  | call .. | enter .. => false
  | _ => true

/-- The size of what a job is about. -/
noncomputable def size : Job → Nat
  | eval _ _ e => sizeOf e
  | evalAll _ _ es => sizeOf es
  | exec _ _ _ s => sizeOf s
  | execAll _ _ _ ss => sizeOf ss
  | call .. => 0
  | enter .. => 0

/-- The kinds of jobs by their order. A call with the names of functions comes before one without, which calls nothing
back. -/
def kind : Job → Nat
  | call _ _ args _ => if namesFunction args then 2 else 1
  | enter .. => 0
  | _ => 3

/-- The rank of a job: how many functions may still be carried out, then its kind, then the size of what it is about. -/
noncomputable def rank (limit : Nat) (job : Job) : ℕ ×ₗ ℕ ×ₗ ℕ := toLex (limit - job.nested, toLex (job.kind, job.size))

/-- All jobs within an expression or a statement are of one kind. -/
lemma kind_of_isInner {job : Job} (h : job.isInner = true) : job.kind = 3 := by
  cases job with
  | call k name args pos => cases h
  | enter k fn args pos => cases h
  | _ => rfl

/-- Calls come after the jobs within expressions and statements. -/
lemma kind_call_lt (k : Nat) (name : String) (args : List Value) (pos : Pos) : (call k name args pos).kind < 3 := by
  simp only [kind]
  split <;> omega

/-- Calls come before the functions that they are of. -/
lemma kind_call_pos (k : Nat) (name : String) (args : List Value) (pos : Pos) : 0 < (call k name args pos).kind := by
  simp only [kind]
  split <;> omega

end Job

/-- The jobs that a job can ask for. -/
inductive Follows (limit : Nat) : Job → Job → Prop where
  | part {job next : Job} : job.isInner = true → next.isInner = true → next.nested = job.nested →
    next.size < job.size → Follows limit job next
  | call {job name args pos} : job.isInner = true → Follows limit job (.call job.nested name args pos)
  | callback {k name args pos name' args' pos'} : namesFunction args = true → namesFunction args' = false →
    Follows limit (.call k name args pos) (.call k name' args' pos')
  | own {k name args pos fn} : Follows limit (.call k name args pos) (.enter k fn args pos)
  | body {k fn args pos scope} : k < limit →
    Follows limit (.enter k fn args pos) (.execAll (k + 1) fn.name scope fn.body)

namespace Follows

variable {limit : Nat} {job next : Job}

/-- From one job to the next the rank falls. -/
lemma lower (h : Follows limit job next) : next.rank limit < job.rank limit := by
  simp only [Job.rank, Prod.Lex.toLex_lt_toLex]
  cases h with
  | part hjob hnext hnested hsize =>
    right
    exact ⟨by rw [hnested], .inr ⟨by rw [Job.kind_of_isInner hjob, Job.kind_of_isInner hnext], hsize⟩⟩
  | call hjob =>
    right
    rw [Job.kind_of_isInner hjob]
    exact ⟨rfl, .inl (Job.kind_call_lt ..)⟩
  | callback hargs hargs' =>
    right
    exact ⟨rfl, .inl (by simp [Job.kind, hargs, hargs'])⟩
  | own =>
    right
    exact ⟨rfl, .inl (Job.kind_call_pos ..)⟩
  | body hk =>
    left
    simp only [Job.nested]
    omega

/-- One function more is being carried out only within a function. -/
lemma nested_eq (h : Follows limit job next) : next.nested = job.nested + if job.isEnter then 1 else 0 := by
  cases h with
  | part hjob hnext hnested hsize =>
    cases job with
    | enter k fn args pos => cases hjob
    | _ => exact hnested
  | call hjob =>
    cases job with
    | enter k fn args pos => cases hjob
    | _ => rfl
  | _ => rfl

/-- No more functions are being carried out than may be. -/
lemma nested_le (h : Follows limit job next) (hjob : job.nested ≤ limit) : next.nested ≤ limit := by
  cases h with
  | part _ _ hnested _ => exact hnested.trans_le hjob
  | body hk => exact hk
  | _ => exact hjob

/-- A call asks for a function of the program, or else it has the name of a function among its arguments and calls back
with none among them. -/
lemma of_isCall (h : Follows limit job next) (hjob : job.isCall = true) :
    next.isEnter = true ∨ next.isCall = true ∧ job.kind = 2 ∧ next.kind = 1 := by
  cases h with
  | part hinner =>
    cases job with
    | call k name args pos => cases hinner
    | _ => cases hjob
  | call hinner =>
    cases job with
    | call k name args pos => cases hinner
    | _ => cases hjob
  | callback hargs hargs' => exact .inr ⟨rfl, by simp [Job.kind, hargs], by simp [Job.kind, hargs']⟩
  | own => exact .inl rfl
  | body => cases hjob

end Follows

section RulesRestOn

variable {env : Env} {limit k : Nat} {scope : Scope} {fn : String} {pos : Pos}

/-- To evaluate an expression rests on the jobs that can follow. -/
lemma evalRule_restsOn {e : Expr} :
    RestsOn (Follows limit (.eval k scope e)) fun go => evalRule env go k scope e := by
  have hpart : ∀ part : Expr, sizeOf part < sizeOf e → Follows limit (.eval k scope e) (.eval k scope part) :=
    fun part hsize => .part rfl rfl rfl hsize
  cases e with
  | name id pos => exact .const
  | int n pos => exact .const
  | field base key pos =>
    simp only [evalRule]
    split
    · exact .const
    · apply RestsOn.bind (.job (hpart base ?_)) fun v => .const
      simp only [Expr.field.sizeOf_spec]
      omega
  | call fn args pos =>
    have hsize := Expr.call.sizeOf_spec fn args pos
    have hargs : Follows limit (.eval k scope (.call fn args pos)) (.evalAll k scope args) :=
      .part rfl rfl rfl (by simp only [Job.size]; omega)
    exact .bind (.job hargs) fun vs => .job (.call rfl)
  | compare left right negate pos =>
    have hsize := Expr.compare.sizeOf_spec left right negate pos
    apply RestsOn.bind (.job (hpart left (by omega)))
    intro a
    exact .bind (.job (hpart right (by omega))) fun b => .const
  | join op left right pos =>
    have hsize := Expr.join.sizeOf_spec op left right pos
    apply RestsOn.bind (.job (hpart left (by omega)))
    intro v
    apply RestsOn.bind .const
    intro a
    split
    · exact .const
    · exact .bind (.job (hpart right (by omega))) fun b => .const
  | not operand pos =>
    have hsize := Expr.not.sizeOf_spec operand pos
    exact .bind (.job (hpart operand (by omega))) fun v => .const

/-- A transfer asks for the values of its parts and, if these cards are those of a function, for a call. -/
lemma transfer_restsOn {good : Job → Prop} {source target : Expr} {amount : Amount}
    (hsource : good (.eval k scope source)) (htarget : good (.eval k scope target))
    (hcards : ∀ e, amount = .these e → good (.eval k scope e))
    (hcall : ∀ name args pos, good (.call k name args pos)) :
    RestsOn good fun go => transfer (fun e => go (.eval k scope e)) (go.calls k) fn source target amount pos := by
  have hmove : ∀ r place targetRef, RestsOn good fun go => moveTo (fun e => go (.eval k scope e)) (go.calls k) fn r
      place targetRef target.pos amount pos := by
    intro r place targetRef
    apply RestsOn.bind .const
    intro place'
    cases amount with
    | these e =>
      apply RestsOn.bind (.job (hcards e rfl))
      intro v
      have hset : RestsOn good fun go => cardsOf (go.calls k) "transfer subset" v e.pos := by
        apply (cardsOf_restsOn (List.mem_singleton_self v)).weaken
        rintro job ⟨_, name, args, pos, _, rfl⟩
        exact hcall name args pos
      exact .bind hset fun cs => .const
    | _ => exact .const
  apply RestsOn.bind (.job hsource)
  intro v
  apply RestsOn.bind .const
  intro sourceRef
  apply RestsOn.bind (.job htarget)
  intro v'
  apply RestsOn.bind .const
  intro targetRef
  apply RestsOn.bind .const
  intro place
  cases targetRef with
  | everyPlayer name => exact .const
  | shared name => exact hmove sourceRef place (.shared name)
  | ofPlayer id name => exact hmove sourceRef place (.ofPlayer id name)

/-- To carry out a statement rests on the jobs that can follow. -/
lemma execRule_restsOn {s : Stmt} :
    RestsOn (Follows limit (.exec k fn scope s)) fun go => execRule go k fn scope s := by
  have hpart : ∀ e : Expr, sizeOf e < sizeOf s → Follows limit (.exec k fn scope s) (.eval k scope e) :=
    fun e hsize => .part rfl rfl rfl hsize
  cases s with
  | transfer source target amount pos =>
    have hsize := Stmt.transfer.sizeOf_spec source target amount pos
    apply RestsOn.bind
    · apply transfer_restsOn (hpart source (by omega)) (hpart target (by omega))
      · rintro e rfl
        exact hpart e (by simp only [Amount.these.sizeOf_spec] at hsize; omega)
      · exact fun name args pos => .call rfl
    · exact fun _ => .const
  | check condition pos =>
    have hsize := Stmt.check.sizeOf_spec condition pos
    exact .bind (.job (hpart condition (by omega))) fun v => .const
  | ret value pos =>
    cases value with
    | none => exact .const
    | some value =>
      have hsize := Stmt.ret.sizeOf_spec (some value) pos
      rw [Option.some.sizeOf_spec] at hsize
      exact .bind (.job (hpart value (by omega))) fun v => .const
  | call name args callPos pos =>
    apply RestsOn.bind (.job (hpart (.call name args callPos) ?_)) fun _ => .const
    simp only [Expr.call.sizeOf_spec, Stmt.call.sizeOf_spec]
    have hpos : 0 < sizeOf pos := by
      rw [Pos.mk.sizeOf_spec]
      omega
    omega
  | when condition body pos =>
    have hsize := Stmt.when.sizeOf_spec condition body pos
    apply RestsOn.bind (.job (hpart condition (by omega)))
    intro v
    apply RestsOn.bind .const
    intro holds
    split
    · exact .job (.part rfl rfl rfl (by simp only [Job.size]; omega))
    · exact .const

/-- All rules rest on the jobs that can follow. -/
lemma rules_restsOn (env : Env) (limit : Nat) (job : Job) :
    RestsOn (Follows limit job) fun go => rules env limit go job := by
  cases job with
  | eval k scope e => exact evalRule_restsOn
  | evalAll k scope es =>
    cases es with
    | nil => exact .const
    | cons e es =>
      have hsize := List.cons.sizeOf_spec e es
      apply RestsOn.bind (.job (.part rfl rfl rfl (by simp only [Job.size]; omega)))
      intro v
      exact .bind (.job (.part rfl rfl rfl (by simp only [Job.size]; omega))) fun vs => .const
  | exec k fn scope s => exact execRule_restsOn
  | execAll k fn scope ss =>
    cases ss with
    | nil => exact .const
    | cons s ss =>
      have hsize := List.cons.sizeOf_spec s ss
      apply RestsOn.bind (.job (.part rfl rfl rfl (by simp only [Job.size]; omega)))
      intro result
      cases result with
      | some v => exact .const
      | none => exact .job (.part rfl rfl rfl (by simp only [Job.size]; omega))
  | call k name args pos =>
    have hbuiltin : ∀ b : Builtin, RestsOn (Follows limit (.call k name args pos)) fun go =>
        b.call (go.calls k) args pos := by
      intro b
      apply Builtin.call_restsOn.weaken
      rintro job ⟨hargs, name', args', pos', hargs', rfl⟩
      exact .callback hargs hargs'
    simp only [rules, dispatch]
    split
    · exact .job .own
    · split
      · exact hbuiltin _
      · exact .job .own
    · exact hbuiltin _
    · exact .const
  | enter k fn args pos =>
    apply RestsOn.bind .const
    intro _
    split
    · exact .const
    · next hk =>
      apply RestsOn.bind .const
      intro t
      exact .bind (.job (.body (by omega))) fun result => .const

end RulesRestOn

/-- At one point of an evaluation another is asked for. -/
def AsksFor (env : Env) (limit : Nat) (a b : Job × Work) : Prop :=
  Asks (fun go => rules env limit go a.1) (evaluator env limit) a.2 b

/-- The rules applied so many times, after which jobs are done in any way. -/
def unrolled (env : Env) (limit : Nat) (rest : Doing) : Nat → Doing
  | 0 => rest
  | n + 1 => rules env limit (unrolled env limit rest n)

variable {env : Env} {limit : Nat} {a b : Job × Work}

/-- What is asked for is finite and can follow, and it alone decides what happens. -/
lemma exists_asksFor (env : Env) (limit : Nat) (a : Job × Work) : ∃ asked : List (Job × Work),
    (∀ q, AsksFor env limit a q ↔ q ∈ asked) ∧ (∀ q ∈ asked, Follows limit a.1 q.1) ∧
    ∀ go : Doing, (∀ q ∈ asked, go q.1 q.2 = evaluator env limit q.1 q.2) →
      rules env limit go a.1 a.2 = evaluator env limit a.1 a.2 := by
  obtain ⟨asked, hfollows, hasked, hsame⟩ := (rules_restsOn env limit a.1).exists_asked (evaluator env limit) a.2
  refine ⟨asked, hasked, hfollows, fun go hgo => ?_⟩
  have hrules := hsame go hgo
  rwa [rules_evaluator] at hrules

/-- What is asked for can follow. -/
lemma AsksFor.follows (h : AsksFor env limit a b) : Follows limit a.1 b.1 := by
  obtain ⟨asked, hasked, hfollows, _⟩ := exists_asksFor env limit a
  exact hfollows b ((hasked b).mp h)

/-- Ranks do not fall for ever. -/
lemma wellFounded_rank (limit : Nat) : WellFounded fun job next : Job => job.rank limit < next.rank limit :=
  InvImage.wf (Job.rank limit) wellFounded_lt

/-- There is no endless chain of points each of which asks for the next. -/
lemma wellFounded_asksFor (env : Env) (limit : Nat) : WellFounded fun b a => AsksFor env limit a b :=
  Subrelation.wf (fun h => h.follows.lower) (InvImage.wf Prod.fst (wellFounded_rank limit))

/-- There is one way to obey the rules. -/
lemma eq_evaluator {go : Doing} (h : rules env limit go = go) : go = evaluator env limit := by
  funext job
  induction job using (wellFounded_rank limit).induction with
  | _ job ih =>
    calc go job = rules env limit go job := (congrFun h job).symm
      _ = rules env limit (evaluator env limit) job :=
        (rules_restsOn env limit job).congr fun next hnext => ih next hnext.lower
      _ = evaluator env limit job := congrFun rules_evaluator job

/-- A number of rounds that is enough for each of some points is enough for all of them. -/
lemma exists_rounds_forall {P : Nat → Job × Work → Prop} {points : List (Job × Work)}
    (h : ∀ q ∈ points, ∃ rounds, ∀ n ≥ rounds, P n q) : ∃ rounds, ∀ n ≥ rounds, ∀ q ∈ points, P n q := by
  induction points with
  | nil => exact ⟨0, fun n _ => List.forall_mem_nil _⟩
  | cons q points ih =>
    obtain ⟨hq, hpoints⟩ := List.forall_mem_cons.mp h
    obtain ⟨rounds, hrounds⟩ := hq
    obtain ⟨rounds', hrounds'⟩ := ih hpoints
    refine ⟨max rounds rounds', fun n hn => List.forall_mem_cons.mpr ?_⟩
    exact ⟨hrounds n (le_of_max_le_left hn), hrounds' n (le_of_max_le_right hn)⟩

/-- Unrolled far enough, the rules do a job as the evaluator does it, whatever stands beyond. -/
lemma exists_rounds (env : Env) (limit : Nat) (a : Job × Work) :
    ∃ rounds, ∀ n ≥ rounds, ∀ rest, unrolled env limit rest n a.1 a.2 = evaluator env limit a.1 a.2 := by
  induction a using (wellFounded_asksFor env limit).induction with
  | _ a ih =>
    obtain ⟨asked, hasked, _, hsame⟩ := exists_asksFor env limit a
    obtain ⟨rounds, hrounds⟩ := exists_rounds_forall fun q hq => ih q ((hasked q).mpr hq)
    refine ⟨rounds + 1, fun n hn rest => ?_⟩
    cases n with
    | zero => exact absurd hn (Nat.not_succ_le_zero rounds)
    | succ n => exact hsame _ fun q hq => hrounds n (Nat.le_of_succ_le_succ hn) q hq rest

/-- The functions within which the last point of a chain lies are no more than may be carried out. -/
lemma countP_isEnter_le {path : List (Job × Work)} (h : List.IsChain (AsksFor env limit) (a :: path))
    (ha : a.1.nested ≤ limit) : (a :: path).dropLast.countP (·.1.isEnter) + a.1.nested ≤ limit := by
  induction path generalizing a with
  | nil => simpa using ha
  | cons b path ih =>
    obtain ⟨hab, hchain⟩ := List.isChain_cons_cons.mp h
    have hrest := ih hchain (hab.follows.nested_le ha)
    rw [hab.follows.nested_eq] at hrest
    rw [List.dropLast_cons_cons, List.countP_cons]
    omega

/-- A chain of calls that comes to no function of the program has a call and a call back. -/
lemma length_le_of_isCall {path : List (Job × Work)} (h : List.IsChain (AsksFor env limit) (a :: path))
    (ha : a.1.isCall = true) (hpath : ∀ q ∈ path, q.1.isEnter = false) : path.length ≤ 1 := by
  match path with
  | [] => exact Nat.zero_le 1
  | [b] => exact le_rfl
  | b :: c :: path =>
    obtain ⟨hab, hchain⟩ := List.isChain_cons_cons.mp h
    obtain ⟨hbc, _⟩ := List.isChain_cons_cons.mp hchain
    have hb : b.1.isEnter = false := hpath b List.mem_cons_self
    have hc : c.1.isEnter = false := hpath c (List.mem_cons_of_mem _ List.mem_cons_self)
    -- the second call is a call back, so it has no names of functions to call back in its turn
    rcases hab.follows.of_isCall ha with henter | ⟨hcall, _, hkind⟩
    · cases hb.symm.trans henter
    · rcases hbc.follows.of_isCall hcall with henter | ⟨_, hkind', _⟩
      · cases hc.symm.trans henter
      · cases hkind.symm.trans hkind'

/-- Why evaluation ends, however many functions may be carried out at a time. -/
structure EvaluationEnds (env : Env) (limit : Nat) : Prop where
  /-- The evaluator is the one way to obey the rules. -/
  only : ∀ go : Doing, rules env limit go = go ↔ go = evaluator env limit
  /-- Unrolled far enough, the rules give what the evaluator gives, whatever stands beyond. -/
  rounds : ∀ a : Job × Work, ∃ rounds, ∀ n ≥ rounds, ∀ rest,
    unrolled env limit rest n a.1 a.2 = evaluator env limit a.1 a.2
  /-- Finitely many points are asked for at a point, -/
  finite : ∀ a, {b | AsksFor env limit a b}.Finite
  /-- and they alone decide what happens there. -/
  decided : ∀ a (go : Doing), (∀ b, AsksFor env limit a b → go b.1 b.2 = evaluator env limit b.1 b.2) →
    rules env limit go a.1 a.2 = evaluator env limit a.1 a.2
  /-- Fewer functions may still be carried out at a point that is asked for, or its kind is lower, or it is about
  something smaller. -/
  lower : ∀ a b, AsksFor env limit a b → b.1.rank limit < a.1.rank limit
  wellFounded : WellFounded fun b a => AsksFor env limit a b
  /-- Where nothing has been entered at first, each of a chain of points lies within no more functions than may be
  carried out. -/
  nested : ∀ a path, a.1.nested = 0 → List.IsChain (AsksFor env limit) (a :: path) →
    (a :: path).dropLast.countP (·.1.isEnter) ≤ limit
  /-- A call that leads to no function of the program calls back once at most. -/
  callbacks : ∀ a path, a.1.isCall = true → List.IsChain (AsksFor env limit) (a :: path) →
    (∀ b ∈ path, b.1.isEnter = false) → (a :: path).length ≤ 2

/-- The execution of a function when jobs are done in a given way. -/
def Doing.execute (go : Doing) (fn : Function) (t : Table) (ctx : Context) : Except Fault Outcome := do
  let args ← Program.executionArgs fn ctx t
  match go (.enter 0 fn args fn.pos) ⟨t, none⟩ with
  | .ok (value, work) => .ok (.committed work.table value work.moves)
  | .error (.rejected r) => .ok (.rejected r)
  | .error f => .error f

/-- Evaluation ends, by induction along what is asked for. -/
lemma evaluationEnds (env : Env) (limit : Nat) : EvaluationEnds env limit where
  only go := ⟨eq_evaluator, by rintro rfl; exact rules_evaluator⟩
  rounds := exists_rounds env limit
  finite a := by
    obtain ⟨asked, hasked, _, _⟩ := exists_asksFor env limit a
    exact asked.finite_toSet.subset fun b hb => (hasked b).mp hb
  decided a go hgo := by
    obtain ⟨asked, hasked, _, hsame⟩ := exists_asksFor env limit a
    exact hsame go fun b hb => hgo b ((hasked b).mpr hb)
  lower a b h := h.follows.lower
  wellFounded := wellFounded_asksFor env limit
  nested a path ha h := by
    have hle := countP_isEnter_le h (by omega)
    omega
  callbacks a path ha h hpath := Nat.succ_le_succ (length_le_of_isCall h ha hpath)

end Run

namespace Program

open Run

/-- An execution is what the evaluator does. -/
lemma execute_eq (p : Program) (limit : Nat) (fn : Function) (t : Table) (ctx : Context) :
    p.execute limit fn t ctx = (evaluator ⟨p, ctx⟩ limit).execute fn t ctx := by
  apply bind_congr
  intro args
  simp only [evaluator, Nat.sub_zero]
  cases enter ⟨p, ctx⟩ limit fn args fn.pos ⟨t, none⟩ with
  | ok r => rfl
  | error f => cases f <;> rfl

/-- Evaluation ends with no other bound than the number of functions that may be carried out at a time: an execution is
what the evaluator does, and the rules come to it after a finite number of rounds. -/
theorem execution_ends (p : Program) (limit : Nat) (fn : Function) (t : Table) (ctx : Context) :
    EvaluationEnds ⟨p, ctx⟩ limit ∧ p.execute limit fn t ctx = (evaluator ⟨p, ctx⟩ limit).execute fn t ctx ∧
      ∃ rounds, ∀ n ≥ rounds, ∀ rest,
        (unrolled ⟨p, ctx⟩ limit rest n).execute fn t ctx = p.execute limit fn t ctx := by
  refine ⟨evaluationEnds ⟨p, ctx⟩ limit, p.execute_eq limit fn t ctx, ?_⟩
  rw [execute_eq]
  unfold Doing.execute
  cases executionArgs fn ctx t with
  | error f => exact ⟨0, fun n _ rest => rfl⟩
  | ok args =>
    obtain ⟨rounds, hrounds⟩ := exists_rounds ⟨p, ctx⟩ limit (.enter 0 fn args fn.pos, ⟨t, none⟩)
    refine ⟨rounds, fun n hn rest => ?_⟩
    have hsame := hrounds n hn rest
    simp only [Except.bind, Bind.bind, hsame]

end Program

end Croupier
