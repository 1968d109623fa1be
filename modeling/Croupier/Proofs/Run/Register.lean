import Croupier.Proofs.Run.Trace
import Croupier.Proofs.Run.Transfer

/-!
# What the calls of a run write

A register is a part of the work that nothing writes but built-in functions. After a run it holds what the calls of the
trace have written to it, one after the other (`Records`). This passes through the sequence of two runs
(`Records.andThen`), and so the evaluator records every such register by one induction (`enter_records`).
-/

namespace Croupier

namespace Run

/-- A part of the work that built-in functions write. -/
structure Register (σ : Type) where
  read : Work → σ
  write : BuiltinCall → σ → σ

end Run

/-- Tells whether a built-in function changes nothing but through what it calls. -/
def Builtin.asks : Builtin → Bool
  | .filter | .count | .cardsInStack | .getValue | .handRank => true
  | _ => false

namespace Run

open Trace (quiet andThen)

variable {σ α β : Type}

/-- What holds of a register that nothing writes but built-in functions. -/
structure Register.Sound (reg : Register σ) : Prop where
  put {w : Work} {pile : Pile} {place : Place} : reg.read { w with table := w.table.put pile place } = reg.read w
  asks {b : Builtin} {args : List Value} {s : σ} : b.asks = true → reg.write ⟨b, args⟩ s = s
  acts {invoke : Invoke} {b : Builtin} {args : List Value} {pos : Pos} {w w' : Work} {v : Value} :
    b.asks = false → b.call invoke args pos w = .ok (v, w') → reg.read w' = reg.write ⟨b, args⟩ (reg.read w)

/-- What a register holds after some calls. -/
def Register.after (reg : Register σ) (calls : List BuiltinCall) (s : σ) : σ := calls.foldl (fun s c => reg.write c s) s

/-- What some calls and then others write is written one after the other. -/
lemma Register.after_append {reg : Register σ} (calls calls' : List BuiltinCall) (s : σ) :
    reg.after (calls ++ calls') s = reg.after calls' (reg.after calls s) := List.foldl_append

/-- After a run a register holds what the calls of a trace have written to it. -/
def Records (reg : Register σ) (m : Run α) (calls : Trace) : Prop :=
  ∀ ⦃w w' : Work⦄ ⦃a : α⦄, m w = .ok (a, w') → reg.read w' = reg.after (calls w) (reg.read w)

namespace Records

variable {reg : Register σ} {m : Run α} {f : α → Run β} {calls : Trace}

/-- A run that leaves the work as it is makes no calls. -/
lemma of_still (h : ∀ ⦃w w' : Work⦄ ⦃a : α⦄, m w = .ok (a, w') → w' = w) : Records reg m quiet := by
  intro w w' a hr
  rw [h hr]
  rfl

/-- A result as such makes no calls. -/
lemma pure {a : α} : Records reg (pure a) quiet := of_still fun _ _ _ h => (pure_ok.mp h).2.symm

/-- A run that fails leaves nothing to be recorded. -/
lemma fail {fault : Fault} : Records reg (Run.fail fault : Run α) calls := fun _ _ _ h => nomatch h

/-- A mismatch leaves nothing to be recorded. -/
lemma mismatch {op want : String} {got : Value} {pos : Pos} : Records reg (Run.mismatch op want got pos : Run α) calls :=
  fail

/-- To look at the table makes no calls. -/
lemma table : Records reg Run.table quiet := of_still fun w w' _ h => by cases h; rfl

/-- The calls of a sequence are those of its parts. -/
lemma andThen {next : α → Trace} (hm : Records reg m calls) (hf : ∀ a, Records reg (f a) (next a)) :
    Records reg (m >>= f) (Trace.andThen m calls next) := by
  intro w w'' b hr
  obtain ⟨a, w', hr, hr'⟩ := bind_ok.mp hr
  unfold Trace.andThen
  rw [hr, Register.after_append, ← hm hr]
  exact hf a hr'

/-- The calls of a sequence are those of its first part, if the second makes none. -/
lemma before (hm : Records reg m calls) (hf : ∀ a, Records reg (f a) quiet) : Records reg (m >>= f) calls := by
  intro w w'' b hr
  obtain ⟨a, w', hr, hr'⟩ := bind_ok.mp hr
  exact (hf a hr').trans (hm hr)

/-- To put a pile on the table makes no calls. -/
lemma put (sound : reg.Sound) {pile : Table → Pile} {place : Place} :
    Records reg (modifyTable fun t => t.put (pile t) place) quiet := by
  intro w w' a h
  cases h
  exact sound.put

end Records

variable {reg : Register σ}

/-- To locate a pile makes no calls. -/
lemma locate_records {r : PileRef} {pos : Pos} : Records reg (locate r pos) quiet :=
  .of_still fun _ _ _ h => (locate_ok h).1

/-- To look at a pile makes no calls. -/
lemma pileAt_records {place : Place} : Records reg (pileAt place) quiet := .before .table fun _ => .pure

/-- To find the cards that a value holds makes no calls. -/
lemma heldCards_records {op : String} {v : Value} {pos : Pos} : Records reg (heldCards op v pos) quiet := by
  cases v with
  | cards cs => exact .pure
  | card c => exact .pure
  | pile r => exact .before locate_records fun _ => pileAt_records
  | _ => exact .mismatch

/-- To ask for a reference makes no calls. -/
lemma pileRef_records {op : String} {v : Value} {pos : Pos} : Records reg (pileRef op v pos) quiet := by
  cases v with
  | pile r => exact .pure
  | _ => exact .mismatch

/-- To ask for a truth value makes no calls. -/
lemma truth_records {op : String} {v : Value} {pos : Pos} : Records reg (truth op v pos) quiet := by
  cases v with
  | bool b => exact .pure
  | _ => exact .mismatch

/-- To compare values makes no calls. -/
lemma equal_records {a b : Value} {pos : Pos} : Records reg (equal a b pos) quiet := by
  unfold equal
  split
  · exact .pure
  · exact .pure
  · exact .pure
  · exact .pure
  · exact .pure
  · split
    · exact .pure
    · split
      · exact .before heldCards_records fun _ => .before heldCards_records fun _ => .pure
      · exact .fail

/-- To resolve a name makes no calls. -/
lemma resolve_records {env : Env} {scope : Scope} {name : String} : Records reg (resolve env scope name) quiet := by
  refine .before .table fun t => ?_
  split
  · exact .pure
  · split_ifs <;> exact .pure

/-- To select a field makes no calls. -/
lemma select_records {env : Env} {v : Value} {key : String} {pos : Pos} : Records reg (select env v key pos) quiet := by
  refine .before .table fun t => ?_
  simp only
  split
  · exact .pure
  · exact .mismatch

/-- To check the number of arguments makes no calls. -/
lemma checkArity_records {fn : Function} {args : List Value} {pos : Pos} :
    Records reg (checkArity fn args pos) quiet := by
  unfold checkArity
  split
  · exact .pure
  · exact .fail

/-- To take cards from a pile makes no calls. -/
lemma takeFrom_records (sound : reg.Sound) {r : PileRef} {place : Place} {n : Int} {pos : Pos} :
    Records reg (takeFrom r place n pos) quiet := by
  intro w w' taken h
  obtain ⟨left, _, rfl⟩ := takeFrom_ok h
  exact sound.put

/-- To deal cards makes no calls. -/
lemma dealFrom_records (sound : reg.Sound) {name : String} {pos : Pos} {turn : Nat} {cs : List Card} :
    Records reg (dealFrom name pos turn cs) quiet := by
  induction cs generalizing turn with
  | nil => exact .pure
  | cons c cs ih =>
    refine .before .table fun t => ?_
    split
    · exact .fail
    · exact .before (.put sound) fun _ => ih

/-- To move a set of cards makes no calls. -/
lemma moveThese_records (sound : reg.Sound) {fn : String} {r : PileRef} {source target : Place} {cs : List Card}
    {pos : Pos} : Records reg (moveThese fn r source target cs pos) quiet := by
  refine .before pileAt_records fun pile => ?_
  split
  · exact .fail
  · exact .before (.put sound) fun _ => .put sound

/-- A caller whose traces are right: after every call a register holds what the calls of its trace have written. -/
def Caller.Records (c : Caller) (reg : Register σ) : Prop :=
  ∀ name args pos, Run.Records reg (c.invoke name args pos) (c.trace name args pos)

variable {c : Caller}

/-- To find the cards that a value stands for makes the calls of its function, if it is one. -/
lemma cardsOf_records (hc : c.Records reg) {op : String} {v : Value} {pos : Pos} :
    Records reg (cardsOf c.invoke op v pos) (cardsTrace c v pos) := by
  have hheld : Records reg (heldCards op v pos) quiet := heldCards_records
  cases v with
  | function name => exact .before (hc name [] pos) fun _ => heldCards_records
  | _ => exact hheld

/-- To keep the cards that a predicate holds of makes the calls of the predicate. -/
lemma keep_records (hc : c.Records reg) {predicate : String} {pos : Pos} {cs : List Card} :
    Records reg (Builtin.keep c.invoke predicate pos cs) (keepTrace c predicate pos cs) := by
  induction cs with
  | nil => exact .pure
  | cons x xs ih =>
    refine .andThen (hc _ _ _) fun v => ?_
    cases v with
    | bool keeps => exact .before ih fun _ => .pure
    | _ => exact .mismatch

/-- A built-in function that only asks leaves a register to what it calls. -/
lemma asks_records (hc : c.Records reg) {b : Builtin} (hb : b.asks = true) {args : List Value} {pos : Pos} :
    Records reg (b.call c.invoke args pos) (callbackTrace c b args pos) := by
  cases b with
  | filter =>
    match args with
    | [source, predicate] =>
      cases predicate with
      | function p => exact .andThen (cardsOf_records hc) fun _ => .before (keep_records hc) fun _ => .pure
      | _ => exact .before (cardsOf_records hc) fun _ => .mismatch
    | [] | [_] | _ :: _ :: _ :: _ => exact .fail
  | cardsInStack =>
    match args with
    | [v, stack] =>
      cases stack with
      | pile r =>
        refine .andThen locate_records fun _ => .before (cardsOf_records hc) fun _ => ?_
        exact .before pileAt_records fun _ => .pure
      | _ => exact .mismatch
    | [] | [_] | _ :: _ :: _ :: _ => exact .fail
  | count =>
    match args with
    | [v] => exact .before (cardsOf_records hc) fun _ => .pure
    | [] | _ :: _ :: _ => exact .fail
  | getValue =>
    match args with
    | [v] => exact .before (cardsOf_records hc) fun _ => .pure
    | [] | _ :: _ :: _ => exact .fail
  | handRank =>
    match args with
    | [v] =>
      refine .before (cardsOf_records hc) fun cs => ?_
      split
      · exact .pure
      · exact .fail
    | [] | _ :: _ :: _ => exact .fail
  | _ => cases hb

/-- A built-in function that acts calls nothing back. -/
lemma callbackTrace_of_acts {b : Builtin} (hb : b.asks = false) {args : List Value} {pos : Pos} :
    callbackTrace c b args pos = quiet := by
  cases b with
  | filter => cases hb
  | count => cases hb
  | cardsInStack => cases hb
  | getValue => cases hb
  | handRank => cases hb
  | _ => rfl

/-- A call of a built-in function writes first, and then what it calls writes. -/
lemma builtin_records (sound : reg.Sound) (hc : c.Records reg) {b : Builtin} {args : List Value} {pos : Pos} :
    Records reg (b.call c.invoke args pos) (builtinTrace c b args pos) := by
  intro w w' v h
  show _ = reg.after (callbackTrace c b args pos w) (reg.write ⟨b, args⟩ (reg.read w))
  cases hb : b.asks with
  | true =>
    rw [sound.asks hb]
    exact asks_records hc hb h
  | false =>
    rw [callbackTrace_of_acts hb]
    exact sound.acts hb h

variable {env : Env} {scope : Scope}

mutual

/-- The trace of an expression is right, by induction on its form. -/
lemma eval_records (hc : c.Records reg) : ∀ e, Records reg (eval env c.invoke scope e) (evalTrace env c scope e)
  | .name id pos => by
    rw [eval, evalTrace]
    exact resolve_records
  | .int n pos => by
    rw [eval, evalTrace]
    exact .pure
  | .field base key pos => by
    rw [eval, evalTrace]
    split
    · exact .pure
    · exact .before (eval_records hc base) fun v => select_records
  | .call fn args pos => by
    rw [eval, evalTrace]
    exact .andThen (evalAll_records hc args) fun vs => hc fn vs pos
  | .compare left right negate pos => by
    rw [eval, evalTrace]
    refine .andThen (eval_records hc left) fun a => .before (eval_records hc right) fun b => ?_
    exact .before equal_records fun _ => .pure
  | .join op left right pos => by
    rw [eval, evalTrace]
    refine .andThen (eval_records hc left) fun v => .andThen truth_records fun a => ?_
    split
    · exact .pure
    · exact .before (eval_records hc right) fun v => .before truth_records fun _ => .pure
  | .not operand pos => by
    rw [eval, evalTrace]
    exact .before (eval_records hc operand) fun v => .before truth_records fun _ => .pure

/-- The trace of some expressions is right. -/
lemma evalAll_records (hc : c.Records reg) :
    ∀ es, Records reg (evalAll env c.invoke scope es) (evalAllTrace env c scope es)
  | [] => by
    rw [evalAll, evalAllTrace]
    exact .pure
  | e :: es => by
    rw [evalAll, evalAllTrace]
    exact .andThen (eval_records hc e) fun v => .before (evalAll_records hc es) fun vs => .pure

end

section Transfer

variable {eval : Expr → Run Value} {trace : Expr → Trace} {fn : String} {r targetRef : PileRef} {place : Place}
  {targetPos pos : Pos} {amount : Amount}

/-- The trace of a move of cards to a pile is right. -/
lemma moveTo_records (sound : reg.Sound) (hc : c.Records reg) (he : ∀ e, Records reg (eval e) (trace e)) :
    Records reg (moveTo eval c.invoke fn r place targetRef targetPos amount pos)
      (moveTrace eval trace c targetRef targetPos amount) := by
  refine .andThen locate_records fun target => ?_
  cases amount with
  | these e => exact .andThen (he e) fun v => .before (cardsOf_records hc) fun cs => moveThese_records sound
  | _ => exact .before pileAt_records fun _ => .before (takeFrom_records sound) fun _ => .put sound

/-- The trace of a move of cards between two piles is right. -/
lemma transferBetween_records (sound : reg.Sound) (hc : c.Records reg) (he : ∀ e, Records reg (eval e) (trace e)) :
    Records reg (transferBetween eval c.invoke fn r place targetRef targetPos amount pos)
      (betweenTrace eval trace c targetRef targetPos amount) := by
  cases targetRef with
  | everyPlayer name =>
    refine .before pileAt_records fun _ => .before .table fun _ => .before (takeFrom_records sound) fun _ => ?_
    exact dealFrom_records sound
  | shared name => exact moveTo_records sound hc he
  | ofPlayer id name => exact moveTo_records sound hc he

/-- The trace of a transfer is right. -/
lemma transfer_records (sound : reg.Sound) (hc : c.Records reg) (he : ∀ e, Records reg (eval e) (trace e))
    {source target : Expr} :
    Records reg (transfer eval c.invoke fn source target amount pos)
      (transferTrace eval trace c source target amount) := by
  refine .andThen (he source) fun v => .andThen pileRef_records fun sourceRef => ?_
  refine .andThen (he target) fun v => .andThen pileRef_records fun targetRef => ?_
  exact .andThen locate_records fun place => transferBetween_records sound hc he

end Transfer

mutual

/-- The trace of a statement is right, by induction on its form. -/
lemma exec_records (sound : reg.Sound) (hc : c.Records reg) {fn : String} :
    ∀ s, Records reg (exec env c.invoke fn scope s) (execTrace env c fn scope s)
  | .transfer source target amount pos => by
    rw [exec, execTrace]
    exact .before (transfer_records sound hc (eval_records hc)) fun _ => .pure
  | .check condition pos => by
    rw [exec, execTrace]
    refine .before (eval_records hc condition) fun v => .before truth_records fun holds => ?_
    split
    · exact .pure
    · exact .fail
  | .ret none pos => by
    rw [exec, execTrace]
    exact .pure
  | .ret (some value) pos => by
    rw [exec, execTrace]
    exact .before (eval_records hc value) fun v => .pure
  | .call name args callPos pos => by
    rw [exec, execTrace]
    exact .before (eval_records hc _) fun v => .pure
  | .when condition body pos => by
    rw [exec, execTrace]
    refine .andThen (eval_records hc condition) fun v => .andThen truth_records fun holds => ?_
    split
    · exact execAll_records sound hc body
    · exact .pure

/-- The trace of some statements is right. -/
lemma execAll_records (sound : reg.Sound) (hc : c.Records reg) {fn : String} :
    ∀ ss, Records reg (execAll env c.invoke fn scope ss) (execAllTrace env c fn scope ss)
  | [] => by
    rw [execAll, execAllTrace]
    exact .pure
  | s :: ss => by
    rw [execAll, execAllTrace]
    refine .andThen (exec_records sound hc s) fun result => ?_
    cases result with
    | some v => exact .pure
    | none => exact execAll_records sound hc ss

end

/-- Calls of the program's functions whose traces are right. -/
def Entry.Records (e : Entry) (reg : Register σ) : Prop :=
  ∀ fn args pos, Run.Records reg (e.enter fn args pos) (e.trace fn args pos)

/-- The traces of what a name means are right, if those of functions of either sort are. -/
lemma dispatch_records (sound : reg.Sound) {e : Entry} (he : e.Records reg) {refer : Caller} (hr : refer.Records reg) :
    (e.dispatch env refer).Records reg := by
  intro name args pos
  unfold Entry.dispatch Run.dispatch
  dsimp only
  cases env.program.function? name with
  | none =>
    cases Builtin.ofName? name with
    | none => exact .fail
    | some b => exact builtin_records sound hr
  | some fn =>
    cases Builtin.ofName? name with
    | none => exact he fn args pos
    | some b =>
      simp only
      split
      · exact builtin_records sound hr
      · exact he fn args pos

/-- The traces of calls are right, if those of the program's functions are. -/
lemma caller_records (sound : reg.Sound) {e : Entry} (he : e.Records reg) : (e.caller env).Records reg := by
  have hrefer : (e.refer env).Records reg := dispatch_records sound he fun _ _ _ => .fail
  exact dispatch_records sound he hrefer

/-- The trace of a call of one of the program's functions is right, however deep calls may be nested. -/
lemma enter_records (sound : reg.Sound) (depth : Nat) : Entry.Records ⟨enter env depth, enterTrace env depth⟩ reg := by
  -- the induction is on the calls that may still be nested: those in the body of the function have one less
  induction depth with
  | zero => exact fun fn args pos => .before checkArity_records fun _ => .fail
  | succ depth ih =>
    intro fn args pos
    refine .andThen checkArity_records fun _ => .andThen .table fun t => ?_
    exact .before (execAll_records sound (caller_records sound ih) fn.body) fun result => .pure

end Run

end Croupier
