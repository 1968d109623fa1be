import Croupier.Proofs.Except
import Croupier.Proofs.Run.Law
import Croupier.Run.Execute

/-!
# The limit on nested calls only cuts runs off

A run is cut from another if it does the same, or else stops because calls are nested too deep (`CutFrom`). No part of a
run turns that fault into another or goes on after it, so a sequence of cut parts is cut from the sequence of the whole
parts (`CutFrom.bind`). Hence the evaluator with calls that are cut is cut from the evaluator with whole calls, and an
execution with a lower limit is cut from the one with a higher limit (`enter_cutFrom`).
-/

namespace Croupier

namespace Run

variable {α β : Type}

/-- A run stops because calls are nested too deep, or does what another run does. -/
def CutFrom (whole cut : Run α) : Prop := ∀ w, (∃ fn pos, cut w = .error (.tooDeep fn pos)) ∨ cut w = whole w

namespace CutFrom

variable {m m' : Run α}

/-- A run is cut from itself. -/
lemma refl : CutFrom m m := fun _ => .inr rfl

/-- A run that is nested too deep is cut from any other. -/
lemma tooDeep {fn : String} {pos : Pos} : CutFrom m (fail (.tooDeep fn pos)) := fun _ => .inl ⟨fn, pos, rfl⟩

/-- A sequence is cut off where one of its parts is. -/
lemma bind {f f' : α → Run β} (hm : CutFrom m m') (hf : ∀ a, CutFrom (f a) (f' a)) :
    CutFrom (m >>= f) (m' >>= f') := by
  intro w
  have hb : ∀ (n : Run α) (g : α → Run β), (n >>= g) w = Except.bind (n w) fun r => g r.1 r.2 := fun _ _ => rfl
  rw [hb, hb]
  rcases hm w with ⟨fn, pos, hcut⟩ | hsame
  · exact .inl ⟨fn, pos, by rw [hcut]; rfl⟩
  · rw [hsame]
    cases m w with
    | error e => exact .inr rfl
    | ok r => exact hf r.1 r.2

end CutFrom

/-- Every call is cut from the call of the same function with the same arguments. -/
def CallsCutFrom (whole cut : Invoke) : Prop := ∀ name args pos, CutFrom (whole name args pos) (cut name args pos)

variable {call call' : Invoke}

/-- The cards that a value stands for are cut off where calls are. -/
lemma cardsOf_cutFrom (hc : CallsCutFrom call call') {op : String} {v : Value} {pos : Pos} :
    CutFrom (cardsOf call op v pos) (cardsOf call' op v pos) := by
  unfold cardsOf
  split
  · exact .bind (hc _ _ _) fun _ => .refl
  · exact .refl

end Run

namespace Builtin

open Run

variable {call call' : Invoke}

/-- A filter is cut off where its predicate is. -/
lemma keep_cutFrom (hc : CallsCutFrom call call') {predicate : String} {pos : Pos} {cs : List Card} :
    CutFrom (keep call predicate pos cs) (keep call' predicate pos cs) := by
  induction cs with
  | nil => exact .refl
  | cons c cs ih =>
    refine .bind (hc _ _ _) fun v => ?_
    cases v with
    | bool keeps => exact .bind ih fun _ => .refl
    | _ => exact .refl

/-- A built-in function is cut off where what it calls back is. -/
lemma call_cutFrom (hc : CallsCutFrom call call') {b : Builtin} {args : List Value} {pos : Pos} :
    CutFrom (b.call call args pos) (b.call call' args pos) := by
  unfold Builtin.call
  split
  · exact .refl
  · refine .bind (cardsOf_cutFrom hc) fun cs => ?_
    split
    · exact .bind (keep_cutFrom hc) fun _ => .refl
    · exact .refl
  · exact .bind (cardsOf_cutFrom hc) fun _ => .refl
  · split
    · exact .bind .refl fun _ => .bind (cardsOf_cutFrom hc) fun _ => .refl
    · exact .refl
  · exact .bind (cardsOf_cutFrom hc) fun _ => .refl
  · exact .refl
  · exact .refl
  · exact .refl
  · exact .refl
  · exact .bind (cardsOf_cutFrom hc) fun _ => .refl
  · exact .refl
  · exact .refl

end Builtin

namespace Run

variable {call call' : Invoke} {env : Env} {scope : Scope}

/-- A move of cards between two piles is cut off where its amount or a call is. -/
lemma transferBetween_cutFrom {eval eval' : Expr → Run Value} (he : ∀ e, CutFrom (eval e) (eval' e))
    (hc : CallsCutFrom call call') {fn : String} {r targetRef : PileRef} {source : Place} {targetPos pos : Pos}
    {amount : Amount} :
    CutFrom (transferBetween eval call fn r source targetRef targetPos amount pos)
      (transferBetween eval' call' fn r source targetRef targetPos amount pos) := by
  have hmove : CutFrom (moveTo eval call fn r source targetRef targetPos amount pos)
      (moveTo eval' call' fn r source targetRef targetPos amount pos) := by
    refine .bind .refl fun target => ?_
    cases amount with
    | these e => exact .bind (he e) fun v => .bind (cardsOf_cutFrom hc) fun _ => .refl
    | _ => exact .refl
  cases targetRef with
  | everyPlayer name => exact .refl
  | shared name => exact hmove
  | ofPlayer id name => exact hmove

/-- A transfer is cut off where an expression or a call is. -/
lemma transfer_cutFrom {eval eval' : Expr → Run Value} (he : ∀ e, CutFrom (eval e) (eval' e))
    (hc : CallsCutFrom call call') {fn : String} {source target : Expr} {amount : Amount} {pos : Pos} :
    CutFrom (transfer eval call fn source target amount pos) (transfer eval' call' fn source target amount pos) := by
  refine .bind (he source) fun v => ?_
  refine .bind .refl fun sourceRef => ?_
  refine .bind (he target) fun v => ?_
  refine .bind .refl fun targetRef => ?_
  exact .bind .refl fun place => transferBetween_cutFrom he hc

mutual

/-- An expression is cut off where one of its calls is. -/
lemma eval_cutFrom (hc : CallsCutFrom call call') :
    ∀ e, CutFrom (eval env call scope e) (eval env call' scope e)
  | .name id pos => by
    rw [eval, eval]
    exact .refl
  | .int n pos => by
    rw [eval, eval]
    exact .refl
  | .field base key pos => by
    rw [eval, eval]
    split
    · exact .refl
    · exact .bind (eval_cutFrom hc base) fun v => .refl
  | .call fn args pos => by
    rw [eval, eval]
    exact .bind (evalAll_cutFrom hc args) fun vs => hc fn vs pos
  | .compare left right negate pos => by
    rw [eval, eval]
    exact .bind (eval_cutFrom hc left) fun a => .bind (eval_cutFrom hc right) fun b => .refl
  | .join op left right pos => by
    rw [eval, eval]
    refine .bind (eval_cutFrom hc left) fun v => .bind .refl fun a => ?_
    split
    · exact .refl
    · exact .bind (eval_cutFrom hc right) fun v => .refl
  | .not operand pos => by
    rw [eval, eval]
    exact .bind (eval_cutFrom hc operand) fun v => .refl

/-- Expressions are cut off where one of their calls is. -/
lemma evalAll_cutFrom (hc : CallsCutFrom call call') :
    ∀ es, CutFrom (evalAll env call scope es) (evalAll env call' scope es)
  | [] => by
    rw [evalAll, evalAll]
    exact .refl
  | e :: es => by
    rw [evalAll, evalAll]
    exact .bind (eval_cutFrom hc e) fun v => .bind (evalAll_cutFrom hc es) fun vs => .refl

end

mutual

/-- A statement is cut off where one of its calls is. -/
lemma exec_cutFrom (hc : CallsCutFrom call call') {fn : String} :
    ∀ s, CutFrom (exec env call fn scope s) (exec env call' fn scope s)
  | .transfer source target amount pos => by
    rw [exec, exec]
    exact .bind (transfer_cutFrom (eval_cutFrom hc) hc) fun _ => .refl
  | .check condition pos => by
    rw [exec, exec]
    exact .bind (eval_cutFrom hc condition) fun v => .refl
  | .ret none pos => by
    rw [exec, exec]
    exact .refl
  | .ret (some value) pos => by
    rw [exec, exec]
    exact .bind (eval_cutFrom hc value) fun v => .refl
  | .call name args callPos pos => by
    rw [exec, exec]
    exact .bind (eval_cutFrom hc _) fun v => .refl
  | .when condition body pos => by
    rw [exec, exec]
    refine .bind (eval_cutFrom hc condition) fun v => .bind .refl fun holds => ?_
    split
    · exact execAll_cutFrom hc body
    · exact .refl

/-- Statements are cut off where one of their calls is. -/
lemma execAll_cutFrom (hc : CallsCutFrom call call') {fn : String} :
    ∀ ss, CutFrom (execAll env call fn scope ss) (execAll env call' fn scope ss)
  | [] => by
    rw [execAll, execAll]
    exact .refl
  | s :: ss => by
    rw [execAll, execAll]
    refine .bind (exec_cutFrom hc s) fun result => ?_
    cases result with
    | some v => exact .refl
    | none => exact execAll_cutFrom hc ss

end

/-- Calls of what a name means are cut off where the calls of functions of either sort are. -/
lemma dispatch_cutFrom {enter enter' : Enter} {refer refer' : Invoke}
    (he : ∀ fn args pos, CutFrom (enter fn args pos) (enter' fn args pos)) (hr : CallsCutFrom refer refer') :
    CallsCutFrom (dispatch env enter refer) (dispatch env enter' refer') := by
  intro name args pos
  unfold dispatch
  split
  · exact he _ _ _
  · split
    · exact Builtin.call_cutFrom hr
    · exact he _ _ _
  · exact Builtin.call_cutFrom hr
  · exact .refl

/-- Calls are cut off where the calls of the program's functions are. -/
lemma invoke_cutFrom {enter enter' : Enter} (he : ∀ fn args pos, CutFrom (enter fn args pos) (enter' fn args pos)) :
    CallsCutFrom (invoke env enter) (invoke env enter') := by
  have hrefer : CallsCutFrom (refer env enter) (refer env enter') := dispatch_cutFrom he fun _ _ _ => .refl
  exact dispatch_cutFrom he hrefer

/-- With a lower limit a call of one of the program's functions is cut from the call with a higher limit. -/
lemma enter_cutFrom (env : Env) {d d' : Nat} (hd : d ≤ d') (fn : Function) (args : List Value) (pos : Pos) :
    CutFrom (enter env d' fn args pos) (enter env d fn args pos) := by
  -- the induction is on the lower limit; where it is used up, the call is cut off whatever the higher limit allows
  induction d generalizing d' fn args pos with
  | zero =>
    cases d' with
    | zero => exact .refl
    | succ d' => exact .bind .refl fun _ => .tooDeep
  | succ d ih =>
    cases d' with
    | zero => exact absurd hd (Nat.not_succ_le_zero d)
    | succ d' =>
      refine .bind .refl fun _ => .bind .refl fun t => .bind ?_ fun result => .refl
      exact execAll_cutFrom (invoke_cutFrom (ih (Nat.le_of_succ_le_succ hd))) fn.body

end Run

namespace Program

open Run

/-- An execution with a lower limit gives what the one with a higher limit gives, or it fails because calls are nested
too deep. -/
lemma execute_cut (p : Program) {d d' : Nat} (hd : d ≤ d') (fn : Function) (t : Table) (ctx : Context) :
    (∃ name pos, p.execute d fn t ctx = .error (.tooDeep name pos)) ∨
      p.execute d fn t ctx = p.execute d' fn t ctx := by
  unfold execute
  cases executionArgs fn ctx t with
  | error f => exact .inr rfl
  | ok args =>
    simp only [Except.bind, Bind.bind]
    rcases enter_cutFrom ⟨p, ctx⟩ hd fn args fn.pos ⟨t, none⟩ with ⟨name, pos, hcut⟩ | hsame
    · exact .inl ⟨name, pos, by rw [hcut]⟩
    · exact .inr (by rw [hsame])

/-- A table that can be laid with a lower limit is laid with a higher one. -/
lemma newTable_of_lower {p : Program} {d d' : Nat} (hd : d ≤ d') {seed : UInt64} {t : Table}
    (h : p.newTable d seed = .ok t) : p.newTable d' seed = .ok t := by
  have hcalls : CallsCutFrom (invoke ⟨p, {}⟩ (enter ⟨p, {}⟩ d')) (invoke ⟨p, {}⟩ (enter ⟨p, {}⟩ d)) :=
    invoke_cutFrom (enter_cutFrom ⟨p, {}⟩ hd)
  have hcut : CutFrom (p.evalDeck d') (p.evalDeck d) :=
    .bind .refl fun t => .bind (eval_cutFrom hcalls p.deck) fun v => cardsOf_cutFrom hcalls
  obtain ⟨empty, he, h⟩ := bind_eq_ok.mp h
  obtain ⟨deck, hb, hl⟩ := bind_eq_ok.mp h
  refine bind_eq_ok.mpr ⟨empty, he, bind_eq_ok.mpr ⟨deck, ?_, hl⟩⟩
  unfold buildDeck at hb ⊢
  rcases hcut ⟨empty, none⟩ with ⟨name, pos, hdeep⟩ | hsame
  · rw [hdeep] at hb
    cases hb
  · rw [← hsame]
    exact hb

/-- An execution that does not fail with a lower limit is the same with a higher one. -/
lemma execute_of_lower {p : Program} {d d' : Nat} (hd : d ≤ d') {fn : Function} {t : Table} {ctx : Context}
    {outcome : Outcome} (h : p.execute d fn t ctx = .ok outcome) : p.execute d' fn t ctx = .ok outcome := by
  rcases p.execute_cut hd fn t ctx with ⟨name, pos, hcut⟩ | hsame
  · rw [hcut] at h
    cases h
  · rw [← hsame]
    exact h

/-- The limit on nested calls only cuts executions off: what does not fail because of a lower limit is the same with a
higher one, and what does not fail because of the higher one is the same with the lower one or is cut off there. -/
theorem limit_only_cuts (p : Program) {d d' : Nat} (hd : d ≤ d') (fn : Function) (t : Table) (ctx : Context) :
    ((∀ name pos, p.execute d fn t ctx ≠ .error (.tooDeep name pos)) →
      p.execute d' fn t ctx = p.execute d fn t ctx) ∧
    ((∀ name pos, p.execute d' fn t ctx ≠ .error (.tooDeep name pos)) →
      p.execute d fn t ctx = p.execute d' fn t ctx ∨
        ∃ name pos, p.execute d fn t ctx = .error (.tooDeep name pos)) := by
  constructor
  · intro h
    rcases p.execute_cut hd fn t ctx with ⟨name, pos, hcut⟩ | hsame
    · exact absurd hcut (h name pos)
    · exact hsame.symm
  · intro _
    exact (p.execute_cut hd fn t ctx).symm

/-- A function that puts a card on the pile and calls itself until three lie there. -/
def pileUp : Function where
  name := "pile_up"
  params := []
  body :=
    let id s : Expr := .name s .start
    [.transfer (id "deck") (id "pile") .one .start,
      .when (.compare (.call "count" [id "pile"] .start) (.int 3 .start) true .start)
        [.call "pile_up" [] .start .start] .start]
  pos := .start

/-- Three nested calls are enough for `pileUp`, more make no difference, and with two it is cut off. -/
theorem pileUp_limit :
    let p : Program := ⟨"tower", .name "StandardDeck" .start, 1, 1, ["pile"], [], [pileUp]⟩
    let t : Table := ⟨Card.standardDeck, [("pile", [])], [[]], 0, [], false, false, 52, Table.generatorOf 1⟩
    ∃ outcome, p.execute 3 pileUp t {} = .ok outcome ∧ p.execute 64 pileUp t {} = .ok outcome ∧
      p.execute 2 pileUp t {} = .error (.tooDeep "pile_up" .start) := by
  intro p t
  have hthree : (p.execute 3 pileUp t {}).toOption.isSome = true := by decide +kernel
  cases ho : p.execute 3 pileUp t {} with
  | error f =>
    rw [ho] at hthree
    cases hthree
  | ok outcome =>
    have hmore := (p.limit_only_cuts (show 3 ≤ 64 by decide) pileUp t {}).1 (by rw [ho]; exact nofun)
    exact ⟨outcome, rfl, hmore.trans ho, by decide +kernel⟩

end Program

end Croupier
