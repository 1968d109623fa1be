import Croupier.Proofs.Except
import Croupier.Proofs.Run.Transfer
import Croupier.Run.Execute

/-!
# Evaluation keeps every sound law

One induction over the evaluator: expressions and statements by their form (`eval_keeps`, `exec_keeps`), the program's
own functions by the number of calls that may still be nested (`enter_keeps`). The built-in functions are a case each
(`Builtin.call_keeps`); a built-in function that calls back is given calls that keep the law. What follows for a whole
execution is that it changes the table by steps only (`execute_steps`).
-/

namespace Croupier

open Run

variable {law : Law}

namespace Builtin

/-- The cards that a predicate keeps are some of the cards, in order. -/
lemma keep_keeps {invoke : Invoke} (sound : law.Sound) (hcall : KeepsCalls law invoke) {predicate : String} {pos : Pos}
    {cs : List Card} (hcs : law.cards cs) : Keeps law (·.Sublist cs) (keep invoke predicate pos cs) := by
  induction cs with
  | nil => exact .pure (.refl [])
  | cons c cs ih =>
    have hc : law.cards [c] := sound.sublist (List.singleton_sublist.mpr (List.mem_cons_self ..)) hcs
    have hrest : law.cards cs := sound.sublist (List.sublist_cons_self c cs) hcs
    unfold keep
    refine .bind sound (hcall predicate [.card c] pos (List.forall_mem_singleton.mpr hc)) fun v _ => ?_
    cases v with
    | bool keeps =>
      refine .bind sound (ih hrest) fun rest hsub => ?_
      cases keeps with
      | true => exact .pure (hsub.cons_cons c)
      | false => exact .pure (hsub.cons c)
    | _ => exact .mismatch

/-- To read the names of actions keeps the law. -/
lemma actionNames_keeps (sound : law.Sound) {pos : Pos} {args : List Value} :
    Keeps law (fun _ => True) (actionNames pos args) := by
  induction args with
  | nil => exact .pure trivial
  | cons v vs ih =>
    cases v with
    | symbol name => exact .bind sound ih fun names _ => .pure trivial
    | function name => exact .bind sound ih fun names _ => .pure trivial
    | _ => exact .mismatch

/-- To read the number of a player keeps the law. -/
lemma playerNumber_keeps {v : Value} {pos : Pos} : Keeps law (fun _ => True) (playerNumber v pos) := by
  cases v with
  | number n => exact .pure trivial
  | player id => exact .pure trivial
  | _ => exact .mismatch

/-- To shuffle a pile is a step. -/
lemma shuffle_keeps {r : PileRef} {pos : Pos} : Keeps law law.value (do
    let place ← locate r pos
    modifyTable (·.shuffle place)
    pure .empty) := by
  intro w w' v _ h
  obtain ⟨place, w₁, hl, h'⟩ := bind_ok.mp h
  obtain ⟨rfl, hp⟩ := locate_ok hl
  obtain ⟨_, w₂, hm, he⟩ := bind_ok.mp h'
  cases hm
  obtain ⟨rfl, rfl⟩ := pure_ok.mp he
  exact ⟨.single (.shuffle hp), trivial⟩

/-- To declare a winner is a step. -/
lemma win_keeps {id : Int} {fault : Fault} : Keeps law law.value (do
    let t ← table
    match t.win? id with
    | some t => do
      modifyTable fun _ => t
      pure .empty
    | none => fail fault) := by
  intro w w' v _ h
  obtain ⟨t, w₁, ht, h⟩ := bind_ok.mp h
  cases ht
  cases hw : w.table.win? id with
  | none => simp only [hw] at h; cases h
  | some t =>
    simp only [hw] at h
    obtain ⟨_, w₁, hm, he⟩ := bind_ok.mp h
    cases hm
    obtain ⟨rfl, rfl⟩ := pure_ok.mp he
    exact ⟨.single (.win hw), trivial⟩

/-- A built-in function keeps every sound law. -/
lemma call_keeps {invoke : Invoke} (sound : law.Sound) (hcall : KeepsCalls law invoke) {b : Builtin} {args : List Value}
    {pos : Pos} (hargs : ∀ v ∈ args, law.value v) : Keeps law law.value (b.call invoke args pos) := by
  unfold call
  split
  · exact .pure sound.standardDeck
  · next source predicate =>
    refine .bind sound (cardsOf_keeps sound hcall (hargs source (by simp))) fun cs hcs => ?_
    cases predicate with
    | function p =>
      refine .bind sound (keep_keeps sound hcall hcs) fun kept hsub => ?_
      exact .pure (sound.sublist hsub hcs)
    | _ => exact .mismatch
  · next v =>
    refine .bind sound (cardsOf_keeps sound hcall (hargs v (by simp))) fun cs _ => ?_
    exact .pure trivial
  · next v stack =>
    cases stack with
    | pile r =>
      refine .bind sound locate_keeps fun place _ => ?_
      refine .bind sound (cardsOf_keeps sound hcall (hargs v (by simp))) fun cs _ => ?_
      refine .bind sound (pileAt_keeps sound) fun pile _ => ?_
      exact .pure trivial
    | _ => exact .mismatch
  · next v =>
    refine .bind sound (cardsOf_keeps sound hcall (hargs v (by simp))) fun cs _ => ?_
    exact .pure trivial
  · refine .bind sound (actionNames_keeps sound) fun names _ => ?_
    exact .bind sound .declare fun _ _ => .pure trivial
  · next stack =>
    cases stack with
    | pile r => exact shuffle_keeps
    | _ => exact .mismatch
  · refine .bind sound (.modifyTable fun t _ => .finish) fun _ _ => ?_
    exact .pure trivial
  · next v =>
    exact .bind sound playerNumber_keeps fun id _ => win_keeps
  · next v =>
    refine .bind sound (cardsOf_keeps sound hcall (hargs v (by simp))) fun cs _ => ?_
    split
    · exact .pure trivial
    · exact .fail
  · refine .bind sound (.modifyTable fun t _ => .pass) fun _ _ => ?_
    exact .pure trivial
  · exact .fail

end Builtin

namespace Run

/-- The values of a scope obey a law. -/
def Law.scope (law : Law) (sc : Scope) : Prop := ∀ e ∈ sc, law.value e.2

variable {env : Env} {call : Invoke} {scope : Scope}

/-- To resolve a name in a lawful scope gives a lawful value. -/
lemma resolve_keeps (sound : law.Sound) (hscope : law.scope scope) {name : String} :
    Keeps law law.value (resolve env scope name) := by
  refine .bind sound .table fun t _ => ?_
  split
  · next v hv =>
    obtain ⟨before, after, he, _⟩ := List.lookup_eq_some_iff.mp hv
    exact .pure (hscope (name, v) (by simp [he]))
  · split_ifs <;> exact .pure trivial

/-- The fields of a player are lawful. -/
lemma playerField?_value {id : Nat} {key : String} {x : Value} (h : playerField? env id key = some x) :
    law.value x := by
  unfold playerField? at h
  split_ifs at h <;> cases h <;> trivial

/-- The fields of a lawful move are lawful. -/
lemma moveField?_value (sound : law.Sound) {m : Move} (hm : law.move m) {t : Table} {key : String} {x : Value}
    (h : moveField? m t key = some x) : law.value x := by
  unfold moveField? at h
  split_ifs at h <;> cases h
  · trivial
  · exact sound.moveCards hm
  · exact sound.moveTarget hm
  · trivial
  · trivial

/-- The fields of a card are lawful. -/
lemma cardField?_value {c : Card} {key : String} {x : Value} (h : cardField? c key = some x) : law.value x := by
  unfold cardField? at h
  split_ifs at h <;> cases h <;> trivial

/-- To select a field of a lawful value gives a lawful value. -/
lemma select_keeps (sound : law.Sound) {v : Value} (hv : law.value v) {key : String} {pos : Pos} :
    Keeps law law.value (select env v key pos) := by
  refine .bind sound .table fun t _ => ?_
  simp only
  split
  · next x hx =>
    cases v with
    | player id => exact .pure (playerField?_value hx)
    | move m => exact .pure (moveField?_value sound hv hx)
    | card c => exact .pure (cardField?_value hx)
    | _ => cases hx
  · exact .mismatch

/-- To compare lawful values keeps the law. -/
lemma equal_keeps (sound : law.Sound) {a b : Value} (ha : law.value a) (hb : law.value b) {pos : Pos} :
    Keeps law (fun _ => True) (equal a b pos) := by
  unfold equal
  split
  · exact .pure trivial
  · exact .pure trivial
  · exact .pure trivial
  · exact .pure trivial
  · exact .pure trivial
  · split
    · exact .pure trivial
    · split
      · refine .bind sound (heldCards_keeps sound ha) fun x _ => ?_
        refine .bind sound (heldCards_keeps sound hb) fun y _ => ?_
        exact .pure trivial
      · exact .fail

/-- To ask for a truth value keeps the law. -/
lemma truth_keeps {op : String} {v : Value} {pos : Pos} : Keeps law (fun _ => True) (truth op v pos) := by
  cases v with
  | bool b => exact .pure trivial
  | _ => exact .mismatch

mutual

/-- The value of an expression is lawful. -/
lemma eval_keeps (sound : law.Sound) (hcall : KeepsCalls law call) (hscope : law.scope scope) :
    ∀ e, Keeps law law.value (eval env call scope e)
  | .name id pos => by
    rw [eval]
    exact resolve_keeps sound hscope
  | .int n pos => by
    rw [eval]
    exact .pure trivial
  | .field base key pos => by
    rw [eval]
    split
    · exact .pure trivial
    · refine .bind sound (eval_keeps sound hcall hscope base) fun v hv => ?_
      exact select_keeps sound hv
  | .call fn args pos => by
    rw [eval]
    refine .bind sound (evalAll_keeps sound hcall hscope args) fun vs hvs => ?_
    exact hcall fn vs pos hvs
  | .compare left right negate pos => by
    rw [eval]
    refine .bind sound (eval_keeps sound hcall hscope left) fun a ha => ?_
    refine .bind sound (eval_keeps sound hcall hscope right) fun b hb => ?_
    refine .bind sound (equal_keeps sound ha hb) fun same _ => ?_
    exact .pure trivial
  | .join op left right pos => by
    rw [eval]
    refine .bind sound (eval_keeps sound hcall hscope left) fun v _ => ?_
    refine .bind sound truth_keeps fun a _ => ?_
    split
    · exact .pure trivial
    · refine .bind sound (eval_keeps sound hcall hscope right) fun v _ => ?_
      refine .bind sound truth_keeps fun b _ => ?_
      exact .pure trivial
  | .not operand pos => by
    rw [eval]
    refine .bind sound (eval_keeps sound hcall hscope operand) fun v _ => ?_
    refine .bind sound truth_keeps fun b _ => ?_
    exact .pure trivial

/-- The values of expressions are lawful. -/
lemma evalAll_keeps (sound : law.Sound) (hcall : KeepsCalls law call) (hscope : law.scope scope) :
    ∀ es, Keeps law (fun vs => ∀ v ∈ vs, law.value v) (evalAll env call scope es)
  | [] => by
    rw [evalAll]
    exact .pure (by simp)
  | e :: es => by
    rw [evalAll]
    refine .bind sound (eval_keeps sound hcall hscope e) fun v hv => ?_
    refine .bind sound (evalAll_keeps sound hcall hscope es) fun vs hvs => ?_
    exact .pure (List.forall_mem_cons.mpr ⟨hv, hvs⟩)

end

/-- A value that is given back, if there is one, obeys a law. -/
def Law.result (law : Law) (result : Option Value) : Prop := ∀ v ∈ result, law.value v

mutual

/-- What a statement gives back is lawful. -/
lemma exec_keeps (sound : law.Sound) (hcall : KeepsCalls law call) (hscope : law.scope scope) {fn : String} :
    ∀ s, Keeps law law.result (exec env call fn scope s)
  | .transfer source target amount pos => by
    rw [exec]
    refine .bind sound (transfer_keeps sound (eval_keeps sound hcall hscope) hcall) fun _ _ => ?_
    exact .pure (by simp [Law.result])
  | .check condition pos => by
    rw [exec]
    refine .bind sound (eval_keeps sound hcall hscope condition) fun v _ => ?_
    refine .bind sound truth_keeps fun holds _ => ?_
    split
    · exact .pure (by simp [Law.result])
    · exact .fail
  | .ret none pos => by
    rw [exec]
    exact .pure (by simp [Law.result, Law.value])
  | .ret (some value) pos => by
    rw [exec]
    refine .bind sound (eval_keeps sound hcall hscope value) fun v hv => ?_
    exact .pure (by simpa [Law.result] using hv)
  | .call name args callPos pos => by
    rw [exec]
    refine .bind sound (eval_keeps sound hcall hscope _) fun _ _ => ?_
    exact .pure (by simp [Law.result])
  | .when condition body pos => by
    rw [exec]
    refine .bind sound (eval_keeps sound hcall hscope condition) fun v _ => ?_
    refine .bind sound truth_keeps fun holds _ => ?_
    split
    · exact execAll_keeps sound hcall hscope body
    · exact .pure (by simp [Law.result])

/-- What statements give back is lawful. -/
lemma execAll_keeps (sound : law.Sound) (hcall : KeepsCalls law call) (hscope : law.scope scope) {fn : String} :
    ∀ ss, Keeps law law.result (execAll env call fn scope ss)
  | [] => by
    rw [execAll]
    exact .pure (by simp [Law.result])
  | s :: ss => by
    rw [execAll]
    refine .bind sound (exec_keeps sound hcall hscope s) fun result hresult => ?_
    cases result with
    | some v => exact .pure hresult
    | none => exact execAll_keeps sound hcall hscope ss

end

/-- Calls of the program's functions keep a law, given lawful arguments. -/
def KeepsEntries (law : Law) (enter : Enter) : Prop :=
  ∀ fn args pos, (∀ v ∈ args, law.value v) → Keeps law law.value (enter fn args pos)

/-- Calls of what a name means keep the law if the calls of functions of either sort do. -/
lemma dispatch_keeps (sound : law.Sound) {enter : Enter} {refer : Invoke} (henter : KeepsEntries law enter)
    (hrefer : KeepsCalls law refer) : KeepsCalls law (dispatch env enter refer) := by
  intro name args pos hargs
  unfold dispatch
  split
  · exact henter _ _ _ hargs
  · split
    · exact Builtin.call_keeps sound hrefer hargs
    · exact henter _ _ _ hargs
  · exact Builtin.call_keeps sound hrefer hargs
  · exact .fail

/-- Calls keep the law if the calls of the program's functions do. -/
lemma invoke_keeps (sound : law.Sound) {enter : Enter} (henter : KeepsEntries law enter) :
    KeepsCalls law (invoke env enter) := by
  have hrefer : KeepsCalls law (refer env enter) := dispatch_keeps sound henter fun _ _ _ _ => .fail
  exact dispatch_keeps sound henter hrefer

/-- The scope of a function is lawful if its arguments and the move are. -/
lemma scope_lawful {ctx : Context} (hmove : ∀ m ∈ ctx.move, law.move m) {params : List String} {args : List Value}
    (hargs : ∀ v ∈ args, law.value v) {t : Table} : law.scope (ctx.scope params args t) := by
  intro e he
  simp only [Context.scope, List.mem_append, List.mem_cons, List.not_mem_nil, or_false] at he
  rcases he with he | rfl | rfl
  · exact hargs e.2 (List.of_mem_zip he).2
  · trivial
  · cases hm : ctx.move with
    | none => simp [Context.moveValue, hm, Law.value]
    | some m => simpa [Context.moveValue, hm, Law.value] using hmove m hm

/-- Calls of the program's functions keep every sound law, however deep they may be nested. -/
lemma enter_keeps (sound : law.Sound) (hmove : ∀ m ∈ env.context.move, law.move m) (depth : Nat) :
    KeepsEntries law (enter env depth) := by
  have harity : ∀ fn args pos, Keeps law (fun _ => True) (checkArity fn args pos) := by
    intro fn args pos
    unfold checkArity
    split
    · exact .pure trivial
    · exact .fail
  -- the induction is on the calls that may still be nested: a body calls with one less
  induction depth with
  | zero =>
    intro fn args pos _
    exact .bind sound (harity fn args pos) fun _ _ => .fail
  | succ depth ih =>
    intro fn args pos hargs
    refine .bind sound (harity fn args pos) fun _ _ => ?_
    refine .bind sound .table fun t _ => ?_
    refine .bind sound (execAll_keeps sound (invoke_keeps sound ih) (scope_lawful hmove hargs) fn.body) ?_
    intro result hresult
    cases result with
    | none => exact .pure trivial
    | some v => exact .pure (hresult v rfl)

/-- The law that asks for nothing. -/
def Law.free : Law := ⟨fun _ => True, fun _ => True, fun _ => True⟩

/-- What asks for nothing is sound. -/
lemma Law.free_sound : Law.free.Sound := by
  constructor <;> simp [Law.free]

end Run

namespace Program

/-- An execution changes the table by steps only. -/
lemma execute_steps {p : Program} {depth : Nat} {fn : Function} {t t' : Table} {ctx : Context} {v : Value}
    {moves : Option (List String)} (h : p.execute depth fn t ctx = .ok (.committed t' v moves)) :
    Table.Steps t t' := by
  obtain ⟨args, _, h⟩ := bind_eq_ok.mp h
  split at h
  · next value work hr =>
    cases h
    exact (enter_keeps Law.free_sound (fun _ _ => trivial) depth fn args fn.pos
      (fun v _ => by cases v <;> trivial) trivial hr).1
  · cases h
  · cases h

end Program

end Croupier
