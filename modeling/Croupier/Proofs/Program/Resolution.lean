import Croupier.Proofs.Program.Deck
import Croupier.Proofs.Program.WellFormed
import Croupier.Proofs.Run.Point
import Croupier.Proofs.Run.Reference

/-!
# References resolve

At every point that a run of a program comes to, the values are valid and the table is laid for the program: this holds
where an execution starts, and what a task needs has it if the task does (`Needs.valid`). So every reference that turns
up leads to a stack that is there, unless it is to every player or to a player without a seat, and no execution fails
because a stack is missing (`references_resolve`).
-/

namespace Croupier

open Binding (Names)

namespace Run

variable {env : Env} {task task' : Task} {w w' : Work}

/-- A task is given valid values, and the names in what it is about are bound. -/
def Task.Valid (p : Program) : Task → Prop
  | eval _ scope e => ValidScope p scope ∧ BoundIn p e
  | evalAll _ scope es => ValidScope p scope ∧ ∀ part ∈ Expr.partsAll es, (Names.ofProgram p).Binds part
  | exec _ _ scope s => ValidScope p scope ∧ ∀ part ∈ s.parts, (Names.ofProgram p).Accepts part
  | execAll _ _ scope ss => ValidScope p scope ∧ ∀ part ∈ Stmt.partsAll ss, (Names.ofProgram p).Accepts part
  | call _ _ args _ => ∀ v ∈ args, p.Valid v
  | callback _ _ args _ => ∀ v ∈ args, p.Valid v
  | enter _ fn args _ => fn ∈ p.functions ∧ ∀ v ∈ args, p.Valid v

/-- All values that a valid task is given are valid. -/
lemma Task.Valid.given {p : Program} (h : task.Valid p) : ∀ v ∈ task.given, p.Valid v := by
  cases task with
  | eval d scope e => exact List.forall_mem_map.mpr h.1
  | evalAll d scope es => exact List.forall_mem_map.mpr h.1
  | exec d fn scope s => exact List.forall_mem_map.mpr h.1
  | execAll d fn scope ss => exact List.forall_mem_map.mpr h.1
  | call d name args pos => exact h
  | callback d name args pos => exact h
  | enter d fn args pos => exact h.2

/-- A valid task is done safely, and the values that it gives back are valid. -/
lemma Task.Valid.safe (hbound : Bound env.program) (h : task.Valid env.program) :
    Safe env.program (fun vs => ∀ v ∈ vs, env.program.Valid v) (task.run env) := by
  have hone : ∀ v, env.program.Valid v → Safe env.program (fun vs => ∀ v ∈ vs, env.program.Valid v) (pure [v]) :=
    fun v hv => .pure (List.forall_mem_singleton.mpr hv)
  have hresult : ∀ result, ValidResult env.program result →
      Safe env.program (fun vs => ∀ v ∈ vs, env.program.Valid v) (pure result.toList) :=
    fun result hr => .pure fun v hv => hr v (Option.mem_toList.mp hv)
  cases task with
  | eval d scope e => exact .bind (eval_safe (invoke_safe (enter_safe env hbound d)) h.1 e h.2) hone
  | evalAll d scope es => exact evalAll_safe (invoke_safe (enter_safe env hbound d)) h.1 es h.2
  | exec d fn scope s => exact .bind (exec_safe (invoke_safe (enter_safe env hbound d)) h.1 s h.2) hresult
  | execAll d fn scope ss => exact .bind (execAll_safe (invoke_safe (enter_safe env hbound d)) h.1 ss h.2) hresult
  | call d name args pos => exact .bind (invoke_safe (enter_safe env hbound d) name args pos h) hone
  | callback d name args pos => exact .bind (refer_safe (enter_safe env hbound d) name args pos h) hone
  | enter d fn args pos => exact .bind (enter_safe env hbound d fn h.1 args pos h.2) hone

/-- The names in the ends of a transfer and in its card set are bound. -/
lemma transfer_bound {p : Program} {source target : Expr} {amount : Amount} {pos : Pos}
    (h : ∀ part ∈ (Stmt.transfer source target amount pos).parts, (Names.ofProgram p).Accepts part) :
    BoundIn p source ∧ BoundIn p target ∧ ∀ e ∈ amount.exprs, BoundIn p e := by
  have hexprs := (List.forall_mem_singleton.mp h).2
  simp only [Stmt.exprs, List.forall_mem_cons] at hexprs
  exact hexprs

/-- What a built-in function calls back is given valid values, on a table that is laid for the program. -/
lemma CallsBack.valid {p : Program} {invoke : Invoke} (hcall : SafeCalls p invoke) {b : Builtin}
    {args args' : List Value} {pos : Pos} {name : String} (h : CallsBack invoke b args pos w name args' w')
    (hargs : ∀ v ∈ args, p.Valid v) (hw : p.Laid w.table) : (∀ v ∈ args', p.Valid v) ∧ p.Laid w'.table := by
  cases h with
  | count => exact ⟨List.forall_mem_nil _, hw⟩
  | getValue => exact ⟨List.forall_mem_nil _, hw⟩
  | handRank => exact ⟨List.forall_mem_nil _, hw⟩
  | cardsInStack hlocate =>
    have hr : p.Valid (.pile _) := hargs _ (List.mem_cons_of_mem _ List.mem_cons_self)
    exact ⟨List.forall_mem_nil _, ((locate_safe hr).ok hw hlocate).1⟩
  | filter => exact ⟨List.forall_mem_nil _, hw⟩
  | keep hcards hkeep =>
    have hw₁ := ((cardsOf_safe hcall (hargs _ List.mem_cons_self)).ok hw hcards).1
    exact ⟨List.forall_mem_singleton.mpr trivial, ((Builtin.keep_safe hcall).ok hw₁ hkeep).1⟩

/-- A function that a name calls is one of the program's. -/
lemma mem_functions_of_own? {name : String} {fn : Function} (h : env.own? name = some fn) :
    fn ∈ env.program.functions :=
  List.mem_of_find?_eq_some (Option.filter_eq_some_iff.mp h).1

/-- To evaluate an expression whose names are bound leaves the table laid for the program. -/
lemma eval_laid (hbound : Bound env.program) {d : Nat} {scope : Scope} {e : Expr} {v : Value}
    (hscope : ValidScope env.program scope) (he : BoundIn env.program e) (hw : env.program.Laid w.table)
    (h : eval env (env.call d) scope e w = .ok (v, w')) : env.program.Laid w'.table := by
  have hcalls : SafeCalls env.program (env.call d) := invoke_safe (enter_safe env hbound d)
  exact ((eval_safe hcalls hscope e he).ok hw h).1

/-- What a valid task needs is valid, and the table that it starts on is laid for the program. -/
lemma Needs.valid (hbound : Bound env.program) (h : Needs env task w task' w') (hv : task.Valid env.program)
    (hw : env.program.Laid w.table) : task'.Valid env.program ∧ env.program.Laid w'.table := by
  have hcalls : ∀ d, SafeCalls env.program (env.call d) := fun d => invoke_safe (enter_safe env hbound d)
  cases h with
  | base _ => exact ⟨⟨hv.1, (List.forall_mem_cons.mp hv.2).2⟩, hw⟩
  | args => exact ⟨⟨hv.1, (List.forall_mem_cons.mp hv.2).2⟩, hw⟩
  | call hargs =>
    obtain ⟨hw', hvs⟩ := (evalAll_safe (hcalls _) hv.1 _ (List.forall_mem_cons.mp hv.2).2).ok hw hargs
    exact ⟨hvs, hw'⟩
  | compareLeft =>
    obtain ⟨hleft, _⟩ := List.forall_mem_append.mp (List.forall_mem_cons.mp hv.2).2
    exact ⟨⟨hv.1, hleft⟩, hw⟩
  -- What runs first leaves a laid table, so what comes next starts on one.
  | compareRight hr =>
    obtain ⟨hleft, hright⟩ := List.forall_mem_append.mp (List.forall_mem_cons.mp hv.2).2
    exact ⟨⟨hv.1, hright⟩, eval_laid hbound hv.1 hleft hw hr⟩
  | joinLeft =>
    obtain ⟨hleft, _⟩ := List.forall_mem_append.mp (List.forall_mem_cons.mp hv.2).2
    exact ⟨⟨hv.1, hleft⟩, hw⟩
  | joinRight hr _ =>
    obtain ⟨hleft, hright⟩ := List.forall_mem_append.mp (List.forall_mem_cons.mp hv.2).2
    exact ⟨⟨hv.1, hright⟩, eval_laid hbound hv.1 hleft hw hr⟩
  | operand => exact ⟨⟨hv.1, (List.forall_mem_cons.mp hv.2).2⟩, hw⟩
  | firstArg => exact ⟨⟨hv.1, (List.forall_mem_append.mp hv.2).1⟩, hw⟩
  | otherArgs hr =>
    obtain ⟨he, hes⟩ := List.forall_mem_append.mp hv.2
    exact ⟨⟨hv.1, hes⟩, eval_laid hbound hv.1 he hw hr⟩
  | source =>
    obtain ⟨hsource, _, _⟩ := transfer_bound hv.2
    exact ⟨⟨hv.1, hsource⟩, hw⟩
  | target hr =>
    obtain ⟨hsource, htarget, _⟩ := transfer_bound hv.2
    exact ⟨⟨hv.1, htarget⟩, eval_laid hbound hv.1 hsource hw hr⟩
  | cards hr hr' _ _ =>
    obtain ⟨hsource, htarget, hcards⟩ := transfer_bound hv.2
    have hw₁ := eval_laid hbound hv.1 hsource hw hr
    have hw₂ := eval_laid hbound hv.1 htarget hw₁ hr'
    exact ⟨⟨hv.1, hcards _ List.mem_cons_self⟩, hw₂⟩
  | cardsCall hr hr' _ _ he =>
    obtain ⟨hsource, htarget, hcards⟩ := transfer_bound hv.2
    have hw₁ := eval_laid hbound hv.1 hsource hw hr
    have hw₂ := eval_laid hbound hv.1 htarget hw₁ hr'
    exact ⟨List.forall_mem_nil _, eval_laid hbound hv.1 (hcards _ List.mem_cons_self) hw₂ he⟩
  | checked => exact ⟨⟨hv.1, (List.forall_mem_singleton.mp hv.2).2 _ List.mem_cons_self⟩, hw⟩
  | returned => exact ⟨⟨hv.1, (List.forall_mem_singleton.mp hv.2).2 _ List.mem_cons_self⟩, hw⟩
  | called => exact ⟨⟨hv.1, (List.forall_mem_singleton.mp hv.2).2 _ List.mem_cons_self⟩, hw⟩
  | condition => exact ⟨⟨hv.1, (List.forall_mem_cons.mp hv.2).1.2 _ List.mem_cons_self⟩, hw⟩
  | body hr =>
    obtain ⟨⟨_, hcondition⟩, hbody⟩ := List.forall_mem_cons.mp hv.2
    have hw' := eval_laid hbound hv.1 (hcondition _ List.mem_cons_self) hw hr
    exact ⟨⟨hv.1, hbody⟩, hw'⟩
  | firstStmt => exact ⟨⟨hv.1, (List.forall_mem_append.mp hv.2).1⟩, hw⟩
  | otherStmts hr =>
    obtain ⟨hs, hss⟩ := List.forall_mem_append.mp hv.2
    exact ⟨⟨hv.1, hss⟩, ((exec_safe (hcalls _) hv.1 _ hs).ok hw hr).1⟩
  | own hfn => exact ⟨⟨mem_functions_of_own? hfn, hv⟩, hw⟩
  | callback _ hback =>
    obtain ⟨hargs, hw'⟩ := hback.valid (refer_safe (enter_safe env hbound _)) hv hw
    exact ⟨hargs, hw'⟩
  | ownCallback hfn => exact ⟨⟨mem_functions_of_own? hfn, hv⟩, hw⟩
  | enter _ => exact ⟨⟨validScope_scope hv.2, hbound _ hv.1⟩, hw⟩

/-- At every point that a run comes to, the task is valid and the table is laid for the program. -/
lemma ComesTo.valid (hbound : Bound env.program) {point point' : Task × Work} (h : ComesTo env point point')
    (hv : point.1.Valid env.program) (hw : env.program.Laid point.2.table) :
    point'.1.Valid env.program ∧ env.program.Laid point'.2.table := by
  induction h with
  | refl => exact ⟨hv, hw⟩
  | tail _ hneeds ih => exact hneeds.valid hbound ih.1 ih.2

end Run

/-- The references of a value lead to stacks of a table, except that a player may have no seat; players are counted from
one. -/
def Value.Resolves (t : Table) : Value → Prop
  | player id => 1 ≤ id
  | pile (.shared name) => (t.sharedPlace? name).isSome = true
  | pile (.ofPlayer id name) =>
    1 ≤ id ∧ (id ≤ t.players → ((t.seat? id).bind fun seat => t.seatPlace? seat name).isSome = true)
  | pile (.everyPlayer name) => ∀ seat < t.players, (t.seatPlace? seat name).isSome = true
  | _ => True

namespace Program

open Run

variable {p : Program} {t : Table}

/-- A valid value resolves on every table that is laid for the program. -/
lemma Valid.resolves {v : Value} (hv : p.Valid v) (ht : p.Laid t) : v.Resolves t := by
  cases v with
  | player id => exact hv
  | pile r =>
    cases r with
    | shared name => exact ht.sharedPlace? hv
    | ofPlayer id name =>
      obtain ⟨hid, hname⟩ := hv
      refine ⟨hid, fun hle => ?_⟩
      have hseat : t.seat? id = some (id - 1) := Table.seat?_eq_some_iff.mpr ⟨by omega, by omega⟩
      rw [hseat]
      exact ht.seatPlace? hname (by omega)
    | everyPlayer name => exact fun seat hlt => ht.seatPlace? hv hlt
  | _ => trivial

/-- A new table is laid for the program. -/
lemma laid_of_layTable {deck : Pile} {seed : UInt64} (h : p.layTable deck seed = .ok t) : p.Laid t := by
  obtain ⟨hone, hle, rfl⟩ := Table.lay_ok h
  constructor
  case seated =>
    simp only [Table.players, List.length_replicate]
    omega
  case shared =>
    intro name hname
    rw [Table.mem_places]
    exact Rack.pile?_isSome.mpr (by simpa using hname)
  case seats =>
    intro seat hlt name hname
    simp only [Table.players, List.length_replicate] at hlt
    rw [Table.mem_places]
    have hrack : ((Rack.ofNames p.playerStacks).pile? name).isSome = true :=
      Rack.pile?_isSome.mpr (by simpa using hname)
    simpa [Table.pile?, hlt] using hrack

/-- The tables that executions of a program's functions lead to from a new table. -/
inductive Reaches (p : Program) : Table → Prop where
  | new {depth : Nat} {seed : UInt64} {t : Table} : p.newTable depth seed = .ok t → Reaches p t
  | execute {depth : Nat} {fn : Function} {ctx : Context} {t t' : Table} {v : Value} {moves : Option (List String)} :
    Reaches p t → fn ∈ p.functions → p.execute depth fn t ctx = .ok (.committed t' v moves) → Reaches p t'

/-- A table that executions lead to is laid for the program. -/
lemma Reaches.laid (h : p.Reaches t) : p.Laid t := by
  induction h with
  | new hnew =>
    obtain ⟨_, _, _, _, hlay, _⟩ := newTable_ok hnew
    exact laid_of_layTable hlay
  | execute _ _ hexecute ih => exact ih.of_sameLayout (execute_steps hexecute).sameLayout

/-- An execution starts with valid values. -/
lemma executionArgs_valid {fn : Function} {ctx : Context} {args : List Value} (h : executionArgs fn ctx t = .ok args) :
    ∀ v ∈ args, p.Valid v := by
  unfold executionArgs at h
  simp only at h
  split at h
  · cases h
  · cases h
    intro v hv
    have hmem := List.mem_of_mem_take hv
    simp only [List.mem_cons, List.not_mem_nil, or_false] at hmem
    rcases hmem with rfl | rfl
    · exact one_le_actor ctx t
    · exact valid_moveValue ctx

/-- The names in the functions and in the deck of a program that is read off a source are bound. -/
lemma bound_of_source {source : List Char} (h : ofSource source = .ok p) : Bound p ∧ BoundIn p p.deck := by
  obtain ⟨_, hbinds, hjoins⟩ := ofSource_ok h
  constructor
  · intro fn hfn part hpart
    have hs : part ∈ p.stmts := List.mem_flatMap.mpr ⟨fn, hfn, hpart⟩
    refine ⟨hjoins part hs, fun e he q hq => hbinds q ?_⟩
    apply List.mem_append_right
    exact List.mem_flatMap.mpr ⟨part, hs, List.mem_flatMap.mpr ⟨e, he, hq⟩⟩
  · intro q hq
    exact hbinds q (List.mem_append_left _ hq)

/-- An execution of a function whose names are bound does not fail because a stack is missing. -/
lemma execute_not_dangling (hbound : Bound p) (ht : p.Laid t) {fn : Function} (hfn : fn ∈ p.functions) {depth : Nat}
    {ctx : Context} {fault : Fault} (h : p.execute depth fn t ctx = .error fault) : fault.isDangling = false := by
  rcases bind_eq_error.mp h with hargs | ⟨args, hargs, hrun⟩
  · unfold executionArgs at hargs
    simp only at hargs
    split at hargs
    · cases hargs
      rfl
    · cases hargs
  · have henter : SafeEntries p (enter ⟨p, ctx⟩ depth) := enter_safe ⟨p, ctx⟩ hbound depth
    have hsafe := henter fn hfn args fn.pos (executionArgs_valid hargs) ⟨t, none⟩ ht
    split at hrun
    · cases hrun
    · cases hrun
    · next f _ hf =>
      cases hrun
      exact hsafe.2 _ hf

/-- The deck of a program whose names are bound is evaluated without missing a stack. -/
lemma newTable_not_dangling (hbound : Bound p) (hdeck : BoundIn p p.deck) {depth : Nat} {seed : UInt64} {fault : Fault}
    (h : p.newTable depth seed = .error (.deck fault)) : fault.isDangling = false := by
  have hcalls := invoke_safe (enter_safe ⟨p, {}⟩ hbound depth)
  have hsafe : Safe p (fun _ => True) (p.evalDeck depth) := by
    refine .bind .table fun t _ => ?_
    have hscope : ValidScope p (({} : Context).scope [] [] t) := validScope_scope (List.forall_mem_nil _)
    refine .bind (eval_safe hcalls hscope p.deck hdeck) fun v hv => ?_
    exact cardsOf_safe hcalls hv
  rcases bind_eq_error.mp h with hlay | ⟨empty, hempty, h⟩
  · obtain ⟨_, _, he⟩ := mapError_eq_error.mp hlay
    cases he
  rcases bind_eq_error.mp h with hbuild | ⟨deck, _, hlay⟩
  · obtain ⟨f, hf, he⟩ := mapError_eq_error.mp hbuild
    cases he
    have hlaid : p.Laid empty := laid_of_layTable (mapError_eq_ok.mp hempty)
    unfold buildDeck at hf
    cases hr : p.evalDeck depth ⟨empty, none⟩ with
    | ok r =>
      rw [hr] at hf
      cases hf
    | error f' =>
      rw [hr] at hf
      cases hf
      exact (hsafe ⟨empty, none⟩ hlaid).2 fault hr
  · obtain ⟨_, _, he⟩ := mapError_eq_error.mp hlay
    cases he

/-- References resolve: on every table that a program reaches, at every point that an execution of one of its functions
comes to, a reference that turns up leads to a stack that is there, unless its player has no seat, and players are
counted from one. So neither an execution nor the deck fails because a stack is missing. -/
theorem references_resolve {source : List Char} (hp : ofSource source = .ok p) :
    (∀ t, p.Reaches t → ∀ fn ∈ p.functions, ∀ (ctx : Context) (depth : Nat),
      (∀ args, executionArgs fn ctx t = .ok args → ∀ point v t',
        ComesTo ⟨p, ctx⟩ (.enter depth fn args fn.pos, ⟨t, none⟩) point → TurnsUp ⟨p, ctx⟩ point v t' →
        v.Resolves t') ∧
      ∀ fault, p.execute depth fn t ctx = .error fault → fault.isDangling = false) ∧
    ∀ depth seed fault, p.newTable depth seed = .error (.deck fault) → fault.isDangling = false := by
  obtain ⟨hbound, hdeck⟩ := bound_of_source hp
  refine ⟨?_, fun depth seed fault h => newTable_not_dangling hbound hdeck h⟩
  intro t ht fn hfn ctx depth
  refine ⟨?_, fun fault h => execute_not_dangling hbound ht.laid hfn h⟩
  intro args hargs point v t' hcomes hturns
  -- What a task is given is valid on the table that it starts on, what it gives back on the table that it leaves.
  obtain ⟨hvalid, hlaid⟩ := hcomes.valid hbound ⟨hfn, executionArgs_valid hargs⟩ ht.laid
  cases hturns with
  | given hv => exact (hvalid.given v hv).resolves hlaid
  | result hr hv =>
    obtain ⟨hlaid', hvs⟩ := (hvalid.safe hbound).ok hlaid hr
    exact (hvs v hv).resolves hlaid'

/-- Tells whether all that a function does is to deal from the deck to the hand of every player. -/
def dealsHands (fn : Function) : Bool :=
  match fn.params, fn.body with
  | [], [.transfer (.name "deck" _) (.field (.name "players" _) "hand" _) _ _] => true
  | _, _ => false

/-- When the cards are dealt, the run comes to the target of the deal, and the stacks of every player turn up there. -/
theorem sweep_references_resolve : ∃ p t fn, ∃ point : Task × Work, ofSource sweep.toList = .ok p ∧ p.Reaches t ∧
    fn ∈ p.functions ∧ ComesTo ⟨p, {}⟩ (.enter 8 fn [] fn.pos, ⟨t, none⟩) point ∧
    TurnsUp ⟨p, {}⟩ point (.pile (.everyPlayer "hand")) t ∧ (Value.pile (.everyPlayer "hand")).Resolves t := by
  have hrun : (ofSource sweep.toList).toOption.any (fun p =>
      (p.newTable 8 1).toOption.any fun _ => p.functions.any dealsHands) = true := by
    rw [sweep, String.toList_ofList]
    decide +kernel
  obtain ⟨p, hp, hrun⟩ := exists_of_any hrun
  obtain ⟨t, ht, hrun⟩ := exists_of_any hrun
  obtain ⟨⟨name, params, body, fnPos⟩, hfn, hrun⟩ := List.any_eq_true.mp hrun
  dsimp only [dealsHands] at hrun
  split at hrun
  · next sourcePos basePos targetPos amount pos =>
    let env : Env := ⟨p, {}⟩
    let w : Work := ⟨t, none⟩
    let scope := env.context.scope [] [] t
    let target : Expr := .field (.name "players" basePos) "hand" targetPos
    let deal : Stmt := .transfer (.name "deck" sourcePos) target amount pos
    let setup : Function := ⟨name, [], [deal], fnPos⟩
    have hdeck : eval env (env.call 7) scope (.name "deck" sourcePos) w = .ok (.pile (.shared "deck"), w) := rfl
    have hbody : ComesTo env (.enter 8 setup [] fnPos, w) (.execAll 7 name scope [deal], w) := .single (.enter rfl)
    have hdeal : ComesTo env (.enter 8 setup [] fnPos, w) (.exec 7 name scope deal, w) := hbody.tail .firstStmt
    have htarget : ComesTo env (.enter 8 setup [] fnPos, w) (.eval 7 scope target, w) := hdeal.tail (.target hdeck)
    have hgives : (Task.eval 7 scope target).run env w = .ok ([.pile (.everyPlayer "hand")], w) := rfl
    have hstacks : TurnsUp env (.eval 7 scope target, w) (.pile (.everyPlayer "hand")) w.table :=
      .result hgives List.mem_cons_self
    have hresolves := ((references_resolve hp).1 t (.new ht) setup hfn {} 8).1 [] rfl _ _ _ htarget hstacks
    exact ⟨p, t, setup, _, hp, .new ht, hfn, htarget, hstacks, hresolves⟩
  · cases hrun

end Program

end Croupier
