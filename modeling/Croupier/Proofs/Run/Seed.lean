import Croupier.Proofs.Program.Binding
import Croupier.Proofs.Run.Law
import Croupier.Run.Execute

/-!
# Runs that do not draw

Random numbers are drawn by the built-in function that shuffles, and by nothing else. A run is seedless if it does the
same whatever the generator of its table, and leaves the generator alone (`Seedless`). This passes through the sequence
of two runs if the second is given no way to shuffle, so the values of a run must be watched: the only one that could
call the built-in function is the function value of its name (`Value.NoShuffle`), and such a value comes from an
expression that uses the name (`Expr.uses`). The evaluator of a program whose expressions do not use it is seedless, and
so are its executions (`execute_reseed`), the evaluation of its deck and the laying of its table (`newTable_reseed`).
-/

namespace Croupier

/-- The table with another generator. -/
def Table.reseed (t : Table) (g : Generator) : Table := { t with generator := g }

namespace Table

variable (t : Table) (g : Generator)

/-- A pile is put on a table with another generator as it is on the table. -/
lemma put_reseed (q : Pile) (p : Place) : (t.reseed g).put q p = (t.put q p).reseed g := by
  cases p <;> rfl

/-- Cards are pushed on a table with another generator as they are on the table. -/
lemma push_reseed (cs : List Card) (p : Place) : (t.reseed g).push cs p = (t.push cs p).reseed g :=
  put_reseed t g _ p

/-- A player wins on a table with another generator if they win on the table. -/
lemma win?_reseed (id : Int) : (t.reseed g).win? id = (t.win? id).map (·.reseed g) := by
  have hseat : (t.reseed g).seat? id = t.seat? id := rfl
  unfold win?
  rw [hseat]
  cases t.seat? id with
  | none => rfl
  | some seat =>
    by_cases hwon : t.winners.contains (seat + 1)
    · simp only [Option.bind_eq_bind, Option.bind_some, reseed, hwon, if_true, Option.map_some]
    · simp only [Option.bind_eq_bind, Option.bind_some, reseed, hwon, if_false, Option.map_some, Bool.false_eq_true]

end Table

/-- The work on a table with another generator. -/
def Work.reseed (w : Work) (g : Generator) : Work := { w with table := w.table.reseed g }

/-- A value other than the function that shuffles. -/
def Value.NoShuffle (v : Value) : Prop := v ≠ .function Builtin.shuffle.name

/-- A function that may be called does not have the name of the one that shuffles. -/
lemma Value.NoShuffle.name_ne {name : String} (h : (Value.function name).NoShuffle) : name ≠ Builtin.shuffle.name :=
  fun he => h (congrArg _ he)

/-- Tells whether an expression itself, without the expressions in it, is a given name or calls it. -/
def Expr.uses (word : String) : Expr → Bool
  | name id _ => id = word
  | call fn _ _ => fn = word
  | _ => false

namespace Run

variable {α β : Type}

/-- A run does the same whatever the generator, which it leaves alone, and its result has a given property. -/
def Seedless (post : α → Prop) (m : Run α) : Prop :=
  ∀ w, (∀ g, m (w.reseed g) = (m w).map fun r => (r.1, r.2.reseed g)) ∧ ∀ a w', m w = .ok (a, w') → post a

namespace Seedless

variable {post : α → Prop} {post' : β → Prop} {m : Run α}

/-- A result as such is seedless. -/
lemma pure {a : α} (h : post a) : Seedless post (pure a) := by
  intro w
  refine ⟨fun g => rfl, ?_⟩
  intro b w' hr
  obtain ⟨rfl, rfl⟩ := pure_ok.mp hr
  exact h

/-- A fault is seedless. -/
lemma fail {f : Fault} : Seedless post (Run.fail f) := fun _ => ⟨fun _ => rfl, nofun⟩

/-- A mismatch is seedless. -/
lemma mismatch {op want : String} {got : Value} {pos : Pos} : Seedless post (Run.mismatch op want got pos) := fail

/-- To declare actions is seedless. -/
lemma declare {names : List String} : Seedless (fun _ => True) (Run.declare names) :=
  fun _ => ⟨fun _ => rfl, fun _ _ _ => trivial⟩

/-- A change of the table that does not touch the generator. -/
lemma modifyTable {f : Table → Table} (hf : ∀ t g, f (t.reseed g) = (f t).reseed g) :
    Seedless (fun _ => True) (Run.modifyTable f) := by
  intro w
  refine ⟨fun g => ?_, fun _ _ _ => trivial⟩
  show Except.ok ((), { w.reseed g with table := f (w.table.reseed g) }) = _
  rw [hf]
  rfl

/-- A sequence is seedless if both parts are. -/
lemma bind {f : α → Run β} (hm : Seedless post m) (hf : ∀ a, post a → Seedless post' (f a)) :
    Seedless post' (m >>= f) := by
  intro w
  obtain ⟨hsame, hpost⟩ := hm w
  cases hr : m w with
  | error e =>
    rw [hr] at hsame
    refine ⟨fun g => ?_, ?_⟩
    · rw [bind_of_error hr, bind_of_error (hsame g)]
      rfl
    · intro b w' hb
      rw [bind_of_error hr] at hb
      cases hb
  | ok r =>
    obtain ⟨a, w'⟩ := r
    rw [hr] at hsame
    obtain ⟨hsame', hpost'⟩ := hf a (hpost a w' hr) w'
    refine ⟨fun g => ?_, ?_⟩
    · rw [bind_of_ok hr, bind_of_ok (hsame g)]
      exact hsame' g
    · intro b w'' hb
      rw [bind_of_ok hr] at hb
      exact hpost' b w'' hb

/-- A run that looks at the table is seedless if it does not look at the generator. -/
lemma ofTable {f : Table → Run β} (hsame : ∀ t g, f (t.reseed g) = f t) (hf : ∀ t, Seedless post' (f t)) :
    Seedless post' (Run.table >>= f) := by
  intro w
  have htable : ∀ w, Run.table w = .ok (w.table, w) := fun _ => rfl
  rw [bind_of_ok (htable w)]
  refine ⟨fun g => ?_, (hf w.table w).2⟩
  rw [bind_of_ok (htable (w.reseed g))]
  show f (w.table.reseed g) _ = _
  rw [hsame]
  exact (hf w.table w).1 g

end Seedless

/-- Calls of any other function than the one that shuffles are seedless, unless an argument is that function. -/
def SeedlessCalls (call : Invoke) : Prop :=
  ∀ name args pos, name ≠ Builtin.shuffle.name → (∀ v ∈ args, v.NoShuffle) →
    Seedless Value.NoShuffle (call name args pos)

variable {eval : Expr → Run Value} {call : Invoke}

/-- To locate a pile is seedless. -/
lemma locate_seedless {r : PileRef} {pos : Pos} : Seedless (fun _ => True) (locate r pos) := by
  refine .ofTable (fun t g => rfl) fun t => ?_
  cases r with
  | everyPlayer name => exact .fail
  | ofPlayer id name =>
    dsimp only
    split
    · exact .fail
    · split
      · exact .fail
      · exact .pure trivial
  | shared name =>
    dsimp only
    split
    · exact .fail
    · exact .pure trivial

/-- To look at a pile is seedless. -/
lemma pileAt_seedless {p : Place} : Seedless (fun _ => True) (pileAt p) := by
  refine .ofTable (fun t g => ?_) fun t => .pure trivial
  cases p <;> rfl

/-- To find the cards that a value holds is seedless. -/
lemma heldCards_seedless {op : String} {v : Value} {pos : Pos} : Seedless (fun _ => True) (heldCards op v pos) := by
  cases v with
  | cards cs => exact .pure trivial
  | card c => exact .pure trivial
  | pile r => exact .bind locate_seedless fun place _ => pileAt_seedless
  | _ => exact .mismatch

/-- To find the cards that a value stands for is seedless, if calls are. -/
lemma cardsOf_seedless (hcall : SeedlessCalls call) {op : String} {v : Value} (hv : v.NoShuffle) {pos : Pos} :
    Seedless (fun _ => True) (cardsOf call op v pos) := by
  unfold cardsOf
  split
  · next name => exact .bind (hcall name [] pos hv.name_ne (List.forall_mem_nil _)) fun _ _ => heldCards_seedless
  · exact heldCards_seedless

/-- To compare values is seedless. -/
lemma equal_seedless {a b : Value} {pos : Pos} : Seedless (fun _ => True) (equal a b pos) := by
  unfold equal
  split
  · exact .pure trivial
  · exact .pure trivial
  · exact .pure trivial
  · exact .pure trivial
  · exact .pure trivial
  · split
    · exact .pure trivial
    split
    · exact .bind heldCards_seedless fun x _ => .bind heldCards_seedless fun y _ => .pure trivial
    · exact .fail

/-- To ask for a truth value is seedless. -/
lemma truth_seedless {op : String} {v : Value} {pos : Pos} : Seedless (fun _ => True) (truth op v pos) := by
  cases v with
  | bool b => exact .pure trivial
  | _ => exact .mismatch

/-- To take cards from a pile is seedless. -/
lemma takeFrom_seedless {r : PileRef} {place : Place} {n : Int} {pos : Pos} :
    Seedless (fun _ => True) (takeFrom r place n pos) := by
  refine .bind pileAt_seedless fun pile _ => ?_
  split
  · exact .fail
  · next left _ =>
    exact .bind (.modifyTable fun t g => t.put_reseed g left place) fun _ _ => .pure trivial

/-- To deal cards is seedless. -/
lemma dealFrom_seedless {name : String} {pos : Pos} {turn : Nat} {cs : List Card} :
    Seedless (fun _ => True) (dealFrom name pos turn cs) := by
  induction cs generalizing turn with
  | nil => exact .pure trivial
  | cons c cs ih =>
    refine .ofTable (fun t g => rfl) fun t => ?_
    split
    · exact .fail
    · next place _ => exact .bind (.modifyTable fun t g => t.push_reseed g [c] place) fun _ _ => ih

/-- To move a set of cards is seedless. -/
lemma moveThese_seedless {fn : String} {r : PileRef} {source target : Place} {cs : List Card} {pos : Pos} :
    Seedless (fun _ => True) (moveThese fn r source target cs pos) := by
  refine .bind pileAt_seedless fun pile _ => ?_
  split
  · exact .fail
  · next rest _ =>
    refine .bind (.modifyTable fun t g => t.put_reseed g rest source) fun _ _ => ?_
    exact .modifyTable fun t g => t.push_reseed g cs target

/-- To ask for a reference is seedless. -/
lemma pileRef_seedless {op : String} {v : Value} {pos : Pos} : Seedless (fun _ => True) (pileRef op v pos) := by
  cases v with
  | pile r => exact .pure trivial
  | _ => exact .mismatch

/-- To move cards to a pile is seedless, if the amount is evaluated so. -/
lemma moveTo_seedless (hcall : SeedlessCalls call) {fn : String} {r targetRef : PileRef} {source : Place}
    {targetPos pos : Pos} {amount : Amount} (hcards : ∀ e ∈ amount.exprs, Seedless Value.NoShuffle (eval e)) :
    Seedless (fun _ => True) (moveTo eval call fn r source targetRef targetPos amount pos) := by
  refine .bind locate_seedless fun target _ => ?_
  cases amount with
  | these e =>
    refine .bind (hcards e List.mem_cons_self) fun v hv => ?_
    refine .bind (cardsOf_seedless hcall hv) fun cs _ => ?_
    exact moveThese_seedless
  | _ =>
    refine .bind pileAt_seedless fun pile _ => ?_
    refine .bind takeFrom_seedless fun taken _ => ?_
    exact .modifyTable fun t g => t.push_reseed g taken target

/-- To move cards between two piles is seedless, if the amount is evaluated so. -/
lemma transferBetween_seedless (hcall : SeedlessCalls call) {fn : String} {r targetRef : PileRef} {source : Place}
    {targetPos pos : Pos} {amount : Amount} (hcards : ∀ e ∈ amount.exprs, Seedless Value.NoShuffle (eval e)) :
    Seedless (fun _ => True) (transferBetween eval call fn r source targetRef targetPos amount pos) := by
  cases targetRef with
  | everyPlayer name =>
    refine .bind pileAt_seedless fun pile _ => ?_
    refine .ofTable (fun t g => rfl) fun t => ?_
    exact .bind takeFrom_seedless fun dealt _ => dealFrom_seedless
  | shared name => exact moveTo_seedless hcall hcards
  | ofPlayer id name => exact moveTo_seedless hcall hcards

/-- A transfer is seedless, if its expressions are evaluated so. -/
lemma transfer_seedless (hcall : SeedlessCalls call) {fn : String} {source target : Expr} {amount : Amount} {pos : Pos}
    (heval : ∀ e ∈ (Stmt.transfer source target amount pos).exprs, Seedless Value.NoShuffle (eval e)) :
    Seedless (fun _ => True) (transfer eval call fn source target amount pos) := by
  simp only [Stmt.exprs, List.forall_mem_cons] at heval
  obtain ⟨hsource, htarget, hcards⟩ := heval
  refine .bind hsource fun v _ => ?_
  refine .bind pileRef_seedless fun sourceRef _ => ?_
  refine .bind htarget fun v _ => ?_
  refine .bind pileRef_seedless fun targetRef _ => ?_
  refine .bind locate_seedless fun place _ => ?_
  exact transferBetween_seedless hcall hcards

end Run

namespace Builtin

open Run

variable {call : Invoke}

/-- To keep the cards that a predicate holds of is seedless, if the predicate does not shuffle. -/
lemma keep_seedless (hcall : SeedlessCalls call) {predicate : String} (hp : predicate ≠ shuffle.name) {pos : Pos}
    {cs : List Card} : Seedless (fun _ => True) (keep call predicate pos cs) := by
  induction cs with
  | nil => exact .pure trivial
  | cons c cs ih =>
    refine .bind (hcall predicate [.card c] pos hp (List.forall_mem_singleton.mpr nofun)) fun v _ => ?_
    cases v with
    | bool keeps => exact .bind ih fun rest _ => .pure trivial
    | _ => exact .mismatch

/-- To read the names of actions is seedless. -/
lemma actionNames_seedless {pos : Pos} {args : List Value} : Seedless (fun _ => True) (actionNames pos args) := by
  induction args with
  | nil => exact .pure trivial
  | cons v vs ih =>
    cases v with
    | symbol name => exact .bind ih fun names _ => .pure trivial
    | function name => exact .bind ih fun names _ => .pure trivial
    | _ => exact .mismatch

/-- To read the number of a player is seedless. -/
lemma playerNumber_seedless {v : Value} {pos : Pos} : Seedless (fun _ => True) (playerNumber v pos) := by
  cases v with
  | number n => exact .pure trivial
  | player id => exact .pure trivial
  | _ => exact .mismatch

/-- To declare a winner is seedless. -/
lemma win_seedless {id : Int} {fault : Fault} : Seedless Value.NoShuffle (do
    let t ← table
    match t.win? id with
    | some t => do
      modifyTable fun _ => t
      pure .empty
    | none => fail fault) := by
  -- the table that is put back is the one that was read, with its generator
  intro w
  have htable : ∀ w, Run.table w = .ok (w.table, w) := fun _ => rfl
  rw [bind_of_ok (htable w)]
  refine ⟨fun g => ?_, ?_⟩
  · rw [bind_of_ok (htable (w.reseed g))]
    have hwin : (w.reseed g).table.win? id = (w.table.win? id).map (·.reseed g) := w.table.win?_reseed g id
    rw [hwin]
    cases w.table.win? id with
    | none => rfl
    | some t => rfl
  · intro v w' h
    cases hwin : w.table.win? id with
    | none =>
      rw [hwin] at h
      cases h
    | some t =>
      rw [hwin] at h
      cases h
      exact nofun

/-- A built-in function that does not shuffle is seedless. -/
lemma call_seedless (hcall : SeedlessCalls call) {b : Builtin} (hb : b ≠ shuffle) {args : List Value} {pos : Pos}
    (hargs : ∀ v ∈ args, v.NoShuffle) : Seedless Value.NoShuffle (b.call call args pos) := by
  unfold Builtin.call
  split
  · exact .pure nofun
  · next source predicate =>
    refine .bind (cardsOf_seedless hcall (hargs source (by simp))) fun cs _ => ?_
    have hpredicate := hargs predicate (by simp)
    cases predicate with
    | function name => exact .bind (keep_seedless hcall hpredicate.name_ne) fun kept _ => .pure nofun
    | _ => exact .mismatch
  · next v => exact .bind (cardsOf_seedless hcall (hargs v (by simp))) fun cs _ => .pure nofun
  · next v stack =>
    cases stack with
    | pile r =>
      refine .bind locate_seedless fun place _ => ?_
      refine .bind (cardsOf_seedless hcall (hargs v (by simp))) fun cs _ => ?_
      exact .bind pileAt_seedless fun pile _ => .pure nofun
    | _ => exact .mismatch
  · next v => exact .bind (cardsOf_seedless hcall (hargs v (by simp))) fun cs _ => .pure nofun
  · exact .bind actionNames_seedless fun names _ => .bind .declare fun _ _ => .pure nofun
  · exact absurd rfl hb
  · exact .bind (.modifyTable fun t g => rfl) fun _ _ => .pure nofun
  · next v => exact .bind playerNumber_seedless fun id _ => win_seedless
  · next v =>
    refine .bind (cardsOf_seedless hcall (hargs v (by simp))) fun cs _ => ?_
    split
    · exact .pure nofun
    · exact .fail
  · exact .bind (.modifyTable fun t g => rfl) fun _ _ => .pure nofun
  · exact .fail

/-- A function with another name is not the one that shuffles. -/
lemma ne_shuffle_of_ofName? {name : String} {b : Builtin} (hn : name ≠ shuffle.name) (h : ofName? name = some b) :
    b ≠ shuffle := by
  rintro rfl
  have hname := List.find?_some h
  exact hn (of_decide_eq_true hname).symm

end Builtin

namespace Run

variable {env : Env} {call : Invoke} {scope : Scope}

/-- No local name has the function that shuffles as its value. -/
def NoShuffleScope (scope : Scope) : Prop := ∀ e ∈ scope, e.2.NoShuffle

/-- A name other than that of the function that shuffles is resolved without a draw. -/
lemma resolve_seedless (hscope : NoShuffleScope scope) {name : String} (hn : name ≠ Builtin.shuffle.name) :
    Seedless Value.NoShuffle (resolve env scope name) := by
  refine .ofTable (fun t g => rfl) fun t => ?_
  split
  · next v hv =>
    obtain ⟨before, after, he, _⟩ := List.lookup_eq_some_iff.mp hv
    exact .pure (hscope (name, v) (by simp [he]))
  · -- only a name that can be called means a function, and this name does not mean the one that shuffles
    split_ifs <;> refine .pure ?_ <;> rintro ⟨⟩
    exact hn rfl

/-- A field is not a function. -/
lemma select_seedless {v : Value} {key : String} {pos : Pos} : Seedless Value.NoShuffle (select env v key pos) := by
  refine .ofTable (fun t g => ?_) fun t => ?_
  · cases v <;> rfl
  · simp only
    split
    · next x hx =>
      refine .pure ?_
      rintro rfl
      cases v with
      | player id =>
        simp only [playerField?] at hx
        split_ifs at hx <;> cases hx
      | move m =>
        simp only [moveField?] at hx
        split_ifs at hx <;> cases hx
      | card c =>
        simp only [cardField?] at hx
        split_ifs at hx <;> cases hx
      | _ => cases hx
    · exact .mismatch

mutual

/-- The evaluation of an expression that does not use the name of the function that shuffles. -/
lemma eval_seedless (hcall : SeedlessCalls call) (hscope : NoShuffleScope scope) :
    ∀ e : Expr, (∀ part ∈ e.parts, part.uses Builtin.shuffle.name = false) →
      Seedless Value.NoShuffle (eval env call scope e)
  | .name id pos, hu => by
    rw [eval]
    exact resolve_seedless hscope (of_decide_eq_false (hu _ List.mem_cons_self))
  | .int n pos, _ => by
    rw [eval]
    exact .pure nofun
  | .field base key pos, hu => by
    rw [eval]
    split
    · exact .pure nofun
    · exact .bind (eval_seedless hcall hscope base (List.forall_mem_cons.mp hu).2) fun v _ => select_seedless
  | .call fn args pos, hu => by
    obtain ⟨hfn, hargs⟩ := List.forall_mem_cons.mp hu
    rw [eval]
    refine .bind (evalAll_seedless hcall hscope args hargs) fun vs hvs => ?_
    exact hcall fn vs pos (of_decide_eq_false hfn) hvs
  | .compare left right negate pos, hu => by
    obtain ⟨hleft, hright⟩ := List.forall_mem_append.mp (List.forall_mem_cons.mp hu).2
    rw [eval]
    refine .bind (eval_seedless hcall hscope left hleft) fun a _ => ?_
    refine .bind (eval_seedless hcall hscope right hright) fun b _ => ?_
    exact .bind equal_seedless fun same _ => .pure nofun
  | .join op left right pos, hu => by
    obtain ⟨hleft, hright⟩ := List.forall_mem_append.mp (List.forall_mem_cons.mp hu).2
    rw [eval]
    refine .bind (eval_seedless hcall hscope left hleft) fun v _ => ?_
    refine .bind truth_seedless fun a _ => ?_
    split
    · exact .pure nofun
    · refine .bind (eval_seedless hcall hscope right hright) fun v _ => ?_
      exact .bind truth_seedless fun b _ => .pure nofun
  | .not operand pos, hu => by
    rw [eval]
    refine .bind (eval_seedless hcall hscope operand (List.forall_mem_cons.mp hu).2) fun v _ => ?_
    exact .bind truth_seedless fun b _ => .pure nofun

/-- Expressions that do not use the name of the function that shuffles are evaluated without a draw. -/
lemma evalAll_seedless (hcall : SeedlessCalls call) (hscope : NoShuffleScope scope) :
    ∀ es : List Expr, (∀ part ∈ Expr.partsAll es, part.uses Builtin.shuffle.name = false) →
      Seedless (fun vs => ∀ v ∈ vs, v.NoShuffle) (evalAll env call scope es)
  | [], _ => by
    rw [evalAll]
    exact .pure (List.forall_mem_nil _)
  | e :: es, hu => by
    obtain ⟨he, hes⟩ := List.forall_mem_append.mp hu
    rw [evalAll]
    refine .bind (eval_seedless hcall hscope e he) fun v hv => ?_
    refine .bind (evalAll_seedless hcall hscope es hes) fun vs hvs => ?_
    exact .pure (List.forall_mem_cons.mpr ⟨hv, hvs⟩)

end

/-- The expressions of a statement itself do not use the name of the function that shuffles. -/
def NoShuffleStmt (s : Stmt) : Prop := ∀ e ∈ s.exprs, ∀ part ∈ e.parts, part.uses Builtin.shuffle.name = false

/-- A value that is given back, if there is one, is not the function that shuffles. -/
def NoShuffleResult (result : Option Value) : Prop := ∀ v ∈ result, v.NoShuffle

/-- Where nothing is given back, the function that shuffles is not. -/
lemma noShuffleResult_none : NoShuffleResult none := nofun

/-- What is given back is not the function that shuffles, if the value is not. -/
lemma noShuffleResult_some {v : Value} (h : v.NoShuffle) : NoShuffleResult (some v) := by
  intro x hx
  cases hx
  exact h

mutual

/-- A statement that does not use the name of the function that shuffles is carried out without a draw. -/
lemma exec_seedless (hcall : SeedlessCalls call) (hscope : NoShuffleScope scope) {fn : String} :
    ∀ s : Stmt, (∀ part ∈ s.parts, NoShuffleStmt part) → Seedless NoShuffleResult (exec env call fn scope s)
  | .transfer source target amount pos, hs => by
    have hu := List.forall_mem_singleton.mp hs
    rw [exec]
    refine .bind (transfer_seedless hcall fun e he => ?_) fun _ _ => .pure noShuffleResult_none
    exact eval_seedless hcall hscope e (hu e he)
  | .check condition pos, hs => by
    have hu := List.forall_mem_singleton.mp hs
    rw [exec]
    refine .bind (eval_seedless hcall hscope condition (hu condition List.mem_cons_self)) fun v _ => ?_
    refine .bind truth_seedless fun holds _ => ?_
    split
    · exact .pure noShuffleResult_none
    · exact .fail
  | .ret none pos, _ => by
    rw [exec]
    exact .pure (noShuffleResult_some nofun)
  | .ret (some value) pos, hs => by
    have hu := List.forall_mem_singleton.mp hs
    rw [exec]
    refine .bind (eval_seedless hcall hscope value (hu value List.mem_cons_self)) fun v hv => ?_
    exact .pure (noShuffleResult_some hv)
  | .call name args callPos pos, hs => by
    have hu := List.forall_mem_singleton.mp hs
    rw [exec]
    refine .bind (eval_seedless hcall hscope _ (hu _ List.mem_cons_self)) fun _ _ => ?_
    exact .pure noShuffleResult_none
  | .when condition body pos, hs => by
    obtain ⟨hu, hbody⟩ := List.forall_mem_cons.mp hs
    rw [exec]
    refine .bind (eval_seedless hcall hscope condition (hu condition List.mem_cons_self)) fun v _ => ?_
    refine .bind truth_seedless fun holds _ => ?_
    split
    · exact execAll_seedless hcall hscope body hbody
    · exact .pure noShuffleResult_none

/-- Statements that do not use the name of the function that shuffles are carried out without a draw. -/
lemma execAll_seedless (hcall : SeedlessCalls call) (hscope : NoShuffleScope scope) {fn : String} :
    ∀ ss : List Stmt, (∀ part ∈ Stmt.partsAll ss, NoShuffleStmt part) →
      Seedless NoShuffleResult (execAll env call fn scope ss)
  | [], _ => by
    rw [execAll]
    exact .pure noShuffleResult_none
  | s :: ss, hs => by
    obtain ⟨hfirst, hrest⟩ := List.forall_mem_append.mp hs
    rw [execAll]
    refine .bind (exec_seedless hcall hscope s hfirst) fun result hresult => ?_
    cases result with
    | some v => exact .pure hresult
    | none => exact execAll_seedless hcall hscope ss hrest

end

/-- Calls of the program's functions are seedless, unless an argument is the function that shuffles. -/
def SeedlessEntries (p : Program) (enter : Enter) : Prop :=
  ∀ fn ∈ p.functions, ∀ args pos, (∀ v ∈ args, v.NoShuffle) → Seedless Value.NoShuffle (enter fn args pos)

/-- Calls of what a name means are seedless, if the calls of functions of either sort are. -/
lemma dispatch_seedless {enter : Enter} {refer : Invoke} (henter : SeedlessEntries env.program enter)
    (hrefer : SeedlessCalls refer) : SeedlessCalls (dispatch env enter refer) := by
  intro name args pos hn hargs
  unfold dispatch
  split
  · next fn hfn _ => exact henter fn (List.mem_of_find?_eq_some hfn) _ _ hargs
  · next fn b hfn hb =>
    split
    · exact Builtin.call_seedless hrefer (Builtin.ne_shuffle_of_ofName? hn hb) hargs
    · exact henter fn (List.mem_of_find?_eq_some hfn) _ _ hargs
  · next b _ hb => exact Builtin.call_seedless hrefer (Builtin.ne_shuffle_of_ofName? hn hb) hargs
  · exact .fail

/-- Calls are seedless, if the calls of the program's functions are. -/
lemma invoke_seedless {enter : Enter} (henter : SeedlessEntries env.program enter) :
    SeedlessCalls (invoke env enter) :=
  dispatch_seedless henter (dispatch_seedless henter fun _ _ _ _ _ => .fail)

/-- A move is not the function that shuffles. -/
lemma noShuffle_moveValue (ctx : Context) : ctx.moveValue.NoShuffle := by
  unfold Context.moveValue
  split <;> exact nofun

/-- No name in the scope of a function shuffles, if no argument does. -/
lemma noShuffleScope_scope {ctx : Context} {params : List String} {args : List Value} (hargs : ∀ v ∈ args, v.NoShuffle)
    {t : Table} : NoShuffleScope (ctx.scope params args t) := by
  intro e he
  simp only [Context.scope, List.mem_append, List.mem_cons, List.not_mem_nil, or_false] at he
  rcases he with he | rfl | rfl
  · exact hargs e.2 (List.of_mem_zip he).2
  · exact nofun
  · exact noShuffle_moveValue ctx

/-- To check the number of arguments is seedless. -/
lemma checkArity_seedless {fn : Function} {args : List Value} {pos : Pos} :
    Seedless (fun _ => True) (checkArity fn args pos) := by
  unfold checkArity
  split
  · exact .pure trivial
  · exact .fail

end Run

/-- No expression of a program is the name of the function that shuffles, or calls it. -/
def Program.NoShuffle (p : Program) : Prop := ∀ e ∈ p.exprs, e.uses Builtin.shuffle.name = false

namespace Run

/-- The statements of a program that does not shuffle do not use the name of the function that shuffles. -/
lemma noShuffleStmt_of_program {p : Program} (h : p.NoShuffle) {fn : Function} (hfn : fn ∈ p.functions) :
    ∀ part ∈ Stmt.partsAll fn.body, NoShuffleStmt part := by
  intro s hs e he part hpart
  refine h part (List.mem_append_right _ ?_)
  exact List.mem_flatMap.mpr ⟨s, List.mem_flatMap.mpr ⟨fn, hfn, hs⟩, List.mem_flatMap.mpr ⟨e, he, hpart⟩⟩

/-- Calls of the functions of a program that does not shuffle are seedless, however deep they may be nested. -/
lemma enter_seedless (env : Env) (h : env.program.NoShuffle) (depth : Nat) :
    SeedlessEntries env.program (enter env depth) := by
  -- the induction is on the calls that may still be nested: a body calls with one less
  induction depth with
  | zero =>
    intro fn hfn args pos _
    exact .bind checkArity_seedless fun _ _ => .fail
  | succ depth ih =>
    intro fn hfn args pos hargs
    refine .bind checkArity_seedless fun _ _ => ?_
    refine .ofTable (fun t g => rfl) fun t => ?_
    refine .bind (execAll_seedless (invoke_seedless ih) (noShuffleScope_scope hargs) fn.body
      (noShuffleStmt_of_program h hfn)) ?_
    intro result hresult
    cases result with
    | none => exact .pure nofun
    | some v => exact .pure (hresult v rfl)

end Run

/-- The outcome with another generator on its table. -/
def Outcome.reseed (g : Generator) : Outcome → Outcome
  | committed t v moves => committed (t.reseed g) v moves
  | rejected r => rejected r

namespace Program

variable {p : Program}

/-- No argument of an execution is the function that shuffles. -/
lemma executionArgs_noShuffle {fn : Function} {ctx : Context} {t : Table} {args : List Value}
    (h : executionArgs fn ctx t = .ok args) : ∀ v ∈ args, v.NoShuffle := by
  unfold executionArgs at h
  simp only at h
  split at h
  · cases h
  · cases h
    intro v hv
    have hmem := List.mem_of_mem_take hv
    simp only [List.mem_cons, List.not_mem_nil, or_false] at hmem
    rcases hmem with rfl | rfl
    · exact nofun
    · exact Run.noShuffle_moveValue ctx

/-- An execution of a function of a program that does not shuffle comes to the same outcome with every generator. -/
lemma execute_reseed (h : p.NoShuffle) {fn : Function} (hfn : fn ∈ p.functions) (depth : Nat) (t : Table)
    (g : Generator) (ctx : Context) :
    p.execute depth fn (t.reseed g) ctx = (p.execute depth fn t ctx).map (·.reseed g) := by
  have hsame : executionArgs fn ctx (t.reseed g) = executionArgs fn ctx t := rfl
  unfold execute
  rw [hsame]
  cases hargs : executionArgs fn ctx t with
  | error f => rfl
  | ok args =>
    have hrun := (Run.enter_seedless ⟨p, ctx⟩ h depth fn hfn args fn.pos (executionArgs_noShuffle hargs)
      ⟨t, none⟩).1 g
    have hwork : (⟨t, none⟩ : Work).reseed g = ⟨t.reseed g, none⟩ := rfl
    rw [hwork] at hrun
    simp only [bind, Except.bind, hrun]
    cases Run.enter ⟨p, ctx⟩ depth fn args fn.pos ⟨t, none⟩ with
    | ok r => rfl
    | error f => cases f <;> rfl

/-- The deck of a program that does not shuffle is evaluated without a draw. -/
lemma evalDeck_seedless (h : p.NoShuffle) (depth : Nat) : Run.Seedless (fun _ => True) (p.evalDeck depth) := by
  have hcall : Run.SeedlessCalls (Run.invoke ⟨p, {}⟩ (Run.enter ⟨p, {}⟩ depth)) :=
    Run.invoke_seedless (Run.enter_seedless ⟨p, {}⟩ h depth)
  refine .ofTable (fun t g => rfl) fun t => ?_
  refine .bind (Run.eval_seedless hcall (Run.noShuffleScope_scope (List.forall_mem_nil _)) p.deck ?_) fun v hv => ?_
  · exact fun part hpart => h part (List.mem_append_left _ hpart)
  · exact Run.cardsOf_seedless hcall hv

/-- The deck of a program that does not shuffle is built alike with every generator. -/
lemma buildDeck_reseed (h : p.NoShuffle) (depth : Nat) (t : Table) (g : Generator) :
    p.buildDeck depth (t.reseed g) = p.buildDeck depth t := by
  have hrun : p.evalDeck depth ⟨t.reseed g, none⟩ = _ := (evalDeck_seedless h depth ⟨t, none⟩).1 g
  unfold buildDeck
  rw [hrun]
  cases p.evalDeck depth ⟨t, none⟩ <;> rfl

/-- Tables that are laid with different seeds differ by their generators only. -/
lemma layTable_reseed (deck : Pile) (seed seed' : UInt64) :
    p.layTable deck seed' = (p.layTable deck seed).map (·.reseed (Table.generatorOf seed')) := by
  unfold layTable Table.lay
  split_ifs <;> rfl

/-- The table of a program that does not shuffle is the same for every seed but for its generator. -/
lemma newTable_reseed (h : p.NoShuffle) (depth : Nat) (seed seed' : UInt64) :
    p.newTable depth seed' = (p.newTable depth seed).map (·.reseed (Table.generatorOf seed')) := by
  refine bind_map (f := (·.reseed (Table.generatorOf seed'))) ?_ fun empty => ?_
  · rw [layTable_reseed [] seed seed', mapError_map]
  rw [buildDeck_reseed h]
  refine bind_map_right fun deck => ?_
  rw [layTable_reseed deck seed seed', mapError_map]

end Program

end Croupier
