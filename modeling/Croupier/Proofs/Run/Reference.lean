import Croupier.Proofs.Program.Binding
import Croupier.Proofs.Run.Law
import Croupier.Run.Execute

/-!
# References lead somewhere

The values of a run refer to piles and players. On a table that is laid for the program (`Program.Laid`), a reference
is valid if it names a stack that the program declares and a player who is counted from one (`Program.Valid`). A run
is safe if, started on such a table, it leaves one and gives a valid result, and if it fails, then not because a stack
is missing (`Safe`). The evaluator is safe for expressions and statements whose names are bound (`eval_safe`,
`exec_safe`), so calls of the program's functions are, however deep they may be nested (`enter_safe`).
-/

namespace Croupier

namespace Fault

/-- What is wanted where a stack is missing. -/
def missingStacks : List String := ["a declared stack", "a player stack", "player stack"]

/-- Tells whether a fault says that a stack is missing. -/
def isDangling : Fault → Bool
  | mismatch _ want _ _ => missingStacks.contains want
  | _ => false

/-- A text is told from those for a missing stack by a character in it. -/
lemma not_missing {want : String} {c : Char} (char : String → Option Char) (h : char want = some c)
    (hne : ∀ s ∈ missingStacks, char s ≠ some c) : missingStacks.contains want = false := by
  rw [Bool.eq_false_iff, ne_eq, List.contains_iff_mem]
  exact fun hmem => hne want hmem h

/-- A wrong number of arguments does not mean that a stack is missing. -/
lemma not_missing_arguments (n : Nat) : missingStacks.contains (toString n ++ " arguments") = false := by
  have hlast : (toString n ++ " arguments").toList.getLast? = some 's' := by simp [String.toList_append]
  exact not_missing (·.toList.getLast?) hlast (by decide)

/-- A missing field does not mean that a stack is missing. -/
lemma not_missing_field (key : String) : missingStacks.contains ("a record with field " ++ key) = false := by
  have hthird : ("a record with field " ++ key).toList[2]? = some 'r' := by simp [String.toList_append]
  exact not_missing (·.toList[2]?) hthird (by decide)

end Fault

namespace Program

/-- A table has seats and all stacks that a program declares. -/
structure Laid (p : Program) (t : Table) : Prop where
  seated : 0 < t.players
  shared : ∀ name ∈ p.tableStacks, .shared name ∈ t.places
  seats : ∀ seat < t.players, ∀ name ∈ p.playerStacks, .seat seat name ∈ t.places

/-- The references of a value are to stacks that a program declares and to players counted from one. -/
def Valid (p : Program) : Value → Prop
  | .player id => 1 ≤ id
  | .pile (.shared name) => name = deckName ∨ name ∈ p.tableStacks
  | .pile (.ofPlayer id name) => 1 ≤ id ∧ name ∈ p.playerStacks
  | .pile (.everyPlayer name) => name ∈ p.playerStacks
  | _ => True

variable {p : Program} {t t' : Table} {name : String}

/-- A table with the same places is laid as well. -/
lemma Laid.of_sameLayout (h : p.Laid t) (hs : Table.SameLayout t t') : p.Laid t' where
  seated := hs.players ▸ h.seated
  shared := hs.places ▸ h.shared
  seats := by
    rw [hs.players, hs.places]
    exact h.seats

/-- On a table that is laid the deck and every shared stack have a place. -/
lemma Laid.sharedPlace? (h : p.Laid t) (hn : name = deckName ∨ name ∈ p.tableStacks) :
    (t.sharedPlace? name).isSome = true := by
  rw [Option.isSome_iff_exists]
  by_cases hdeck : name = deckName
  · exact ⟨.deck, Table.sharedPlace?_eq_some_iff.mpr (.inl ⟨hdeck, rfl⟩)⟩
  · have hmem := h.shared name (hn.resolve_left hdeck)
    exact ⟨.shared name, Table.sharedPlace?_eq_some_iff.mpr (.inr ⟨hdeck, hmem, rfl⟩)⟩

/-- On a table that is laid every seat has a place for every stack of players. -/
lemma Laid.seatPlace? (h : p.Laid t) (hn : name ∈ p.playerStacks) {seat : Nat} (hs : seat < t.players) :
    (t.seatPlace? seat name).isSome = true := by
  rw [Table.seatPlace?_of_mem (h.seats seat hs name hn)]
  rfl

end Program

namespace Run

variable {α β : Type} {p : Program}

/-- Started on a table that is laid for a program, a run leaves one and gives a result with a given property; if it
fails, no stack is missing. -/
def Safe (p : Program) (post : α → Prop) (m : Run α) : Prop :=
  ∀ w, p.Laid w.table → (∀ a w', m w = .ok (a, w') → p.Laid w'.table ∧ post a) ∧
    ∀ f, m w = .error f → f.isDangling = false

namespace Safe

variable {post : α → Prop} {m : Run α}

/-- A safe run that succeeds leaves a table that is laid and gives what it should. -/
lemma ok (h : Safe p post m) {w w' : Work} {a : α} (hw : p.Laid w.table) (hr : m w = .ok (a, w')) :
    p.Laid w'.table ∧ post a := (h w hw).1 a w' hr

/-- A result as such is safe if it has the property. -/
lemma pure {a : α} (h : post a) : Safe p post (pure a) := by
  intro w hw
  refine ⟨?_, nofun⟩
  intro b w' hr
  obtain ⟨rfl, rfl⟩ := pure_ok.mp hr
  exact ⟨hw, h⟩

/-- A fault is safe if it does not say that a stack is missing. -/
lemma fail {f : Fault} (h : f.isDangling = false) : Safe p post (Run.fail f) := by
  intro w hw
  refine ⟨nofun, ?_⟩
  intro g hr
  cases hr
  exact h

/-- A mismatch is safe if what is wanted is not a stack. -/
lemma mismatch {op want : String} {got : Value} {pos : Pos}
    (h : Fault.missingStacks.contains want = false) : Safe p post (Run.mismatch op want got pos) := fail h

/-- To look at the table is safe. -/
lemma table : Safe p p.Laid Run.table := by
  intro w hw
  refine ⟨?_, nofun⟩
  intro t w' hr
  cases hr
  exact ⟨hw, hw⟩

/-- To declare actions is safe. -/
lemma declare {names : List String} : Safe p (fun _ => True) (Run.declare names) := by
  intro w hw
  refine ⟨?_, nofun⟩
  intro u w' hr
  cases hr
  exact ⟨hw, trivial⟩

/-- To change a table without its places is safe. -/
lemma modifyTable {f : Table → Table} (hf : ∀ t, Table.SameLayout t (f t)) :
    Safe p (fun _ => True) (Run.modifyTable f) := by
  intro w hw
  refine ⟨?_, nofun⟩
  intro u w' hr
  cases hr
  exact ⟨hw.of_sameLayout (hf _), trivial⟩

/-- A sequence is safe if both parts are. -/
lemma bind {f : α → Run β} {post' : β → Prop} (hm : Safe p post m) (hf : ∀ a, post a → Safe p post' (f a)) :
    Safe p post' (m >>= f) := by
  intro w hw
  have hb : (m >>= f) w = Except.bind (m w) fun r => f r.1 r.2 := rfl
  rw [hb]
  obtain ⟨hok, herror⟩ := hm w hw
  cases hr : m w with
  | error e =>
    refine ⟨nofun, ?_⟩
    intro g hg
    cases hg
    exact herror e hr
  | ok r =>
    obtain ⟨a, w'⟩ := r
    obtain ⟨hw', ha⟩ := hok a w' hr
    exact hf a ha w' hw'

end Safe

/-- A call that is safe, given valid arguments. -/
def SafeCalls (p : Program) (call : Invoke) : Prop :=
  ∀ name args pos, (∀ v ∈ args, p.Valid v) → Safe p p.Valid (call name args pos)

variable {eval : Expr → Run Value} {invoke : Invoke}

/-- A valid reference leads to a place, or it is to every player or to a player without a seat. -/
lemma locate_safe {r : PileRef} {pos : Pos} (hr : p.Valid (.pile r)) : Safe p (fun _ => True) (locate r pos) := by
  refine .bind .table fun t ht => ?_
  cases r with
  | everyPlayer name => exact .fail rfl
  | ofPlayer id name =>
    dsimp only
    cases hs : t.seat? id with
    | none => exact .fail rfl
    | some seat =>
      obtain ⟨_, hlt⟩ := Table.seat?_eq_some_iff.mp hs
      obtain ⟨place, hplace⟩ := Option.isSome_iff_exists.mp (ht.seatPlace? hr.2 hlt)
      simp only [hplace]
      exact .pure trivial
  | shared name =>
    obtain ⟨place, hplace⟩ := Option.isSome_iff_exists.mp (ht.sharedPlace? hr)
    simp only [hplace]
    exact .pure trivial

/-- To look at a pile is safe. -/
lemma pileAt_safe {place : Place} : Safe p (fun _ => True) (pileAt place) := .bind .table fun _ _ => .pure trivial

/-- To find the cards that a valid value holds is safe. -/
lemma heldCards_safe {op : String} {v : Value} {pos : Pos} (hv : p.Valid v) :
    Safe p (fun _ => True) (heldCards op v pos) := by
  cases v with
  | cards cs => exact .pure trivial
  | card c => exact .pure trivial
  | pile r => exact .bind (locate_safe hv) fun place _ => pileAt_safe
  | _ => exact .mismatch (by decide)

/-- To find the cards that a valid value stands for is safe, if calls are. -/
lemma cardsOf_safe (hcall : SafeCalls p invoke) {op : String} {v : Value} {pos : Pos} (hv : p.Valid v) :
    Safe p (fun _ => True) (cardsOf invoke op v pos) := by
  unfold cardsOf
  split
  · next name => exact .bind (hcall name [] pos nofun) fun result hresult => heldCards_safe hresult
  · exact heldCards_safe hv

/-- To compare valid values is safe. -/
lemma equal_safe {a b : Value} (ha : p.Valid a) (hb : p.Valid b) {pos : Pos} :
    Safe p (fun _ => True) (equal a b pos) := by
  unfold equal
  split
  · exact .pure trivial
  · exact .pure trivial
  · exact .pure trivial
  · exact .pure trivial
  · exact .pure trivial
  · split
    · exact .pure trivial
    split
    · refine .bind (heldCards_safe ha) fun x _ => ?_
      refine .bind (heldCards_safe hb) fun y _ => ?_
      exact .pure trivial
    · exact .fail rfl

/-- To take cards from a pile is safe. -/
lemma takeFrom_safe {r : PileRef} {place : Place} {n : Int} {pos : Pos} :
    Safe p (fun _ => True) (takeFrom r place n pos) := by
  refine .bind pileAt_safe fun pile _ => ?_
  split
  · exact .fail rfl
  · exact .bind (.modifyTable fun t => .put ..) fun _ _ => .pure trivial

/-- Cards are dealt to a stack that every player has. -/
lemma dealFrom_safe {name : String} (hn : name ∈ p.playerStacks) {pos : Pos} {turn : Nat} {cs : List Card} :
    Safe p (fun _ => True) (dealFrom name pos turn cs) := by
  induction cs generalizing turn with
  | nil => exact .pure trivial
  | cons c cs ih =>
    refine .bind .table fun t ht => ?_
    have hlt : turn % t.players < t.players := Nat.mod_lt _ ht.seated
    obtain ⟨place, hplace⟩ := Option.isSome_iff_exists.mp (ht.seatPlace? hn hlt)
    simp only [hplace]
    exact .bind (.modifyTable fun t => .put ..) fun _ _ => ih

/-- To move a set of cards is safe. -/
lemma moveThese_safe {fn : String} {r : PileRef} {source target : Place} {cs : List Card} {pos : Pos} :
    Safe p (fun _ => True) (moveThese fn r source target cs pos) := by
  refine .bind pileAt_safe fun pile _ => ?_
  split
  · exact .fail rfl
  · refine .bind (.modifyTable fun t => .put ..) fun _ _ => ?_
    exact .modifyTable fun t => .put ..

/-- A valid value that refers to a pile does so validly. -/
lemma pileRef_safe {op : String} {v : Value} (hv : p.Valid v) {pos : Pos} :
    Safe p (fun r => p.Valid (.pile r)) (pileRef op v pos) := by
  cases v with
  | pile r => exact .pure hv
  | _ => exact .mismatch (by decide)

/-- To move cards to a valid target is safe, if the amount is evaluated safely. -/
lemma moveTo_safe (hcall : SafeCalls p invoke) {fn : String} {r targetRef : PileRef} {source : Place}
    {targetPos pos : Pos} {amount : Amount} (hcards : ∀ e ∈ amount.exprs, Safe p p.Valid (eval e))
    (htarget : p.Valid (.pile targetRef)) :
    Safe p (fun _ => True) (moveTo eval invoke fn r source targetRef targetPos amount pos) := by
  refine .bind (locate_safe htarget) fun target _ => ?_
  cases amount with
  | these e =>
    refine .bind (hcards e List.mem_cons_self) fun v hv => ?_
    refine .bind (cardsOf_safe hcall hv) fun cs _ => ?_
    exact moveThese_safe
  | _ =>
    refine .bind pileAt_safe fun pile _ => ?_
    refine .bind takeFrom_safe fun taken _ => ?_
    exact .modifyTable fun t => .put ..

/-- To move cards between two piles is safe, if the target is valid and the amount is evaluated safely. -/
lemma transferBetween_safe (hcall : SafeCalls p invoke) {fn : String} {r targetRef : PileRef} {source : Place}
    {targetPos pos : Pos} {amount : Amount} (hcards : ∀ e ∈ amount.exprs, Safe p p.Valid (eval e))
    (htarget : p.Valid (.pile targetRef)) :
    Safe p (fun _ => True) (transferBetween eval invoke fn r source targetRef targetPos amount pos) := by
  cases targetRef with
  | everyPlayer name =>
    refine .bind pileAt_safe fun pile _ => ?_
    refine .bind .table fun t _ => ?_
    refine .bind takeFrom_safe fun dealt _ => ?_
    exact dealFrom_safe htarget
  | shared name => exact moveTo_safe hcall hcards htarget
  | ofPlayer id name => exact moveTo_safe hcall hcards htarget

/-- A transfer is safe, if its expressions are evaluated safely. -/
lemma transfer_safe (hcall : SafeCalls p invoke) {fn : String} {source target : Expr} {amount : Amount} {pos : Pos}
    (heval : ∀ e ∈ (Stmt.transfer source target amount pos).exprs, Safe p p.Valid (eval e)) :
    Safe p (fun _ => True) (transfer eval invoke fn source target amount pos) := by
  simp only [Stmt.exprs, List.forall_mem_cons] at heval
  obtain ⟨hsource, htarget, hcards⟩ := heval
  refine .bind hsource fun v hv => ?_
  refine .bind (pileRef_safe hv) fun sourceRef hsourceRef => ?_
  refine .bind htarget fun v hv => ?_
  refine .bind (pileRef_safe hv) fun targetRef htargetRef => ?_
  refine .bind (locate_safe hsourceRef) fun place _ => ?_
  exact transferBetween_safe hcall hcards htargetRef

end Run

namespace Builtin

open Run

variable {p : Program} {invoke : Invoke}

/-- To keep the cards that a predicate holds of is safe, if calls are. -/
lemma keep_safe (hcall : SafeCalls p invoke) {predicate : String} {pos : Pos} {cs : List Card} :
    Safe p (fun _ => True) (keep invoke predicate pos cs) := by
  induction cs with
  | nil => exact .pure trivial
  | cons c cs ih =>
    refine .bind (hcall predicate [.card c] pos (List.forall_mem_singleton.mpr trivial)) fun v _ => ?_
    cases v with
    | bool keeps => exact .bind ih fun rest _ => .pure trivial
    | _ => exact .mismatch (by decide)

/-- To read the names of actions is safe. -/
lemma actionNames_safe {pos : Pos} {args : List Value} : Safe p (fun _ => True) (actionNames pos args) := by
  induction args with
  | nil => exact .pure trivial
  | cons v vs ih =>
    cases v with
    | symbol name => exact .bind ih fun names _ => .pure trivial
    | function name => exact .bind ih fun names _ => .pure trivial
    | _ => exact .mismatch (by decide)

/-- To read the number of a player is safe. -/
lemma playerNumber_safe {v : Value} {pos : Pos} : Safe p (fun _ => True) (playerNumber v pos) := by
  cases v with
  | number n => exact .pure trivial
  | player id => exact .pure trivial
  | _ => exact .mismatch (by decide)

/-- To declare a winner is safe, if the fault for one without a seat is. -/
lemma win_safe {id : Int} {fault : Fault} (hf : fault.isDangling = false) : Safe p p.Valid (do
    let t ← table
    match t.win? id with
    | some t => do
      modifyTable fun _ => t
      pure .empty
    | none => fail fault) := by
  -- the table that is put back is the one that was read, with a winner more
  intro w hw
  cases ht : w.table.win? id with
  | none =>
    have hfail : Safe p p.Valid (fail fault) := .fail hf
    simpa only [bind, StateT.bind, Except.bind, table, ht] using hfail w hw
  | some t =>
    have hlaid : p.Laid t := hw.of_sameLayout (Table.Step.win ht).sameLayout
    have hpure : Safe p p.Valid (pure .empty) := .pure trivial
    simpa only [bind, StateT.bind, Except.bind, table, modifyTable, ht] using hpure ⟨t, w.moves⟩ hlaid

/-- A built-in function is safe. -/
lemma call_safe (hcall : SafeCalls p invoke) {b : Builtin} {args : List Value} {pos : Pos}
    (hargs : ∀ v ∈ args, p.Valid v) : Safe p p.Valid (b.call invoke args pos) := by
  unfold call
  split
  · exact .pure trivial
  · next source predicate =>
    refine .bind (cardsOf_safe hcall (hargs source (by simp))) fun cs _ => ?_
    cases predicate with
    | function name => exact .bind (keep_safe hcall) fun kept _ => .pure trivial
    | _ => exact .mismatch (by decide)
  · next v => exact .bind (cardsOf_safe hcall (hargs v (by simp))) fun cs _ => .pure trivial
  · next v stack =>
    cases stack with
    | pile r =>
      refine .bind (locate_safe (hargs (.pile r) (by simp))) fun place _ => ?_
      refine .bind (cardsOf_safe hcall (hargs v (by simp))) fun cs _ => ?_
      exact .bind pileAt_safe fun pile _ => .pure trivial
    | _ => exact .mismatch (by decide)
  · next v => exact .bind (cardsOf_safe hcall (hargs v (by simp))) fun cs _ => .pure trivial
  · refine .bind actionNames_safe fun names _ => ?_
    exact .bind .declare fun _ _ => .pure trivial
  · next stack =>
    cases stack with
    | pile r =>
      refine .bind (locate_safe (hargs (.pile r) (by simp))) fun place _ => ?_
      refine .bind (.modifyTable fun t => ?_) fun _ _ => .pure trivial
      exact ⟨Table.places_put .., Table.players_put .., Table.initial_put ..⟩
    | _ => exact .mismatch (by decide)
  · exact .bind (.modifyTable fun t => ⟨rfl, rfl, rfl⟩) fun _ _ => .pure trivial
  · next v =>
    exact .bind playerNumber_safe fun id _ => win_safe rfl
  · next v =>
    refine .bind (cardsOf_safe hcall (hargs v (by simp))) fun cs _ => ?_
    split
    · exact .pure trivial
    · exact .fail rfl
  · exact .bind (.modifyTable fun t => ⟨rfl, rfl, rfl⟩) fun _ _ => .pure trivial
  · exact .fail (Fault.not_missing_arguments _)

end Builtin

namespace Run

open Binding (Names)

variable {p : Program} {env : Env} {call : Invoke} {scope : Scope}

/-- The values of a scope are valid. -/
def ValidScope (p : Program) (scope : Scope) : Prop := ∀ e ∈ scope, p.Valid e.2

/-- To resolve a name is safe, if the scope is valid. -/
lemma resolve_safe (hscope : ValidScope env.program scope) {name : String} :
    Safe env.program env.program.Valid (resolve env scope name) := by
  refine .bind .table fun t _ => ?_
  split
  · next v hv =>
    obtain ⟨before, after, he, _⟩ := List.lookup_eq_some_iff.mp hv
    exact .pure (hscope (name, v) (by simp [he]))
  · split_ifs with _ _ _ _ _ hstack
    · exact .pure (.inl rfl)
    · exact .pure trivial
    · exact .pure trivial
    · exact .pure trivial
    · exact .pure trivial
    · exact .pure (.inr (List.contains_iff_mem.mp hstack))
    · exact .pure trivial
    · exact .pure trivial

/-- The fields of a player who is counted from one are valid. -/
lemma playerField?_valid {id : Nat} (hid : 1 ≤ id) {key : String} {x : Value} (h : playerField? env id key = some x) :
    env.program.Valid x := by
  unfold playerField? at h
  split_ifs at h with _ hstack
  · cases h
    trivial
  · cases h
    exact ⟨hid, List.contains_iff_mem.mp hstack⟩

/-- A move is the move of a player who is counted from one. -/
lemma moveField?_valid {m : Move} {t : Table} {key : String} {x : Value} (h : moveField? m t key = some x) :
    p.Valid x := by
  unfold moveField? at h
  split_ifs at h with _ _ _ _ hplayer
  · cases h
    trivial
  · cases h
    trivial
  · cases h
    trivial
  · cases h
    show 1 ≤ m.player.toNat
    omega
  · cases h
    exact Nat.le_add_left 1 t.current

/-- The fields of a card are valid. -/
lemma cardField?_valid {c : Card} {key : String} {x : Value} (h : cardField? c key = some x) : p.Valid x := by
  unfold cardField? at h
  split_ifs at h <;> cases h <;> trivial

/-- To select a field of a valid value is safe. -/
lemma select_safe {v : Value} (hv : env.program.Valid v) {key : String} {pos : Pos} :
    Safe env.program env.program.Valid (select env v key pos) := by
  refine .bind .table fun t _ => ?_
  simp only
  split
  · next x hx =>
    cases v with
    | player id => exact .pure (playerField?_valid hv hx)
    | move m => exact .pure (moveField?_valid hx)
    | card c => exact .pure (cardField?_valid hx)
    | _ => cases hx
  · exact .mismatch (Fault.not_missing_field key)

/-- To ask for a truth value is safe. -/
lemma truth_safe {op : String} {v : Value} {pos : Pos} : Safe p (fun _ => True) (truth op v pos) := by
  cases v with
  | bool b => exact .pure trivial
  | _ => exact .mismatch (by decide)

/-- The names of an expression and of all expressions in it are bound. -/
def BoundIn (p : Program) (e : Expr) : Prop := ∀ part ∈ e.parts, (Names.ofProgram p).Binds part

mutual

/-- An expression whose names are bound is evaluated safely. -/
lemma eval_safe (hcall : SafeCalls env.program call) (hscope : ValidScope env.program scope) :
    ∀ e, BoundIn env.program e → Safe env.program env.program.Valid (eval env call scope e)
  | .name id pos, _ => by
    rw [eval]
    exact resolve_safe hscope
  | .int n pos, _ => by
    rw [eval]
    exact .pure trivial
  | .field base key pos, hb => by
    obtain ⟨hkey, hbase⟩ := List.forall_mem_cons.mp hb
    rw [eval]
    split
    · next he =>
      rw [Names.Binds, if_pos he] at hkey
      exact .pure hkey
    · exact .bind (eval_safe hcall hscope base hbase) fun v hv => select_safe hv
  | .call fn args pos, hb => by
    obtain ⟨_, hargs⟩ := List.forall_mem_cons.mp hb
    rw [eval]
    refine .bind (evalAll_safe hcall hscope args hargs) fun vs hvs => ?_
    exact hcall fn vs pos hvs
  | .compare left right negate pos, hb => by
    obtain ⟨_, hboth⟩ := List.forall_mem_cons.mp hb
    obtain ⟨hleft, hright⟩ := List.forall_mem_append.mp hboth
    rw [eval]
    refine .bind (eval_safe hcall hscope left hleft) fun a ha => ?_
    refine .bind (eval_safe hcall hscope right hright) fun b hb => ?_
    exact .bind (equal_safe ha hb) fun same _ => .pure trivial
  | .join op left right pos, hb => by
    obtain ⟨_, hboth⟩ := List.forall_mem_cons.mp hb
    obtain ⟨hleft, hright⟩ := List.forall_mem_append.mp hboth
    rw [eval]
    refine .bind (eval_safe hcall hscope left hleft) fun v _ => ?_
    refine .bind truth_safe fun a _ => ?_
    split
    · exact .pure trivial
    · refine .bind (eval_safe hcall hscope right hright) fun v _ => ?_
      exact .bind truth_safe fun b _ => .pure trivial
  | .not operand pos, hb => by
    obtain ⟨_, hoperand⟩ := List.forall_mem_cons.mp hb
    rw [eval]
    refine .bind (eval_safe hcall hscope operand hoperand) fun v _ => ?_
    exact .bind truth_safe fun b _ => .pure trivial

/-- Expressions whose names are bound are evaluated safely. -/
lemma evalAll_safe (hcall : SafeCalls env.program call) (hscope : ValidScope env.program scope) :
    ∀ es, (∀ part ∈ Expr.partsAll es, (Names.ofProgram env.program).Binds part) →
      Safe env.program (fun vs => ∀ v ∈ vs, env.program.Valid v) (evalAll env call scope es)
  | [], _ => by
    rw [evalAll]
    exact .pure nofun
  | e :: es, hb => by
    obtain ⟨he, hes⟩ := List.forall_mem_append.mp hb
    rw [evalAll]
    refine .bind (eval_safe hcall hscope e he) fun v hv => ?_
    refine .bind (evalAll_safe hcall hscope es hes) fun vs hvs => ?_
    exact .pure (List.forall_mem_cons.mpr ⟨hv, hvs⟩)

end

/-- A value that is given back, if there is one, is valid. -/
def ValidResult (p : Program) (result : Option Value) : Prop := ∀ v ∈ result, p.Valid v

/-- Where nothing is given back, nothing invalid is. -/
lemma validResult_none : ValidResult p none := nofun

mutual

/-- A statement that binding accepts is carried out safely. -/
lemma exec_safe (hcall : SafeCalls env.program call) (hscope : ValidScope env.program scope) {fn : String} :
    ∀ s : Stmt, (∀ part ∈ s.parts, (Names.ofProgram env.program).Accepts part) →
      Safe env.program (ValidResult env.program) (exec env call fn scope s)
  | .transfer source target amount pos, hb => by
    have hexprs := (List.forall_mem_singleton.mp hb).2
    rw [exec]
    refine .bind (transfer_safe hcall fun e he => ?_) fun _ _ => .pure validResult_none
    exact eval_safe hcall hscope e (hexprs e he)
  | .check condition pos, hb => by
    have hexprs := (List.forall_mem_singleton.mp hb).2
    rw [exec]
    refine .bind (eval_safe hcall hscope condition (hexprs condition List.mem_cons_self)) fun v _ => ?_
    refine .bind truth_safe fun holds _ => ?_
    split
    · exact .pure validResult_none
    · exact .fail rfl
  | .ret none pos, _ => by
    rw [exec]
    refine .pure fun v hv => ?_
    cases hv
    trivial
  | .ret (some value) pos, hb => by
    have hexprs := (List.forall_mem_singleton.mp hb).2
    rw [exec]
    refine .bind (eval_safe hcall hscope value (hexprs value List.mem_cons_self)) fun v hv => ?_
    refine .pure fun x hx => ?_
    cases hx
    exact hv
  | .call name args callPos pos, hb => by
    have hexprs := (List.forall_mem_singleton.mp hb).2
    rw [exec]
    refine .bind (eval_safe hcall hscope _ (hexprs _ List.mem_cons_self)) fun _ _ => ?_
    exact .pure validResult_none
  | .when condition body pos, hb => by
    obtain ⟨⟨_, hexprs⟩, hbody⟩ := List.forall_mem_cons.mp hb
    rw [exec]
    refine .bind (eval_safe hcall hscope condition (hexprs condition List.mem_cons_self)) fun v _ => ?_
    refine .bind truth_safe fun holds _ => ?_
    split
    · exact execAll_safe hcall hscope body hbody
    · exact .pure validResult_none

/-- Statements that binding accepts are carried out safely. -/
lemma execAll_safe (hcall : SafeCalls env.program call) (hscope : ValidScope env.program scope) {fn : String} :
    ∀ ss : List Stmt, (∀ part ∈ Stmt.partsAll ss, (Names.ofProgram env.program).Accepts part) →
      Safe env.program (ValidResult env.program) (execAll env call fn scope ss)
  | [], _ => by
    rw [execAll]
    exact .pure validResult_none
  | s :: ss, hb => by
    obtain ⟨hs, hss⟩ := List.forall_mem_append.mp hb
    rw [execAll]
    refine .bind (exec_safe hcall hscope s hs) fun result hresult => ?_
    cases result with
    | some v => exact .pure hresult
    | none => exact execAll_safe hcall hscope ss hss

end

/-- Calls of the program's functions are safe, given valid arguments. -/
def SafeEntries (p : Program) (enter : Enter) : Prop :=
  ∀ fn ∈ p.functions, ∀ args pos, (∀ v ∈ args, p.Valid v) → Safe p p.Valid (enter fn args pos)

/-- Calls of what a name means are safe, if the calls of functions of either sort are. -/
lemma dispatch_safe {enter : Enter} {refer : Invoke} (henter : SafeEntries env.program enter)
    (hrefer : SafeCalls env.program refer) : SafeCalls env.program (dispatch env enter refer) := by
  intro name args pos hargs
  unfold dispatch
  split
  · next fn hfn _ => exact henter fn (List.mem_of_find?_eq_some hfn) _ _ hargs
  · next fn b hfn _ =>
    split
    · exact Builtin.call_safe hrefer hargs
    · exact henter fn (List.mem_of_find?_eq_some hfn) _ _ hargs
  · exact Builtin.call_safe hrefer hargs
  · exact .fail rfl

/-- Calls back are safe, if the calls of the program's functions are. -/
lemma refer_safe {enter : Enter} (henter : SafeEntries env.program enter) : SafeCalls env.program (refer env enter) :=
  dispatch_safe henter fun _ _ _ _ => .fail rfl

/-- Calls are safe, if the calls of the program's functions are. -/
lemma invoke_safe {enter : Enter} (henter : SafeEntries env.program enter) :
    SafeCalls env.program (invoke env enter) := dispatch_safe henter (refer_safe henter)

/-- The player who acts is counted from one. -/
lemma one_le_actor (ctx : Context) (t : Table) : 1 ≤ ctx.actor t := by
  unfold Context.actor
  split
  · omega
  · exact Nat.le_add_left 1 t.current

/-- The move of a context is a valid value. -/
lemma valid_moveValue (ctx : Context) : p.Valid ctx.moveValue := by
  unfold Context.moveValue
  split <;> trivial

/-- The scope of a function is valid if its arguments are. -/
lemma validScope_scope {ctx : Context} {params : List String} {args : List Value} (hargs : ∀ v ∈ args, p.Valid v)
    {t : Table} : ValidScope p (ctx.scope params args t) := by
  intro e he
  simp only [Context.scope, List.mem_append, List.mem_cons, List.not_mem_nil, or_false] at he
  rcases he with he | rfl | rfl
  · exact hargs e.2 (List.of_mem_zip he).2
  · exact one_le_actor ctx t
  · exact valid_moveValue ctx

/-- The statements of a program's functions are accepted by binding. -/
def Bound (p : Program) : Prop := ∀ fn ∈ p.functions, ∀ part ∈ Stmt.partsAll fn.body, (Names.ofProgram p).Accepts part

/-- To check the number of arguments is safe, and it is right after that. -/
lemma checkArity_safe {fn : Function} {args : List Value} {pos : Pos} :
    Safe p (fun _ => args.length = fn.params.length) (checkArity fn args pos) := by
  unfold checkArity
  split
  · next h => exact .pure h
  · exact .fail (Fault.not_missing_arguments _)

/-- Calls of the program's functions are safe, however deep they may be nested. -/
lemma enter_safe (env : Env) (hbound : Bound env.program) (depth : Nat) :
    SafeEntries env.program (enter env depth) := by
  -- the induction is on the calls that may still be nested: a body calls with one less
  induction depth with
  | zero =>
    intro fn hfn args pos _
    exact .bind checkArity_safe fun _ _ => .fail rfl
  | succ depth ih =>
    intro fn hfn args pos hargs
    refine .bind checkArity_safe fun _ _ => ?_
    refine .bind .table fun t _ => ?_
    refine .bind (execAll_safe (invoke_safe ih) (validScope_scope hargs) fn.body (hbound fn hfn)) ?_
    intro result hresult
    cases result with
    | none => exact .pure trivial
    | some v => exact .pure (hresult v rfl)

end Run

end Croupier
