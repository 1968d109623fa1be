import Croupier.Proofs.Except
import Croupier.Proofs.Run.Register

/-!
# The last declaration counts

The open actions that a run has declared are a register, to which only declarations write, each in place of the one
before. So an execution declares what the last declaration among its calls does (`execute_declared`), wherever in the
run that call was made.
-/

namespace Croupier

/-- The action that a value names. -/
def Value.action? : Value → Option String
  | .function name | .symbol name => some name
  | _ => none

/-- The actions that a call declares open, if it does. -/
def BuiltinCall.declares? (c : BuiltinCall) : Option (List String) :=
  if c.builtin = .validMoves then some (c.args.filterMap Value.action?) else none

/-- The actions of the last declaration among some calls, if there is one. -/
def lastDeclaration? (calls : List BuiltinCall) : Option (List String) :=
  (calls.filterMap BuiltinCall.declares?).getLast?

namespace Run

open Trace (quiet andThen)

/-- The open actions that a run has declared. -/
def declared : Register (Option (List String)) where
  read w := w.moves
  write c s := c.declares?.or s

/-- After some calls the declared actions are those of the last declaration. -/
lemma declared_after (calls : List BuiltinCall) (s : Option (List String)) :
    declared.after calls s = (lastDeclaration? calls).or s := by
  induction calls generalizing s with
  | nil => rfl
  | cons c cs ih =>
    show declared.after cs (c.declares?.or s) = _
    rw [ih]
    unfold lastDeclaration?
    cases hc : c.declares? with
    | none => rw [List.filterMap_cons_none hc, Option.none_or]
    | some names =>
      rw [List.filterMap_cons_some hc, List.getLast?_cons]
      cases (cs.filterMap BuiltinCall.declares?).getLast? with
      | none => rfl
      | some names' => rfl

/-- To change the table declares nothing. -/
lemma modifyTable_records_declared {f : Table → Table} : Records declared (modifyTable f) quiet := by
  intro w w' a h
  cases h
  rfl

/-- The names of actions are those of the values, and to read them changes nothing. -/
lemma actionNames_ok {pos : Pos} {args : List Value} {names : List String} {w w' : Work}
    (h : Builtin.actionNames pos args w = .ok (names, w')) : names = args.filterMap Value.action? ∧ w' = w := by
  induction args generalizing names w' with
  | nil =>
    cases h
    exact ⟨rfl, rfl⟩
  | cons v vs ih =>
    have htail : ∀ name, (Builtin.actionNames pos vs >>= fun names => pure (name :: names)) w = .ok (names, w') →
        names = name :: vs.filterMap Value.action? ∧ w' = w := by
      intro name hcons
      obtain ⟨rest, w₁, hrest, hpure⟩ := bind_ok.mp hcons
      obtain ⟨rfl, rfl⟩ := ih hrest
      obtain ⟨rfl, rfl⟩ := pure_ok.mp hpure
      exact ⟨rfl, rfl⟩
    cases v with
    | function name => exact htail name h
    | symbol name => exact htail name h
    | _ => cases h

/-- To read the number of a player makes no calls. -/
lemma playerNumber_records {σ : Type} {reg : Register σ} {v : Value} {pos : Pos} :
    Records reg (Builtin.playerNumber v pos) quiet := by
  cases v with
  | number n => exact .pure
  | player id => exact .pure
  | _ => exact .mismatch

/-- A built-in function that acts without declaring leaves the declared actions as they were. -/
lemma acts_records_declared {invoke : Invoke} {b : Builtin} {args : List Value} {pos : Pos} (hb : b.asks = false)
    (hv : b ≠ .validMoves) : Records declared (b.call invoke args pos) quiet := by
  cases b with
  | standardDeck =>
    match args with
    | [] => exact .pure
    | _ :: _ => exact .fail
  | shuffle =>
    match args with
    | [stack] =>
      cases stack with
      | pile r => exact .before locate_records fun _ => .before modifyTable_records_declared fun _ => .pure
      | _ => exact .mismatch
    | [] | _ :: _ :: _ => exact .fail
  | endGame =>
    match args with
    | [] => exact .before modifyTable_records_declared fun _ => .pure
    | _ :: _ => exact .fail
  | winner =>
    match args with
    | [v] =>
      refine .before playerNumber_records fun id => .before .table fun t => ?_
      split
      · exact .before modifyTable_records_declared fun _ => .pure
      · exact .fail
    | [] | _ :: _ :: _ => exact .fail
  | nextPlayer =>
    match args with
    | [] => exact .before modifyTable_records_declared fun _ => .pure
    | _ :: _ => exact .fail
  | validMoves => exact absurd rfl hv
  | _ => cases hb

/-- The declared actions are written by built-in functions only. -/
lemma declared_sound : declared.Sound where
  put := rfl
  asks {b args s} hb := by
    have hv : b ≠ .validMoves := fun he => by rw [he] at hb; cases hb
    show (BuiltinCall.declares? ⟨b, args⟩).or s = s
    rw [BuiltinCall.declares?, if_neg hv, Option.none_or]
  acts {invoke b args pos w w' v} hb h := by
    by_cases hv : b = .validMoves
    · subst hv
      obtain ⟨names, w₁, hn, h⟩ := bind_ok.mp h
      obtain ⟨_, w₂, hd, h⟩ := bind_ok.mp h
      obtain ⟨rfl, rfl⟩ := actionNames_ok hn
      cases hd
      obtain ⟨_, rfl⟩ := pure_ok.mp h
      rfl
    · show w'.moves = (BuiltinCall.declares? ⟨b, args⟩).or w.moves
      rw [BuiltinCall.declares?, if_neg hv, Option.none_or]
      exact acts_records_declared hb hv h

end Run

namespace Program

open Run

/-- The actions that an execution declares are those of the last declaration among its calls. -/
lemma execute_declared {p : Program} {depth : Nat} {fn : Function} {t t' : Table} {ctx : Context} {v : Value}
    {moves : Option (List String)} (h : p.execute depth fn t ctx = .ok (.committed t' v moves)) :
    moves = lastDeclaration? (p.executionCalls depth fn t ctx) := by
  obtain ⟨args, ha, h⟩ := bind_eq_ok.mp h
  split at h
  · next value work hr =>
    cases h
    have hrecords := enter_records declared_sound depth fn args fn.pos hr
    rw [declared_after] at hrecords
    unfold executionCalls
    rw [ha]
    exact hrecords.trans (Option.or_none)
  · cases h
  · cases h

end Program

end Croupier
