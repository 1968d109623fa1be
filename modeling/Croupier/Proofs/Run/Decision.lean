import Croupier.Proofs.Numeral
import Croupier.Proofs.Run.Subset

/-!
# Functions that decide on a move

A function decides on a move if it succeeds, with something that can be said of the work it leaves, or rejects the move
(`Decides`): it does not fail in any other way. Such a statement about the body of a function is proved backwards, one
statement after another: a check may be assumed to hold after it, and a set of cards to have been where it was taken
from, since otherwise the move is rejected. What the body decides the execution of the function decides
(`execute_of_decides`).
-/

namespace Croupier

namespace Run

/-- The end of a body that succeeds with a property of the work it leaves, or rejects the move. -/
def Decides (P : Work → Prop) (result : Except Fault (Option Value × Work)) : Prop :=
  (∃ w, P w ∧ result = .ok (none, w)) ∨ ∃ r, result = .error (.rejected r)

namespace Decides

variable {P : Work → Prop} {env : Env} {call : Invoke} {scope : Scope} {fn : String} {s : Stmt} {ss : List Stmt}
  {w w' : Work} {pos : Pos}

/-- A body without statements decides, with what holds already. -/
lemma nil (h : P w) : Decides P (execAll env call fn scope [] w) := .inl ⟨w, h, rfl⟩

/-- A statement that does not return goes on with the next. -/
lemma cons (h : exec env call fn scope s w = .ok (none, w')) (hrest : Decides P (execAll env call fn scope ss w')) :
    Decides P (execAll env call fn scope (s :: ss) w) := by
  rw [execAll, bind_of_ok h]
  exact hrest

/-- A statement that rejects the move decides. -/
lemma rejected {r : Rejection} (h : exec env call fn scope s w = .error (.rejected r)) :
    Decides P (execAll env call fn scope (s :: ss) w) := by
  rw [execAll, bind_of_error h]
  exact .inr ⟨r, rfl⟩

/-- After a check its condition holds. -/
lemma check {condition : Expr} {b : Bool} (h : eval env call scope condition w = .ok (.bool b, w'))
    (hrest : b = true → Decides P (execAll env call fn scope ss w')) :
    Decides P (execAll env call fn scope (.check condition pos :: ss) w) := by
  have htruth : truth "check" (.bool b) pos w' = .ok (b, w') := rfl
  have hcheck : exec env call fn scope (.check condition pos) w = (if b then pure none
      else fail (.rejected ⟨fn, "check failed: " ++ condition.text, pos⟩) : Run (Option Value)) w' := by
    rw [exec, bind_of_ok h, bind_of_ok htruth]
  cases b with
  | true => exact cons hcheck (hrest rfl)
  | false => exact rejected hcheck

/-- After a transfer of a set of cards the source has held the set. -/
lemma transfer {source target e : Expr} {sourceRef targetRef : PileRef} {place place' : Place} {cs : List Card}
    (hends : Ends env call scope source target w sourceRef targetRef place w)
    (htarget : locate targetRef target.pos w = .ok (place', w)) (hset : cardSet env call scope e w = .ok (cs, w))
    (hrest : ∀ left, Pile.remove? cs (w.table.pile place) = some left →
      Decides P (execAll env call fn scope ss { w with table := (w.table.put left place).push cs place' })) :
    Decides P (execAll env call fn scope (.transfer source target (.these e) pos :: ss) w) := by
  have hone : ∀ name, targetRef ≠ .everyPlayer name := by
    rintro name rfl
    cases htarget
  have hpile : pileAt place w = .ok (w.table.pile place, w) := rfl
  have hrun : exec env call fn scope (.transfer source target (.these e) pos) w = _ := exec_these_of_ends hends hone
  rw [bind_of_ok htarget, bind_of_ok hset, moveThese, bind_assoc, bind_of_ok hpile] at hrun
  cases hleft : Pile.remove? cs (w.table.pile place) with
  | none =>
    simp only [hleft] at hrun
    exact rejected hrun
  | some left =>
    simp only [hleft] at hrun
    exact cons hrun (hrest left hleft)

end Decides

variable {env : Env} {call : Invoke} {scope : Scope} {w : Work} {pos : Pos}

/-- Numbers are compared by their text, which differs for different numbers. -/
lemma equal_numbers (x y : Int) : equal (.number x) (.number y) pos = pure (decide (x = y)) := by
  have htext : (toString x == toString y) = decide (x = y) := by
    rw [Bool.eq_iff_iff, beq_iff_eq, decide_eq_true_iff]
    exact ⟨Numeral.toString_inj, congrArg toString⟩
  show pure (toString x == toString y) = _
  rw [htext]

/-- Two expressions whose values are numbers are compared as numbers. -/
lemma eval_is_numbers {left right : Expr} {x y : Int} (hleft : eval env call scope left w = .ok (.number x, w))
    (hright : eval env call scope right w = .ok (.number y, w)) :
    eval env call scope (.compare left right false pos) w = .ok (.bool (decide (x = y)), w) := by
  rw [eval, bind_of_ok hleft, bind_of_ok hright, equal_numbers]
  show Except.ok (Value.bool (decide (x = y) != false), w) = _
  rw [Bool.bne_false]

end Run

namespace Program

open Run

/-- What the body of a function decides its execution decides. -/
lemma execute_of_decides {p : Program} {d : Nat} {fn : Function} {t : Table} {ctx : Context} {args : List Value}
    {P : Work → Prop} (hargs : executionArgs fn ctx t = .ok args) (harity : args.length = fn.params.length)
    (h : Decides P (execAll ⟨p, ctx⟩ (invoke ⟨p, ctx⟩ (enter ⟨p, ctx⟩ d)) fn.name (ctx.scope fn.params args t) fn.body
      ⟨t, none⟩)) :
    (∃ w, P w ∧ p.execute (d + 1) fn t ctx = .ok (.committed w.table .empty w.moves)) ∨
      ∃ r, p.execute (d + 1) fn t ctx = .ok (.rejected r) := by
  have harity' : checkArity fn args fn.pos ⟨t, none⟩ = .ok ((), ⟨t, none⟩) := by
    rw [checkArity, if_pos harity]
    rfl
  have htable : Run.table ⟨t, none⟩ = .ok (t, ⟨t, none⟩) := rfl
  rcases h with ⟨w, hw, hrun⟩ | ⟨r, hrun⟩
  · have henter : enter ⟨p, ctx⟩ (d + 1) fn args fn.pos ⟨t, none⟩ = .ok (.empty, w) := by
      rw [enter, bind_of_ok harity', bind_of_ok htable, bind_of_ok hrun]
      rfl
    refine .inl ⟨w, hw, ?_⟩
    simp only [execute, hargs, bind, Except.bind, henter]
  · have henter : enter ⟨p, ctx⟩ (d + 1) fn args fn.pos ⟨t, none⟩ = .error (.rejected r) := by
      rw [enter, bind_of_ok harity', bind_of_ok htable, bind_of_error hrun]
    refine .inr ⟨r, ?_⟩
    simp only [execute, hargs, bind, Except.bind, henter]

end Program

end Croupier
