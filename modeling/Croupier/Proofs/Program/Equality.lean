import Mathlib.Tactic.Lemma
import Croupier.Program

/-!
# Comparing programs

Whether two programs are the same can be computed, node by node and with all positions: expressions and statements,
which hold lists of themselves, are compared by a recursion of their own (`Expr.same`, `Stmt.same`). So what a text is
read as can be checked by evaluation.
-/

namespace Croupier

namespace Expr

mutual

/-- Tells whether two expressions are the same. -/
def same : Expr → Expr → Bool
  | name id p, name id' p' => id = id' ∧ p = p'
  | int n p, int n' p' => n = n' ∧ p = p'
  | field base key p, field base' key' p' => same base base' ∧ key = key' ∧ p = p'
  | call fn args p, call fn' args' p' => fn = fn' ∧ sameAll args args' ∧ p = p'
  | compare left right negate p, compare left' right' negate' p' =>
    same left left' ∧ same right right' ∧ negate = negate' ∧ p = p'
  | join op left right p, join op' left' right' p' => op = op' ∧ same left left' ∧ same right right' ∧ p = p'
  | not operand p, not operand' p' => same operand operand' ∧ p = p'
  | _, _ => false

/-- Tells whether two lists of expressions are the same. -/
def sameAll : List Expr → List Expr → Bool
  | [], [] => true
  | e :: es, e' :: es' => same e e' ∧ sameAll es es'
  | _, _ => false

end

mutual

/-- Expressions that pass the comparison are equal. -/
lemma eq_of_same : ∀ {e e' : Expr}, same e e' = true → e = e'
  | name id p, e', h => by
    cases e' with
    | name id' p' =>
      obtain ⟨rfl, rfl⟩ := of_decide_eq_true h
      rfl
    | _ => cases h
  | int n p, e', h => by
    cases e' with
    | int n' p' =>
      obtain ⟨rfl, rfl⟩ := of_decide_eq_true h
      rfl
    | _ => cases h
  | field base key p, e', h => by
    cases e' with
    | field base' key' p' =>
      obtain ⟨hbase, rfl, rfl⟩ := of_decide_eq_true h
      rw [eq_of_same hbase]
    | _ => cases h
  | call fn args p, e', h => by
    cases e' with
    | call fn' args' p' =>
      obtain ⟨rfl, hargs, rfl⟩ := of_decide_eq_true h
      rw [eq_of_sameAll hargs]
    | _ => cases h
  | compare left right negate p, e', h => by
    cases e' with
    | compare left' right' negate' p' =>
      obtain ⟨hleft, hright, rfl, rfl⟩ := of_decide_eq_true h
      rw [eq_of_same hleft, eq_of_same hright]
    | _ => cases h
  | join op left right p, e', h => by
    cases e' with
    | join op' left' right' p' =>
      obtain ⟨rfl, hleft, hright, rfl⟩ := of_decide_eq_true h
      rw [eq_of_same hleft, eq_of_same hright]
    | _ => cases h
  | not operand p, e', h => by
    cases e' with
    | not operand' p' =>
      obtain ⟨hoperand, rfl⟩ := of_decide_eq_true h
      rw [eq_of_same hoperand]
    | _ => cases h

/-- Lists of expressions that pass the comparison are equal. -/
lemma eq_of_sameAll : ∀ {es es' : List Expr}, sameAll es es' = true → es = es'
  | [], es', h => by
    cases es' with
    | nil => rfl
    | cons e' es' => cases h
  | e :: es, es', h => by
    cases es' with
    | nil => cases h
    | cons e' es' =>
      obtain ⟨hfirst, hrest⟩ := of_decide_eq_true h
      rw [eq_of_same hfirst, eq_of_sameAll hrest]

end

mutual

/-- An expression passes the comparison with itself. -/
lemma same_self : ∀ e : Expr, same e e = true
  | name .. => decide_eq_true ⟨rfl, rfl⟩
  | int .. => decide_eq_true ⟨rfl, rfl⟩
  | field base _ _ => decide_eq_true ⟨same_self base, rfl, rfl⟩
  | call _ args _ => decide_eq_true ⟨rfl, sameAll_self args, rfl⟩
  | compare left right _ _ => decide_eq_true ⟨same_self left, same_self right, rfl, rfl⟩
  | join _ left right _ => decide_eq_true ⟨rfl, same_self left, same_self right, rfl⟩
  | not operand _ => decide_eq_true ⟨same_self operand, rfl⟩

/-- A list of expressions passes the comparison with itself. -/
lemma sameAll_self : ∀ es : List Expr, sameAll es es = true
  | [] => rfl
  | e :: es => decide_eq_true ⟨same_self e, sameAll_self es⟩

end

instance : DecidableEq Expr := fun e e' =>
  decidable_of_iff (same e e' = true) ⟨eq_of_same, fun h => h ▸ same_self e⟩

end Expr

deriving instance DecidableEq for Amount

namespace Stmt

mutual

/-- Tells whether two statements are the same. -/
def same : Stmt → Stmt → Bool
  | transfer source target amount p, transfer source' target' amount' p' =>
    source = source' ∧ target = target' ∧ amount = amount' ∧ p = p'
  | check condition p, check condition' p' => condition = condition' ∧ p = p'
  | ret value p, ret value' p' => value = value' ∧ p = p'
  | call fn args c p, call fn' args' c' p' => fn = fn' ∧ args = args' ∧ c = c' ∧ p = p'
  | when condition body p, when condition' body' p' => condition = condition' ∧ sameAll body body' ∧ p = p'
  | _, _ => false

/-- Tells whether two lists of statements are the same. -/
def sameAll : List Stmt → List Stmt → Bool
  | [], [] => true
  | s :: ss, s' :: ss' => same s s' ∧ sameAll ss ss'
  | _, _ => false

end

mutual

/-- Statements that pass the comparison are equal. -/
lemma eq_of_same : ∀ {s s' : Stmt}, same s s' = true → s = s'
  | transfer source target amount p, s', h => by
    cases s' with
    | transfer source' target' amount' p' =>
      obtain ⟨rfl, rfl, rfl, rfl⟩ := of_decide_eq_true h
      rfl
    | _ => cases h
  | check condition p, s', h => by
    cases s' with
    | check condition' p' =>
      obtain ⟨rfl, rfl⟩ := of_decide_eq_true h
      rfl
    | _ => cases h
  | ret value p, s', h => by
    cases s' with
    | ret value' p' =>
      obtain ⟨rfl, rfl⟩ := of_decide_eq_true h
      rfl
    | _ => cases h
  | call fn args c p, s', h => by
    cases s' with
    | call fn' args' c' p' =>
      obtain ⟨rfl, rfl, rfl, rfl⟩ := of_decide_eq_true h
      rfl
    | _ => cases h
  | .when condition body p, s', h => by
    cases s' with
    | when condition' body' p' =>
      obtain ⟨rfl, hbody, rfl⟩ := of_decide_eq_true h
      rw [eq_of_sameAll hbody]
    | _ => cases h

/-- Lists of statements that pass the comparison are equal. -/
lemma eq_of_sameAll : ∀ {ss ss' : List Stmt}, sameAll ss ss' = true → ss = ss'
  | [], ss', h => by
    cases ss' with
    | nil => rfl
    | cons s' ss' => cases h
  | s :: ss, ss', h => by
    cases ss' with
    | nil => cases h
    | cons s' ss' =>
      obtain ⟨hfirst, hrest⟩ := of_decide_eq_true h
      rw [eq_of_same hfirst, eq_of_sameAll hrest]

end

mutual

/-- A statement passes the comparison with itself. -/
lemma same_self : ∀ s : Stmt, same s s = true
  | transfer .. => decide_eq_true ⟨rfl, rfl, rfl, rfl⟩
  | check .. => decide_eq_true ⟨rfl, rfl⟩
  | ret .. => decide_eq_true ⟨rfl, rfl⟩
  | call .. => decide_eq_true ⟨rfl, rfl, rfl, rfl⟩
  | .when _ body _ => decide_eq_true ⟨rfl, sameAll_self body, rfl⟩

/-- A list of statements passes the comparison with itself. -/
lemma sameAll_self : ∀ ss : List Stmt, sameAll ss ss = true
  | [] => rfl
  | s :: ss => decide_eq_true ⟨same_self s, sameAll_self ss⟩

end

instance : DecidableEq Stmt := fun s s' =>
  decidable_of_iff (same s s' = true) ⟨eq_of_same, fun h => h ▸ same_self s⟩

end Stmt

deriving instance DecidableEq for Function

deriving instance DecidableEq for Program

end Croupier
