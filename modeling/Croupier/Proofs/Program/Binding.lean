import Mathlib.Data.List.Basic
import Croupier.Program.Binding
import Croupier.Proofs.Except

/-!
# What binding accepts

A program is taken apart into its statements, at any depth, and their expressions, down to names and numbers. Whether
names are bound is then said of each part on its own: an expression binds its field or its predicate (`Names.Binds`),
and a transfer joins its two ends (`Stmt.Joins`). Binding accepts a program if and only if all parts are in order
(`check_eq_ok_iff`), so it visits every part.
-/

namespace Croupier

namespace Expr

mutual

/-- An expression and the expressions in it. -/
def parts : Expr → List Expr
  | name id pos => [name id pos]
  | int value pos => [int value pos]
  | field base key pos => field base key pos :: parts base
  | call fn args pos => call fn args pos :: partsAll args
  | compare left right negate pos => compare left right negate pos :: (parts left ++ parts right)
  | join op left right pos => join op left right pos :: (parts left ++ parts right)
  | not operand pos => not operand pos :: parts operand

/-- Some expressions and all expressions in them. -/
def partsAll : List Expr → List Expr
  | [] => []
  | e :: es => parts e ++ partsAll es

end

end Expr

/-- The expressions of an amount. -/
def Amount.exprs : Amount → List Expr
  | these cards => [cards]
  | _ => []

namespace Stmt

mutual

/-- A statement and the statements in it. -/
def parts : Stmt → List Stmt
  | when condition body pos => when condition body pos :: partsAll body
  | s => [s]

/-- Some statements and all statements in them. -/
def partsAll : List Stmt → List Stmt
  | [] => []
  | s :: ss => parts s ++ partsAll ss

end

/-- The expressions of a statement itself, without those of the statements in it. -/
def exprs : Stmt → List Expr
  | transfer source target amount _ => source :: target :: amount.exprs
  | check condition _ => [condition]
  | ret value _ => value.toList
  | call fn args callPos _ => [.call fn args callPos]
  | when condition _ _ => [condition]

end Stmt

namespace Program

variable (p : Program)

/-- The statements of a program, at any depth. -/
def stmts : List Stmt := p.functions.flatMap fun f => Stmt.partsAll f.body

/-- The expressions of a program, at any depth. -/
def exprs : List Expr := p.deck.parts ++ p.stmts.flatMap fun s => s.exprs.flatMap Expr.parts

end Program

/-- An expression that is a name is not the name of players. -/
def Expr.NoPlayer (e : Expr) : Prop := ∀ id pos, e = .name id pos → id ≠ Expr.everyPlayer ∧ id ≠ "current_player"

/-- A transfer can join its two ends: cards come from one stack, and a card set goes to one. -/
def Stmt.Joins : Stmt → Prop
  | transfer source target amount _ => source.NoPlayer ∧ target.NoPlayer ∧ source.isEveryPlayer = false ∧
    (target.isEveryPlayer = true → amount.exprs = [])
  | _ => True

namespace Binding

/-- The names of an expression itself are bound: its field is known, and its predicate is a function. -/
def Names.Binds (n : Names) : Expr → Prop
  | .field base key pos =>
    if (Expr.field base key pos).isEveryPlayer then key ∈ n.playerStacks else key ∈ recordFields ∨ key ∈ n.playerStacks
  | .call fn args _ =>
    ∀ cards predicate, fn = filterName → args = [cards, predicate] →
      ∃ id pos, predicate = .name id pos ∧ id ∈ n.functions
  | _ => True

variable {n : Names} {u : Unit}

/-- A predicate is accepted if and only if it is the name of a function. -/
lemma checkPredicate_eq_ok_iff {e : Expr} :
    checkPredicate n e = .ok u ↔ ∃ id pos, e = .name id pos ∧ id ∈ n.functions := by
  cases e with
  | name id pos =>
    simp only [checkPredicate, List.contains_iff_mem]
    split
    · next hm => exact ⟨fun _ => ⟨id, pos, rfl, hm⟩, fun _ => rfl⟩
    · next hm =>
      refine ⟨nofun, ?_⟩
      rintro ⟨_, _, hname, hm'⟩
      cases hname
      exact absurd hm' hm
  | _ =>
    refine ⟨nofun, ?_⟩
    rintro ⟨_, _, hname, _⟩
    cases hname

/-- A call is accepted if and only if its predicate, in case it is a filter, is the name of a function. -/
lemma checkFilter_eq_ok_iff {fn : String} {args : List Expr} {pos : Pos} :
    checkFilter n fn args = .ok u ↔ n.Binds (.call fn args pos) := by
  unfold checkFilter Names.Binds
  split
  · next cards predicate =>
    split
    · next hfn =>
      rw [checkPredicate_eq_ok_iff]
      constructor
      · rintro h _ _ _ hargs
        cases hargs
        exact h
      · intro h
        exact h _ _ hfn rfl
    · next hfn => exact ⟨fun _ _ _ hfn' => absurd hfn' hfn, fun _ => rfl⟩
  · next hargs => exact ⟨fun _ cards predicate _ hargs' => absurd hargs' (hargs cards predicate), fun _ => rfl⟩

/-- A stack of every player is accepted if and only if players have a stack of that name. -/
lemma checkEveryPlayer_eq_ok_iff {name : String} {pos : Pos} :
    checkEveryPlayer n name pos = .ok u ↔ name ∈ n.playerStacks := by
  simp only [checkEveryPlayer, List.contains_iff_mem]
  split
  · next hm => exact ⟨fun _ => hm, fun _ => rfl⟩
  · next hm => exact ⟨nofun, fun hm' => absurd hm' hm⟩

/-- A field is accepted if and only if it is bound and its base is accepted. -/
lemma checkField_eq_ok_iff {base : Expr} {key : String} {pos : Pos}
    (hbase : checkExpr n base = .ok u ↔ ∀ part ∈ base.parts, n.Binds part) :
    checkExpr n (.field base key pos) = .ok u ↔ ∀ part ∈ (Expr.field base key pos).parts, n.Binds part := by
  simp only [checkExpr, Expr.parts, List.forall_mem_cons, Names.Binds]
  split
  · next he =>
    -- the base is a name, which has nothing to be bound
    have hname : ∀ part ∈ base.parts, n.Binds part := by
      cases base with
      | name id pos => simp [Expr.parts, Names.Binds]
      | _ => cases he
    rw [checkEveryPlayer_eq_ok_iff]
    exact ⟨fun h => ⟨h, hname⟩, And.left⟩
  · have hfields : n.fields.contains key = true ↔ key ∈ recordFields ∨ key ∈ n.playerStacks := by
      rw [List.contains_iff_mem, Names.fields, List.mem_append]
    split
    · next hk => exact ⟨fun h => ⟨hfields.mp hk, hbase.mp h⟩, fun h => hbase.mpr h.2⟩
    · next hk => exact ⟨nofun, fun h => absurd (hfields.mpr h.1) hk⟩

/-- Two checks in a row accept what both accept. -/
lemma check_both {x y : Except ParseError Unit} {P Q : Prop} (hx : x = .ok () ↔ P) (hy : y = .ok u ↔ Q) :
    (x >>= fun _ => y) = .ok u ↔ P ∧ Q := by
  rw [bind_eq_ok, ← hx, ← hy]
  exact ⟨fun ⟨_, hx, hy⟩ => ⟨hx, hy⟩, fun ⟨hx, hy⟩ => ⟨(), hx, hy⟩⟩

mutual

/-- An expression is accepted if and only if all expressions in it are bound. -/
lemma checkExpr_eq_ok_iff : ∀ e : Expr, checkExpr n e = .ok u ↔ ∀ part ∈ e.parts, n.Binds part
  | .name _ _ => by simp [checkExpr, Expr.parts, Names.Binds]
  | .int _ _ => by simp [checkExpr, Expr.parts, Names.Binds]
  | .field base _ _ => checkField_eq_ok_iff (checkExpr_eq_ok_iff base)
  | .call _ args _ => by
    rw [checkExpr, Expr.parts, List.forall_mem_cons]
    exact check_both checkFilter_eq_ok_iff (checkExprs_eq_ok_iff args)
  | .compare left right _ _ => by
    simp only [checkExpr, Expr.parts, List.forall_mem_cons, List.forall_mem_append, Names.Binds, true_and]
    exact check_both (checkExpr_eq_ok_iff left) (checkExpr_eq_ok_iff right)
  | .join _ left right _ => by
    simp only [checkExpr, Expr.parts, List.forall_mem_cons, List.forall_mem_append, Names.Binds, true_and]
    exact check_both (checkExpr_eq_ok_iff left) (checkExpr_eq_ok_iff right)
  | .not operand _ => by
    simp only [checkExpr, Expr.parts, List.forall_mem_cons, Names.Binds, true_and]
    exact checkExpr_eq_ok_iff operand

/-- Expressions are accepted if and only if all expressions in them are bound. -/
lemma checkExprs_eq_ok_iff : ∀ es : List Expr, checkExprs n es = .ok u ↔ ∀ part ∈ Expr.partsAll es, n.Binds part
  | [] => by simp [checkExprs, Expr.partsAll]
  | e :: es => by
    rw [checkExprs, Expr.partsAll, List.forall_mem_append]
    exact check_both (checkExpr_eq_ok_iff e) (checkExprs_eq_ok_iff es)

end

/-- A name is accepted as an end of a transfer if and only if it does not stand for players. -/
lemma checkEndName_eq_ok_iff {id : String} {pos : Pos} : checkEndName id pos = .ok u ↔ (Expr.name id pos).NoPlayer := by
  have hname : (Expr.name id pos).NoPlayer ↔ id ≠ Expr.everyPlayer ∧ id ≠ "current_player" := by
    constructor
    · exact fun h => h id pos rfl
    · rintro h _ _ heq
      cases heq
      exact h
  rw [hname]
  unfold checkEndName
  split
  · next he => exact ⟨nofun, fun h => absurd he h.1⟩
  split
  · next hc => exact ⟨nofun, fun h => absurd hc h.2⟩
  · next he hc => exact ⟨fun _ => ⟨he, hc⟩, fun _ => rfl⟩

/-- A source is accepted if and only if it is one stack and all expressions in it are bound. -/
lemma checkSource_eq_ok_iff {e : Expr} : checkSource n e = .ok u ↔
    (e.NoPlayer ∧ e.isEveryPlayer = false) ∧ ∀ part ∈ e.parts, n.Binds part := by
  have hexpr : checkExpr n e = .ok u ↔ ∀ part ∈ e.parts, n.Binds part := checkExpr_eq_ok_iff e
  cases e with
  | name id pos =>
    rw [checkSource, checkEndName_eq_ok_iff]
    simp [Expr.parts, Names.Binds, Expr.isEveryPlayer]
  | _ =>
    rw [checkSource, ← hexpr]
    · split
      · next he => simp [he]
      · next he => simp [he, Expr.NoPlayer]
    · exact nofun

/-- A target is accepted if and only if it does not name players and all expressions in it are bound. -/
lemma checkTarget_eq_ok_iff {e : Expr} :
    checkTarget n e = .ok u ↔ e.NoPlayer ∧ ∀ part ∈ e.parts, n.Binds part := by
  have hexpr : checkExpr n e = .ok u ↔ ∀ part ∈ e.parts, n.Binds part := checkExpr_eq_ok_iff e
  cases e with
  | name id pos =>
    rw [checkTarget, checkEndName_eq_ok_iff]
    simp [Expr.parts, Names.Binds]
  | _ =>
    rw [checkTarget, ← hexpr]
    · simp [Expr.NoPlayer]
    · exact nofun

/-- An amount is accepted if and only if it is no card set for every player and all expressions in it are bound. -/
lemma checkAmount_eq_ok_iff {target : Expr} {amount : Amount} : checkAmount n target amount = .ok u ↔
    (target.isEveryPlayer = true → amount.exprs = []) ∧ ∀ e ∈ amount.exprs, ∀ part ∈ e.parts, n.Binds part := by
  cases amount with
  | these cards =>
    simp only [checkAmount, Amount.exprs, List.forall_mem_singleton]
    split
    · next ht => simp [ht]
    · next ht =>
      rw [checkExpr_eq_ok_iff]
      simp [ht]
  | _ => simp [checkAmount, Amount.exprs]

/-- A statement itself is in order, without the statements in it. -/
def Names.Accepts (n : Names) (s : Stmt) : Prop := s.Joins ∧ ∀ e ∈ s.exprs, ∀ part ∈ e.parts, n.Binds part

/-- A transfer is accepted if and only if its ends can be joined and all expressions in it are bound. -/
lemma checkTransfer_eq_ok_iff {source target : Expr} {amount : Amount} {pos : Pos} :
    checkStmt n (.transfer source target amount pos) = .ok u ↔ n.Accepts (.transfer source target amount pos) := by
  rw [checkStmt]
  refine (check_both checkSource_eq_ok_iff (check_both checkTarget_eq_ok_iff checkAmount_eq_ok_iff)).trans ?_
  simp only [Names.Accepts, Stmt.Joins, Stmt.exprs, List.forall_mem_cons]
  constructor
  · rintro ⟨⟨⟨hs, hone⟩, hsource⟩, ⟨ht, htarget⟩, hset, hcards⟩
    exact ⟨⟨hs, ht, hone, hset⟩, hsource, htarget, hcards⟩
  · rintro ⟨⟨hs, ht, hone, hset⟩, hsource, htarget, hcards⟩
    exact ⟨⟨⟨hs, hone⟩, hsource⟩, ⟨ht, htarget⟩, hset, hcards⟩

mutual

/-- A statement is accepted if and only if all statements in it are in order. -/
lemma checkStmt_eq_ok_iff : ∀ s : Stmt, checkStmt n s = .ok u ↔ ∀ part ∈ s.parts, n.Accepts part
  | .transfer _ _ _ _ => by
    rw [checkTransfer_eq_ok_iff]
    simp [Stmt.parts]
  | .check condition _ => by
    rw [checkStmt, checkExpr_eq_ok_iff]
    simp [Stmt.parts, Names.Accepts, Stmt.Joins, Stmt.exprs]
  | .ret none _ => by simp [checkStmt, Stmt.parts, Names.Accepts, Stmt.Joins, Stmt.exprs]
  | .ret (some value) _ => by
    rw [checkStmt, checkExpr_eq_ok_iff]
    simp [Stmt.parts, Names.Accepts, Stmt.Joins, Stmt.exprs]
  | .call fn args pos _ => by
    rw [checkStmt, checkExpr_eq_ok_iff]
    simp [Stmt.parts, Names.Accepts, Stmt.Joins, Stmt.exprs]
  | .when condition body _ => by
    rw [checkStmt, Stmt.parts, List.forall_mem_cons]
    refine (check_both (checkExpr_eq_ok_iff condition) (checkStmts_eq_ok_iff body)).trans ?_
    simp [Names.Accepts, Stmt.Joins, Stmt.exprs]

/-- Statements are accepted if and only if all statements in them are in order. -/
lemma checkStmts_eq_ok_iff : ∀ ss : List Stmt, checkStmts n ss = .ok u ↔ ∀ part ∈ Stmt.partsAll ss, n.Accepts part
  | [] => by simp [checkStmts, Stmt.partsAll]
  | s :: ss => by
    rw [checkStmts, Stmt.partsAll, List.forall_mem_append]
    exact check_both (checkStmt_eq_ok_iff s) (checkStmts_eq_ok_iff ss)

end

/-- Functions are accepted if and only if all statements in their bodies are in order. -/
lemma checkFunctions_eq_ok_iff {fs : List Function} :
    checkFunctions n fs = .ok u ↔ ∀ f ∈ fs, ∀ part ∈ Stmt.partsAll f.body, n.Accepts part := by
  induction fs with
  | nil => simp [checkFunctions]
  | cons f fs ih =>
    rw [checkFunctions, List.forall_mem_cons]
    exact check_both (checkStmts_eq_ok_iff f.body) ih

/-- Binding accepts a program if and only if the names of all its expressions are bound and its transfers join their
ends. -/
lemma check_eq_ok_iff {p : Program} :
    check p = .ok u ↔ (∀ e ∈ p.exprs, (Names.ofProgram p).Binds e) ∧ ∀ s ∈ p.stmts, s.Joins := by
  unfold check
  refine (check_both (checkExpr_eq_ok_iff p.deck) checkFunctions_eq_ok_iff).trans ?_
  simp only [Program.exprs, Program.stmts, Names.Accepts, List.forall_mem_append, List.forall_mem_flatMap]
  constructor
  · rintro ⟨hdeck, hstmts⟩
    exact ⟨⟨hdeck, fun f hf s hs => (hstmts f hf s hs).2⟩, fun f hf s hs => (hstmts f hf s hs).1⟩
  · rintro ⟨⟨hdeck, hexprs⟩, hjoins⟩
    exact ⟨hdeck, fun f hf s hs => ⟨hjoins f hf s hs, hexprs f hf s hs⟩⟩

end Binding

end Croupier
