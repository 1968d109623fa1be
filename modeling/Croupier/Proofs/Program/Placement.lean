import Croupier.Proofs.Program.Equality
import Croupier.Proofs.Program.WellFormed

/-!
# Errors and trees stand where tokens do

No position is made up while a program is read: an error is reported, and an expression or a statement stands, at the
position of a token, the end of input included. This is said of positions with any property that those of the tokens
have (`Placed`), and passes through the sequence of two readers (`Placed.bind`), so every reader has it from the readers
that it uses, and so has the binding of names, which reports parts of the trees. For the property of being the position
of a token it is what an error and a program say of their source (`placed_in_source`).
-/

namespace Croupier

variable {P : Pos → Prop}

section Results

variable {α β : Type} {Q : α → Prop} {R : β → Prop}

/-- What comes out has a property, or the error stands at one of the positions. -/
def Placed (P : Pos → Prop) (Q : α → Prop) : Except ParseError α → Prop
  | .ok a => Q a
  | .error e => P e.pos

/-- A sequence reports at the positions if its first part does, and so does its second with what the first gives. -/
lemma Placed.bind {x : Except ParseError α} {k : α → Except ParseError β} (hx : Placed P Q x)
    (hk : ∀ a, Q a → Placed P R (k a)) : Placed P R (x >>= k) := by
  cases x with
  | error e => exact hx
  | ok a => exact hk a hx

/-- A test reports at the positions if both sides do. -/
lemma Placed.ite {c : Prop} [Decidable c] {x y : Except ParseError α} (hx : c → Placed P Q x)
    (hy : ¬ c → Placed P Q y) : Placed P Q (if c then x else y) := by
  split
  · next hc => exact hx hc
  · next hc => exact hy hc

end Results

namespace Cursor

/-- The tokens to be read and the end of input stand at the positions. -/
structure Within (P : Pos → Prop) (c : Cursor) : Prop where
  rest : ∀ t ∈ c.rest, P t.pos
  stop : P c.stop

variable {c : Cursor}

/-- What is left stands at the positions. -/
lemma Within.advance (hc : c.Within P) : c.advance.Within P where
  rest t ht := hc.rest t (List.mem_of_mem_tail ht)
  stop := hc.stop

/-- The next token stands at one of the positions, and so does the end of input. -/
lemma Within.peek (hc : c.Within P) : P c.peek.pos := by
  obtain ⟨rest, stop⟩ := c
  cases rest with
  | nil => exact hc.stop
  | cons t rest => exact hc.rest t List.mem_cons_self

end Cursor

/-- Something is read that has a property, and what is left stands at the positions; or the error does. -/
def PlacedRead {α : Type} (P : Pos → Prop) (Q : α → Prop) (x : Except ParseError (α × Cursor)) : Prop :=
  Placed P (fun r => Q r.1 ∧ r.2.Within P) x

namespace Cursor

variable {c : Cursor}

/-- What is found in place of something expected is reported where it stands. -/
lemma unexpected_placed {α : Type} {Q : α → Prop} (hc : c.Within P) (expected : String) :
    Placed P Q (.error (c.unexpected expected)) := hc.peek

/-- A sign that is missing is reported at the positions. -/
lemma punct_placed (hc : c.Within P) (sign : String) : Placed P (Within P) (c.punct sign) :=
  .ite (fun _ => hc.advance) fun _ => unexpected_placed hc _

/-- A name is read and missed at the positions. -/
lemma ident_placed (hc : c.Within P) (what : String) : PlacedRead P (P ·.pos) (c.ident what) :=
  .ite (fun _ => ⟨hc.peek, hc.advance⟩) fun _ => unexpected_placed hc _

/-- A number is read and missed at the positions. -/
lemma int_placed (hc : c.Within P) (what : String) : PlacedRead P (fun _ => True) (c.int what) := by
  refine .ite (fun _ => ?_) fun _ => unexpected_placed hc _
  split
  · exact ⟨trivial, hc.advance⟩
  · exact unexpected_placed hc _

/-- A comma that may be needed is missed at the positions. -/
lemma comma_placed (hc : c.Within P) (first : Bool) :
    Placed P (Within P) (if first then .ok c else c.punct ",") :=
  .ite (fun _ => hc) fun _ => punct_placed hc _

end Cursor

open Cursor (unexpected_placed punct_placed ident_placed int_placed comma_placed)

namespace Expr

/-- An expression and the expressions in it stand at the positions. -/
def Within (P : Pos → Prop) (e : Expr) : Prop := ∀ part ∈ e.parts, P part.pos

/-- Some expressions and the expressions in them stand at the positions. -/
def WithinAll (P : Pos → Prop) (es : List Expr) : Prop := ∀ part ∈ partsAll es, P part.pos

variable {nested : Reader} {c : Cursor} {e : Expr}

/-- An expression stands where its own node does. -/
lemma Within.pos (he : e.Within P) : P e.pos := by
  apply he
  cases e <;> exact List.mem_cons_self

/-- A name stands where it is read. -/
lemma within_name {id : String} {pos : Pos} (h : P pos) : (name id pos).Within P := List.forall_mem_singleton.mpr h

/-- A number stands where it is read. -/
lemma within_int {n : Int} {pos : Pos} (h : P pos) : (int n pos).Within P := List.forall_mem_singleton.mpr h

/-- A reader of expressions reads and reports at the positions. -/
def PlacesExprs (P : Pos → Prop) (nested : Reader) : Prop := ∀ c, c.Within P → PlacedRead P (Within P) (nested c)

/-- Arguments are read and reported at the positions, if expressions are. -/
lemma parseArgs_placed (hn : PlacesExprs P nested) (budget : Nat) (first : Bool) (hc : c.Within P) :
    PlacedRead P (WithinAll P) (parseArgs nested budget first c) := by
  induction budget generalizing first c with
  | zero => exact unexpected_placed hc _
  | succ budget ih =>
    rw [parseArgs_succ]
    refine .ite (fun _ => ⟨List.forall_mem_nil _, hc.advance⟩) fun _ => ?_
    refine (comma_placed hc first).bind fun c hc => ?_
    refine (hn c hc).bind fun ⟨arg, c⟩ ⟨harg, hc⟩ => ?_
    refine (ih false hc).bind fun ⟨args, c⟩ ⟨hargs, hc⟩ => ?_
    exact ⟨List.forall_mem_append.mpr ⟨harg, hargs⟩, hc⟩

/-- A primary expression is read and reported at the positions, if expressions are. -/
lemma parsePrimary_placed (hn : PlacesExprs P nested) (hc : c.Within P) :
    PlacedRead P (Within P) (parsePrimary nested c) := by
  unfold parsePrimary
  dsimp only
  split
  · exact ⟨within_name hc.peek, hc.advance⟩
  · split
    · exact ⟨within_int hc.peek, hc.advance⟩
    · exact unexpected_placed hc _
  · exact .ite (fun _ => ⟨within_name hc.peek, hc.advance⟩) fun _ => unexpected_placed hc _
  · refine .ite (fun _ => ?_) fun _ => unexpected_placed hc _
    refine (hn _ hc.advance).bind fun ⟨e, c⟩ ⟨he, hc⟩ => ?_
    exact (punct_placed hc _).bind fun c hc => ⟨he, hc⟩
  · exact unexpected_placed hc _

/-- A call is read and reported at the positions, if expressions are. -/
lemma parseCall_placed (hn : PlacesExprs P nested) (he : e.Within P) (hc : c.Within P) :
    PlacedRead P (Within P) (parseCall nested e c) := by
  unfold parseCall
  split
  · refine .ite (fun _ => ?_) fun _ => ⟨he, hc⟩
    refine (parseArgs_placed hn _ true hc.advance).bind fun ⟨args, c⟩ ⟨hargs, hc⟩ => ?_
    exact ⟨List.forall_mem_cons.mpr ⟨he.pos, hargs⟩, hc⟩
  · exact ⟨he, hc⟩

/-- Fields are read and reported at the positions. -/
lemma parseFields_placed (budget : Nat) (he : e.Within P) (hc : c.Within P) :
    PlacedRead P (Within P) (parseFields budget e c) := by
  induction budget generalizing e c with
  | zero => exact ⟨he, hc⟩
  | succ budget ih =>
    refine .ite (fun _ => ?_) fun _ => ⟨he, hc⟩
    refine (ident_placed hc.advance _).bind fun ⟨key, c'⟩ ⟨_, hc'⟩ => ?_
    exact ih (List.forall_mem_cons.mpr ⟨hc.peek, he⟩) hc'

/-- An operand is read and reported at the positions, if expressions are. -/
lemma parseOperand_placed (hn : PlacesExprs P nested) (hc : c.Within P) :
    PlacedRead P (Within P) (parseOperand nested c) := by
  refine (parsePrimary_placed hn hc).bind fun ⟨e, c⟩ ⟨he, hc⟩ => ?_
  refine (parseCall_placed hn he hc).bind fun ⟨e, c⟩ ⟨he, hc⟩ => ?_
  exact parseFields_placed _ he hc

/-- A node with two expressions in it stands at the positions if it does so itself and they do. -/
lemma within_both {left right : Expr} (hl : left.Within P) (hr : right.Within P) :
    ∀ part ∈ left.parts ++ right.parts, P part.pos := List.forall_mem_append.mpr ⟨hl, hr⟩

/-- A comparison is read and reported at the positions, if expressions are. -/
lemma parseComparison_placed (hn : PlacesExprs P nested) (hc : c.Within P) :
    PlacedRead P (Within P) (parseComparison nested c) := by
  refine (parseOperand_placed hn hc).bind fun ⟨left, c⟩ ⟨hl, hc⟩ => ?_
  refine .ite (fun _ => ?_) fun _ => ⟨hl, hc⟩
  have hafter : (if c.advance.atKeyword "not" then c.advance.advance else c.advance).Within P := by
    split
    · exact hc.advance.advance
    · exact hc.advance
  refine (parseOperand_placed hn hafter).bind fun ⟨right, c'⟩ ⟨hr, hc'⟩ => ?_
  exact ⟨List.forall_mem_cons.mpr ⟨hc.peek, within_both hl hr⟩, hc'⟩

/-- A negation is read and reported at the positions, if expressions are. -/
lemma parseNegation_placed (hn : PlacesExprs P nested) (budget : Nat) (hc : c.Within P) :
    PlacedRead P (Within P) (parseNegation nested budget c) := by
  induction budget generalizing c with
  | zero => exact unexpected_placed hc _
  | succ budget ih =>
    refine .ite (fun _ => ?_) fun _ => parseComparison_placed hn hc
    refine (ih hc.advance).bind fun ⟨e, c'⟩ ⟨he, hc'⟩ => ?_
    exact ⟨List.forall_mem_cons.mpr ⟨hc.peek, he⟩, hc'⟩

/-- A chain is read and reported at the positions, if its parts are. -/
lemma parseChain_placed (op : Junction) {part : Reader} (hp : PlacesExprs P part) (budget : Nat) (he : e.Within P)
    (hc : c.Within P) : PlacedRead P (Within P) (parseChain op part budget e c) := by
  induction budget generalizing e c with
  | zero => exact ⟨he, hc⟩
  | succ budget ih =>
    refine .ite (fun _ => ?_) fun _ => ⟨he, hc⟩
    refine (hp _ hc.advance).bind fun ⟨right, c'⟩ ⟨hr, hc'⟩ => ?_
    exact ih (List.forall_mem_cons.mpr ⟨hc.peek, within_both he hr⟩) hc'

/-- A conjunction is read and reported at the positions, if expressions are. -/
lemma parseConjunction_placed (hn : PlacesExprs P nested) : PlacesExprs P (parseConjunction nested) := by
  have hpart : PlacesExprs P fun c => parseNegation nested (c.left + 1) c := fun _ hc => parseNegation_placed hn _ hc
  intro c hc
  exact (hpart c hc).bind fun ⟨left, c⟩ ⟨hl, hc⟩ => parseChain_placed .and hpart _ hl hc

/-- A disjunction is read and reported at the positions, if expressions are. -/
lemma parseDisjunction_placed (hn : PlacesExprs P nested) : PlacesExprs P (parseDisjunction nested) := by
  have hpart := parseConjunction_placed hn
  intro c hc
  exact (hpart c hc).bind fun ⟨left, c⟩ ⟨hl, hc⟩ => parseChain_placed .or hpart _ hl hc

/-- An expression is read and reported at the positions, however deep it is nested. -/
lemma parseWithin_placed (budget : Nat) : PlacesExprs P (parseWithin budget) := by
  induction budget with
  | zero => exact fun _ hc => unexpected_placed hc _
  | succ budget ih => exact parseDisjunction_placed ih

/-- An expression is read and reported at the positions. -/
lemma parse_placed : PlacesExprs P Expr.parse := fun _ hc => parseWithin_placed _ _ hc

/-- A single operand is read and reported at the positions. -/
lemma parseSingle_placed : PlacesExprs P parseSingle := fun _ hc => parseOperand_placed parse_placed hc

end Expr

namespace Stmt

/-- A statement and the statements in it stand at the positions, with their expressions. -/
def Within (P : Pos → Prop) (s : Stmt) : Prop := ∀ part ∈ s.parts, P part.pos ∧ ∀ e ∈ part.exprs, e.Within P

/-- Some statements and the statements in them stand at the positions, with their expressions. -/
def WithinAll (P : Pos → Prop) (ss : List Stmt) : Prop :=
  ∀ part ∈ partsAll ss, P part.pos ∧ ∀ e ∈ part.exprs, e.Within P

variable {c : Cursor} {block : BlockReader}

/-- A statement without statements in it. -/
lemma within_alone {s : Stmt} (hparts : s.parts = [s]) (hpos : P s.pos) (hexprs : ∀ e ∈ s.exprs, e.Within P) :
    s.Within P := by
  intro part hpart
  rw [hparts, List.mem_singleton] at hpart
  rw [hpart]
  exact ⟨hpos, hexprs⟩

/-- A condition is read and reported at the positions. -/
lemma parseCondition_placed (hc : c.Within P) : PlacedRead P (Expr.Within P) (parseCondition c) := by
  refine (punct_placed hc _).bind fun c hc => ?_
  refine (Expr.parse_placed c hc).bind fun ⟨e, c⟩ ⟨he, hc⟩ => ?_
  exact (punct_placed hc _).bind fun c hc => ⟨he, hc⟩

/-- A value to be returned is read and reported at the positions. -/
lemma parseValue_placed (hc : c.Within P) :
    PlacedRead P (fun value => ∀ e ∈ value.toList, e.Within P) (parseValue c) := by
  refine (punct_placed hc _).bind fun c hc => ?_
  refine .ite (fun _ => ⟨List.forall_mem_nil _, hc.advance⟩) fun _ => ?_
  refine (Expr.parse_placed c hc).bind fun ⟨e, c⟩ ⟨he, hc⟩ => ?_
  exact (punct_placed hc _).bind fun c hc => ⟨List.forall_mem_singleton.mpr he, hc⟩

/-- An amount is read and reported at the positions. -/
lemma parseAmount_placed (hc : c.Within P) :
    PlacedRead P (fun amount => ∀ e ∈ amount.exprs, e.Within P) (parseAmount c) := by
  refine .ite (fun _ => ⟨List.forall_mem_nil _, hc.advance⟩) fun _ => ?_
  refine .ite (fun _ => ?_) fun _ => ?_
  · exact (int_placed hc _).bind fun ⟨n, c⟩ ⟨_, hc⟩ => ⟨List.forall_mem_nil _, hc⟩
  refine .ite (fun _ => ?_) fun _ => ⟨List.forall_mem_nil _, hc⟩
  exact (Expr.parse_placed _ hc.advance).bind fun ⟨cards, c⟩ ⟨he, hc⟩ => ⟨List.forall_mem_singleton.mpr he, hc⟩

/-- A transfer is read and reported at the positions, if its source stands there. -/
lemma parseTransfer_placed {source : Expr} {pos : Pos} (hs : source.Within P) (hpos : P pos) (hc : c.Within P) :
    PlacedRead P (Within P) (parseTransfer source pos c) := by
  refine .ite (fun _ => hs.pos) fun _ => ?_
  refine (Expr.parseSingle_placed _ hc.advance).bind fun ⟨target, c'⟩ ⟨ht, hc'⟩ => ?_
  refine .ite (fun _ => hc.advance.peek) fun _ => ?_
  refine (parseAmount_placed hc').bind fun ⟨amount, c'⟩ ⟨ha, hc'⟩ => ?_
  exact ⟨within_alone rfl hpos (List.forall_mem_cons.mpr ⟨hs, List.forall_mem_cons.mpr ⟨ht, ha⟩⟩), hc'⟩

/-- A statement that starts with an expression is read and reported at the positions. -/
lemma parseAction_placed (hc : c.Within P) : PlacedRead P (Within P) (parseAction c) := by
  refine (Expr.parse_placed c hc).bind fun ⟨e, c'⟩ ⟨he, hc'⟩ => ?_
  refine .ite (fun _ => parseTransfer_placed he hc.peek hc') fun _ => ?_
  cases e with
  | call fn args pos => exact ⟨within_alone rfl hc.peek (List.forall_mem_singleton.mpr he), hc'⟩
  | _ => exact hc.peek

/-- A reader of blocks reads and reports at the positions. -/
def PlacesBlocks (P : Pos → Prop) (block : BlockReader) : Prop :=
  ∀ c, c.Within P → PlacedRead P (WithinAll P) (block c)

/-- A statement is read and reported at the positions, if blocks are. -/
lemma parse_placed (hb : PlacesBlocks P block) (hc : c.Within P) :
    PlacedRead P (Within P) (Stmt.parse block c) := by
  refine .ite (fun _ => ?_) fun _ => ?_
  · refine (parseCondition_placed hc.advance).bind fun ⟨e, c'⟩ ⟨he, hc'⟩ => ?_
    refine (hb c' hc').bind fun ⟨body, c'⟩ ⟨hbody, hc'⟩ => ?_
    exact ⟨List.forall_mem_cons.mpr ⟨⟨hc.peek, List.forall_mem_singleton.mpr he⟩, hbody⟩, hc'⟩
  refine .ite (fun _ => ?_) fun _ => ?_
  · refine (parseCondition_placed hc.advance).bind fun ⟨e, c'⟩ ⟨he, hc'⟩ => ?_
    exact ⟨within_alone rfl hc.peek (List.forall_mem_singleton.mpr he), hc'⟩
  refine .ite (fun _ => ?_) fun _ => parseAction_placed hc
  refine (parseValue_placed hc.advance).bind fun ⟨value, c'⟩ ⟨hvalue, hc'⟩ => ?_
  exact ⟨within_alone rfl hc.peek hvalue, hc'⟩

/-- The statements up to a brace are read and reported at the positions, if blocks are. -/
lemma parseUntilBrace_placed (hb : PlacesBlocks P block) (budget : Nat) (hc : c.Within P) :
    PlacedRead P (WithinAll P) (parseUntilBrace block budget c) := by
  induction budget generalizing c with
  | zero => exact unexpected_placed hc _
  | succ budget ih =>
    refine .ite (fun _ => ⟨List.forall_mem_nil _, hc.advance⟩) fun _ => ?_
    refine .ite (fun _ => unexpected_placed hc _) fun _ => ?_
    refine (parse_placed hb hc).bind fun ⟨s, c⟩ ⟨hs, hc⟩ => ?_
    refine (ih hc).bind fun ⟨ss, c⟩ ⟨hss, hc⟩ => ?_
    exact ⟨List.forall_mem_append.mpr ⟨hs, hss⟩, hc⟩

/-- A block is read and reported at the positions, however deep it is nested. -/
lemma parseBlockWithin_placed (budget : Nat) : PlacesBlocks P (parseBlockWithin budget) := by
  induction budget with
  | zero => exact fun _ hc => unexpected_placed hc _
  | succ budget ih =>
    intro c hc
    exact (punct_placed hc _).bind fun c hc => parseUntilBrace_placed ih _ hc

/-- A block is read and reported at the positions. -/
lemma parseBlock_placed : PlacesBlocks P parseBlock := fun _ hc => parseBlockWithin_placed _ _ hc

end Stmt

namespace Draft

/-- The trees of a draft stand at the positions, and so does the declaration of the player who starts, which is named in
an error. There is a player, so it is not named where it has not been declared. -/
structure Within (P : Pos → Prop) (d : Draft) : Prop where
  deck : ∀ deck ∈ d.deck, deck.value.Within P
  players : ∀ players ∈ d.players, 1 ≤ players.value
  firstPlayer : ∀ first ∈ d.firstPlayer, P first.pos
  functions : ∀ f ∈ d.functions, P f.pos ∧ Stmt.WithinAll P f.body

variable {d : Draft} {c : Cursor}

/-- What is declared twice is reported where it is declared again. -/
lemma once_placed {α : Type} {pos : Pos} (hpos : P pos) (key : String) (earlier : Option (Declared α)) :
    Placed P (fun _ => True) (once key earlier pos) := by
  cases earlier with
  | none => trivial
  | some _ => exact hpos

/-- The name of a game is read and reported at the positions. -/
lemma parseName_placed (hd : d.Within P) (hc : c.Within P) : PlacedRead P (Within P) (parseName d c) := by
  refine (once_placed hc.peek _ _).bind fun _ _ => ?_
  exact .ite (fun _ => ⟨⟨hd.deck, hd.players, hd.firstPlayer, hd.functions⟩, hc.advance.advance⟩)
    fun _ => unexpected_placed hc.advance _

/-- A deck is read and reported at the positions. -/
lemma parseDeck_placed (hd : d.Within P) (hc : c.Within P) : PlacedRead P (Within P) (parseDeck d c) := by
  refine (once_placed hc.peek _ _).bind fun _ _ => ?_
  refine (Expr.parse_placed _ hc.advance).bind fun ⟨e, c⟩ ⟨he, hc⟩ => ?_
  refine ⟨⟨?_, hd.players, hd.firstPlayer, hd.functions⟩, hc⟩
  rintro _ ⟨⟩
  exact he

/-- A positive number is read and reported at the positions. -/
lemma parsePositive_placed (what least : String) (hc : c.Within P) :
    PlacedRead P (1 ≤ ·) (parsePositive what least c) := by
  refine (int_placed hc _).bind fun ⟨n, c'⟩ ⟨_, hc'⟩ => ?_
  exact .ite (fun _ => hc.peek) fun hn => ⟨Int.not_lt.mp hn, hc'⟩

/-- The number of players is read and reported at the positions. -/
lemma parsePlayers_placed (hd : d.Within P) (hc : c.Within P) : PlacedRead P (Within P) (parsePlayers d c) := by
  refine (once_placed hc.peek _ _).bind fun _ _ => ?_
  refine (parsePositive_placed _ _ hc.advance).bind fun ⟨n, c⟩ ⟨hn, hc⟩ => ?_
  refine ⟨⟨hd.deck, ?_, hd.firstPlayer, hd.functions⟩, hc⟩
  rintro _ ⟨⟩
  exact hn

/-- The first player is read and reported at the positions. -/
lemma parseFirstPlayer_placed (hd : d.Within P) (hc : c.Within P) :
    PlacedRead P (Within P) (parseFirstPlayer d c) := by
  refine (once_placed hc.peek _ _).bind fun _ _ => ?_
  refine (parsePositive_placed _ _ hc.advance).bind fun ⟨n, c'⟩ ⟨_, hc'⟩ => ?_
  refine ⟨⟨hd.deck, hd.players, ?_, hd.functions⟩, hc'⟩
  rintro _ ⟨⟩
  exact hc.peek

/-- A name of a stack that is not new is reported where it stands. -/
lemma newStack_placed {name : Token} (hname : P name.pos) : Placed P (fun _ => True) (newStack d name) :=
  .ite (fun _ => hname) fun _ => trivial

/-- A stack is read and reported at the positions. -/
lemma parseStack_placed (hd : d.Within P) (hc : c.Within P) : PlacedRead P (Within P) (parseStack d c) := by
  have hkept : ∀ tableStacks playerStacks,
      Within P { d with tableStacks := tableStacks, playerStacks := playerStacks } := fun _ _ =>
    ⟨hd.deck, hd.players, hd.firstPlayer, hd.functions⟩
  refine (ident_placed hc.advance _).bind fun ⟨name, c⟩ ⟨hname, hc⟩ => ?_
  refine .ite (fun _ => ?_) fun _ => ?_
  · refine .ite (fun _ => hname) fun _ => ?_
    refine (ident_placed hc.advance _).bind fun ⟨name, c⟩ ⟨hname, hc⟩ => ?_
    refine (newStack_placed hname).bind fun _ _ => ?_
    exact .ite (fun _ => hname) fun _ => ⟨hkept _ _, hc⟩
  · exact (newStack_placed hname).bind fun _ _ => ⟨hkept _ _, hc⟩

/-- Parameters are read and reported at the positions. -/
lemma parseParams_placed (budget : Nat) (earlier : List String) (hc : c.Within P) :
    PlacedRead P (fun _ => True) (parseParams budget earlier c) := by
  induction budget generalizing earlier c with
  | zero => exact unexpected_placed hc _
  | succ budget ih =>
    rw [parseParams_succ]
    refine .ite (fun _ => ⟨trivial, hc.advance⟩) fun _ => ?_
    refine (comma_placed hc _).bind fun c hc => ?_
    refine (ident_placed hc _).bind fun ⟨param, c⟩ ⟨hparam, hc⟩ => ?_
    exact .ite (fun _ => hparam) fun _ => ih _ hc

/-- A function is read and reported at the positions. -/
lemma parseFunction_placed (hd : d.Within P) (hc : c.Within P) : PlacedRead P (Within P) (parseFunction d c) := by
  refine (ident_placed hc.advance _).bind fun ⟨name, c'⟩ ⟨hname, hc'⟩ => ?_
  refine .ite (fun _ => hname) fun _ => ?_
  refine (punct_placed hc' _).bind fun c' hc' => ?_
  refine (parseParams_placed _ [] hc').bind fun ⟨params, c'⟩ ⟨_, hc'⟩ => ?_
  refine (Stmt.parseBlock_placed c' hc').bind fun ⟨body, c'⟩ ⟨hbody, hc'⟩ => ?_
  refine ⟨⟨hd.deck, hd.players, hd.firstPlayer, ?_⟩, hc'⟩
  exact List.forall_mem_append.mpr ⟨hd.functions, List.forall_mem_singleton.mpr ⟨hc.peek, hbody⟩⟩

/-- An item is read and reported at the positions. -/
lemma parseItem_placed (hd : d.Within P) (hc : c.Within P) : PlacedRead P (Within P) (parseItem d c) := by
  refine .ite (fun _ => parseName_placed hd hc) fun _ => ?_
  refine .ite (fun _ => parseDeck_placed hd hc) fun _ => ?_
  refine .ite (fun _ => parsePlayers_placed hd hc) fun _ => ?_
  refine .ite (fun _ => parseFirstPlayer_placed hd hc) fun _ => ?_
  refine .ite (fun _ => parseStack_placed hd hc) fun _ => ?_
  exact .ite (fun _ => parseFunction_placed hd hc) fun _ => unexpected_placed hc _

/-- All items are read and reported at the positions. -/
lemma parseItems_placed (budget : Nat) (hd : d.Within P) (hc : c.Within P) :
    Placed P (Within P) (parseItems budget d c) := by
  induction budget generalizing d c with
  | zero => exact hd
  | succ budget ih =>
    refine .ite (fun _ => hd) fun _ => ?_
    exact (parseItem_placed hd hc).bind fun ⟨d, c⟩ ⟨hd, hc⟩ => ih hd hc

end Draft

/-- The trees of a program stand at the positions. -/
def Program.Within (P : Pos → Prop) (p : Program) : Prop :=
  p.deck.Within P ∧ ∀ f ∈ p.functions, P f.pos ∧ Stmt.WithinAll P f.body

namespace Draft

/-- What a program must have is missed at the end of input. -/
lemma required_placed {α : Type} {stop : Pos} (hstop : P stop) (key : String) (o : Option (Declared α)) :
    Placed P (fun a => ∃ d ∈ o, d.value = a) (required key stop o) := by
  cases o with
  | none => exact hstop
  | some d => exact ⟨d, rfl, rfl⟩

/-- A program that is complete stands at the positions, and what is missing is reported there. -/
lemma finish_placed {d : Draft} {stop : Pos} (hd : d.Within P) (hstop : P stop) :
    Placed P (Program.Within P) (d.finish stop) := by
  refine (required_placed hstop _ d.name).bind fun name _ => ?_
  refine (required_placed hstop _ d.deck).bind ?_
  rintro _ ⟨deck, hdeck, rfl⟩
  refine (required_placed hstop _ d.players).bind ?_
  rintro _ ⟨players, hplayers, rfl⟩
  refine .ite (fun hlt => ?_) fun _ => ⟨hd.deck deck hdeck, hd.functions⟩
  -- a player who has not been declared is the first, and there is one
  cases hfirst : d.firstPlayer with
  | some first => exact hd.firstPlayer first hfirst
  | none =>
    rw [hfirst] at hlt
    exact absurd hlt (Int.not_lt.mpr (hd.players players hplayers))

end Draft

namespace Binding

variable {n : Names} {e : Expr}

/-- A check accepts, or it reports at the positions. -/
abbrev Reports (P : Pos → Prop) (x : Except ParseError Unit) : Prop := Placed P (fun _ => True) x

/-- A predicate that is not known is reported where it stands. -/
lemma checkPredicate_placed (he : e.Within P) : Reports P (checkPredicate n e) := by
  cases e with
  | name id pos => exact .ite (fun _ => trivial) fun _ => he.pos
  | _ => exact he.pos

/-- The predicate of a filter is reported where it stands. -/
lemma checkFilter_placed {fn : String} {args : List Expr} (hargs : Expr.WithinAll P args) :
    Reports P (checkFilter n fn args) := by
  unfold checkFilter
  split
  · next cards predicate =>
    have hpredicate : predicate.Within P := by
      intro part hpart
      apply hargs
      simp [Expr.partsAll, hpart]
    exact .ite (fun _ => checkPredicate_placed hpredicate) fun _ => trivial
  · trivial

mutual

/-- What is not bound in an expression is reported at the positions. -/
lemma checkExpr_placed : ∀ e : Expr, e.Within P → Reports P (checkExpr n e)
  | .name _ _, _ => trivial
  | .int _ _, _ => trivial
  | .field base _ _, he => by
    rw [checkExpr]
    refine .ite (fun _ => .ite (fun _ => trivial) fun _ => he.pos) fun _ => ?_
    refine .ite (fun _ => checkExpr_placed base ?_) fun _ => he.pos
    exact (List.forall_mem_cons.mp he).2
  | .call _ args _, he => by
    have hargs : Expr.WithinAll P args := (List.forall_mem_cons.mp he).2
    exact (checkFilter_placed hargs).bind fun _ _ => checkExprs_placed args hargs
  | .compare left right _ _, he => by
    obtain ⟨hl, hr⟩ := List.forall_mem_append.mp (List.forall_mem_cons.mp he).2
    exact (checkExpr_placed left hl).bind fun _ _ => checkExpr_placed right hr
  | .join _ left right _, he => by
    obtain ⟨hl, hr⟩ := List.forall_mem_append.mp (List.forall_mem_cons.mp he).2
    exact (checkExpr_placed left hl).bind fun _ _ => checkExpr_placed right hr
  | .not operand _, he => checkExpr_placed operand (List.forall_mem_cons.mp he).2

/-- What is not bound in some expressions is reported at the positions. -/
lemma checkExprs_placed : ∀ es : List Expr, Expr.WithinAll P es → Reports P (checkExprs n es)
  | [], _ => trivial
  | e :: es, hes => by
    obtain ⟨he, hes⟩ := List.forall_mem_append.mp hes
    exact (checkExpr_placed e he).bind fun _ _ => checkExprs_placed es hes

end

/-- A name of players as the end of a transfer is reported where it stands. -/
lemma checkEndName_placed {id : String} {pos : Pos} (h : P pos) : Reports P (checkEndName id pos) :=
  .ite (fun _ => h) fun _ => .ite (fun _ => h) fun _ => trivial

/-- What is wrong with a source is reported at the positions. -/
lemma checkSource_placed (he : e.Within P) : Reports P (checkSource n e) := by
  unfold checkSource
  split
  · exact checkEndName_placed he.pos
  · exact .ite (fun _ => he.pos) fun _ => checkExpr_placed _ he

/-- What is wrong with a target is reported at the positions. -/
lemma checkTarget_placed (he : e.Within P) : Reports P (checkTarget n e) := by
  cases e with
  | name id pos => exact checkEndName_placed he.pos
  | _ => exact checkExpr_placed _ he

/-- What is wrong with an amount is reported at the positions. -/
lemma checkAmount_placed {target : Expr} {amount : Amount} (ha : ∀ e ∈ amount.exprs, e.Within P) :
    Reports P (checkAmount n target amount) := by
  cases amount with
  | these cards =>
    have hcards : cards.Within P := ha cards List.mem_cons_self
    exact .ite (fun _ => hcards.pos) fun _ => checkExpr_placed cards hcards
  | _ => trivial

mutual

/-- What is wrong with a statement is reported at the positions. -/
lemma checkStmt_placed : ∀ s : Stmt, s.Within P → Reports P (checkStmt n s)
  | .transfer source target amount _, hs => by
    obtain ⟨hsource, hrest⟩ := List.forall_mem_cons.mp (hs _ List.mem_cons_self).2
    obtain ⟨htarget, hamount⟩ := List.forall_mem_cons.mp hrest
    refine (checkSource_placed hsource).bind fun _ _ => ?_
    exact (checkTarget_placed htarget).bind fun _ _ => checkAmount_placed hamount
  | .check condition _, hs => checkExpr_placed condition ((hs _ List.mem_cons_self).2 _ List.mem_cons_self)
  | .ret none _, _ => trivial
  | .ret (some value) _, hs => checkExpr_placed value ((hs _ List.mem_cons_self).2 _ List.mem_cons_self)
  | .call fn args pos _, hs =>
    checkExpr_placed (.call fn args pos) ((hs _ List.mem_cons_self).2 _ List.mem_cons_self)
  | .when condition body _, hs => by
    obtain ⟨hself, hbody⟩ := List.forall_mem_cons.mp hs
    exact (checkExpr_placed condition (hself.2 _ List.mem_cons_self)).bind fun _ _ => checkStmts_placed body hbody

/-- What is wrong with some statements is reported at the positions. -/
lemma checkStmts_placed : ∀ ss : List Stmt, Stmt.WithinAll P ss → Reports P (checkStmts n ss)
  | [], _ => trivial
  | s :: ss, hss => by
    obtain ⟨hs, hss⟩ := List.forall_mem_append.mp hss
    exact (checkStmt_placed s hs).bind fun _ _ => checkStmts_placed ss hss

end

/-- What is wrong with the bodies of functions is reported at the positions. -/
lemma checkFunctions_placed {fs : List Function} (hfs : ∀ f ∈ fs, Stmt.WithinAll P f.body) :
    Reports P (checkFunctions n fs) := by
  induction fs with
  | nil => trivial
  | cons f fs ih =>
    obtain ⟨hf, hfs⟩ := List.forall_mem_cons.mp hfs
    exact (checkStmts_placed f.body hf).bind fun _ _ => ih hfs

/-- What is wrong with a program is reported at the positions of its parts. -/
lemma check_placed {p : Program} (hp : p.Within P) : Reports P (check p) :=
  (checkExpr_placed p.deck hp.1).bind fun _ _ => checkFunctions_placed fun f hf => (hp.2 f hf).2

end Binding

namespace Program

/-- All expressions of a program stand at the positions. -/
lemma Within.exprs {p : Program} (hp : p.Within P) : ∀ e ∈ p.exprs, P e.pos := by
  refine List.forall_mem_append.mpr ⟨hp.1, ?_⟩
  refine List.forall_mem_flatMap.mpr (List.forall_mem_flatMap.mpr fun f hf s hs => ?_)
  exact List.forall_mem_flatMap.mpr ((hp.2 f hf).2 s hs).2

/-- All statements of a program stand at the positions. -/
lemma Within.stmts {p : Program} (hp : p.Within P) : ∀ s ∈ p.stmts, P s.pos :=
  List.forall_mem_flatMap.mpr fun f hf s hs => ((hp.2 f hf).2 s hs).1

/-- A program that is read stands at the positions of its tokens, and what is refused is reported there. -/
lemma ofTokens_placed {tokens : List Token} (hc : (Cursor.ofTokens tokens).Within P) :
    Placed P (Within P) (ofTokens tokens) := by
  have hempty : Draft.Within P {} := ⟨nofun, nofun, nofun, List.forall_mem_nil _⟩
  refine (Draft.parseItems_placed _ hempty hc).bind fun d hd => ?_
  refine (Draft.finish_placed hd hc.stop).bind fun p hp => ?_
  exact (Binding.check_placed hp).bind fun _ _ => hp

/-- The tokens of a source are followed by an end of input, so a cursor in front of them stands at their positions. -/
lemma within_ofSource {source : List Char} {tokens : List Token} (h : Token.ofSource source = .ok tokens) :
    (Cursor.ofTokens tokens).Within fun pos => ∃ t ∈ tokens, t.pos = pos := by
  obtain ⟨front, rfl, _⟩ := (Token.ofSource_eq_ok_iff.mp h).places
  constructor
  case rest => exact fun t ht => ⟨t, List.takeWhile_subset _ ht, rfl⟩
  case stop =>
    have hend : ∃ t, (front ++ [Token.endAt (Pos.start.afterAll source)]).find?
        (fun t => decide (t.kind = .endOfInput)) = some t :=
      Option.isSome_iff_exists.mp (List.find?_isSome.mpr ⟨_, List.mem_append_right _ List.mem_cons_self, rfl⟩)
    obtain ⟨t, ht⟩ := hend
    refine ⟨t, List.mem_of_find?_eq_some ht, ?_⟩
    simp only [Cursor.ofTokens, ht, Option.elim_some]

/-- A source that can be cut into tokens but is no program is reported at one of them, and every expression, statement
and function of a program stands at a token of its source. -/
theorem placed_in_source (source : List Char) :
    (∀ error, ofSource source = .error (.parse error) →
      ∃ tokens, Token.ofSource source = .ok tokens ∧ ∃ t ∈ tokens, t.pos = error.pos) ∧
    ∀ p, ofSource source = .ok p → ∃ tokens, Token.ofSource source = .ok tokens ∧
      (∀ e ∈ p.exprs, ∃ t ∈ tokens, t.pos = e.pos) ∧ (∀ s ∈ p.stmts, ∃ t ∈ tokens, t.pos = s.pos) ∧
      ∀ f ∈ p.functions, ∃ t ∈ tokens, t.pos = f.pos := by
  constructor
  · intro error h
    rcases bind_eq_error.mp h with h | ⟨tokens, htokens, h⟩
    · obtain ⟨_, _, hlex⟩ := mapError_eq_error.mp h
      cases hlex
    · obtain ⟨_, herror, hparse⟩ := mapError_eq_error.mp h
      cases hparse
      rw [mapError_eq_ok] at htokens
      have hplaced := ofTokens_placed (within_ofSource htokens)
      rw [herror] at hplaced
      exact ⟨tokens, htokens, hplaced⟩
  · intro p h
    obtain ⟨tokens, htokens, h⟩ := bind_eq_ok.mp h
    rw [mapError_eq_ok] at htokens h
    have hplaced := ofTokens_placed (within_ofSource htokens)
    rw [h] at hplaced
    exact ⟨tokens, htokens, hplaced.exprs, hplaced.stmts, fun f hf => (hplaced.2 f hf).1⟩

/-- A program whose predicate is misspelled on its third line, and that is otherwise in order. -/
def misspelled : String := "name sweep deck StandardDeck players 2 stack player:hand
  def low(card) \x7b return(card:rank is 1) \x7d
  def sweep(player, move) \x7b check(not filter(player:hand, lwo) is 0) \x7d"

/-- The misspelled predicate is reported where it stands, and the tree of a program in order stands at its tokens. -/
theorem misspelled_placed :
    (∃ error, ofSource misspelled.toList = .error (.parse error) ∧ error.pos = ⟨3, 59⟩ ∧
      ∃ tokens, Token.ofSource misspelled.toList = .ok tokens ∧ ∃ t ∈ tokens, t.pos = error.pos) ∧
    ∃ p, ofSource sweep.toList = .ok p ∧ p.exprs.length = 23 ∧
      ∃ tokens, Token.ofSource sweep.toList = .ok tokens ∧ ∀ e ∈ p.exprs, ∃ t ∈ tokens, t.pos = e.pos := by
  constructor
  · have herror : ofSource misspelled.toList = .error (.parse ⟨⟨3, 59⟩, "predicate function name", "lwo", none⟩) := by
      rw [misspelled, String.toList_ofList]
      decide +kernel
    exact ⟨_, herror, rfl, (placed_in_source _).1 _ herror⟩
  · have hread : (ofSource sweep.toList).toOption.any (fun p => p.exprs.length = 23) = true := by
      rw [sweep, String.toList_ofList]
      decide +kernel
    obtain ⟨p, hp, hlength⟩ := exists_of_any hread
    obtain ⟨tokens, htokens, hexprs, _⟩ := (placed_in_source _).2 p hp
    exact ⟨p, hp, of_decide_eq_true hlength, tokens, htokens, hexprs⟩

end Program

end Croupier
