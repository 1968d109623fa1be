import Croupier.Proofs.Expr.Reading
import Croupier.Proofs.Program.Declarations

/-!
# Reading goes on

A reader that succeeds leaves its cursor further on in the same tokens, and readers of phrases have read at least one
token. A sequence of readers goes on as far as its first part does (`Onward.bind`). This is why every loop of the
readers comes to an end, and how what has been read is told from what is left.
-/

namespace Croupier

open Cursor (Spans spans_advance spans_punct spans_keyword punct_ok ident_ok)

section Results

variable {α β : Type} {n : Nat} {c c' : Cursor} {x y : Except ParseError (α × Cursor)}

/-- What is read from a cursor on are at least so many tokens. -/
def Onward (n : Nat) (c : Cursor) (x : Except ParseError (α × Cursor)) : Prop :=
  ∀ a c', x = .ok (a, c') → ∃ ts, c.Spans ts c' ∧ n ≤ ts.length

/-- What has been read is missing from what is left. -/
lemma Onward.left_le {a : α} (h : Onward n c x) (hx : x = .ok (a, c')) : c'.left + n ≤ c.left := by
  obtain ⟨ts, hspan, hn⟩ := h a c' hx
  unfold Cursor.left
  rw [hspan.rest_eq, List.length_append]
  omega

/-- A reader that has read some tokens has read. -/
lemma Onward.weaken (h : Onward n c x) : Onward 0 c x := by
  intro a c' hx
  obtain ⟨ts, hspan, _⟩ := h a c' hx
  exact ⟨ts, hspan, Nat.zero_le _⟩

/-- Where nothing is read the cursor stays. -/
lemma onward_here (a : α) : Onward 0 c (.ok (a, c)) := by
  rintro _ _ ⟨⟩
  exact ⟨[], .refl, Nat.le_refl 0⟩

/-- An error leaves no cursor. -/
lemma onward_error {e : ParseError} : Onward n c (.error e : Except ParseError (α × Cursor)) := nofun

/-- A token in front of what is read counts too. -/
lemma Onward.of_spans {t : Token} (hspan : c.Spans [t] c') (h : Onward 0 c' x) : Onward 1 c x := by
  intro a c'' hx
  obtain ⟨us, hspan', _⟩ := h a c'' hx
  exact ⟨t :: us, hspan.trans hspan', Nat.succ_le_succ (Nat.zero_le _)⟩

/-- What is read after the next token counts as read from the cursor on. -/
lemma Onward.of_advance (h : Onward n c.advance x) : Onward n c x := by
  intro a c' hx
  obtain ⟨ts, hspan, hn⟩ := h a c' hx
  obtain ⟨rest, stop⟩ := c
  cases rest with
  | nil => exact ⟨ts, hspan, hn⟩
  | cons t rest =>
    refine ⟨t :: ts, ⟨congrArg (t :: ·) hspan.rest_eq, hspan.stop_eq⟩, ?_⟩
    exact Nat.le_succ_of_le hn

/-- A sequence of readers reads at least what its first part does. -/
lemma Onward.bind {f : α × Cursor → Except ParseError (β × Cursor)} (hx : Onward n c x)
    (hf : ∀ a c', Onward 0 c' (f (a, c'))) : Onward n c (x >>= f) := by
  intro b c'' h
  obtain ⟨⟨a, c'⟩, ha, hb⟩ := bind_eq_ok.mp h
  obtain ⟨ts, hspan, hn⟩ := hx a c' ha
  obtain ⟨us, hspan', _⟩ := hf a c' b c'' hb
  refine ⟨ts ++ us, hspan.trans hspan', ?_⟩
  rw [List.length_append]
  exact Nat.le_add_right_of_le hn

/-- A check reads nothing. -/
lemma Onward.after {u : Except ParseError α} {f : α → Except ParseError (β × Cursor)} (hf : ∀ a, Onward n c (f a)) :
    Onward n c (u >>= f) := by
  intro b c' h
  obtain ⟨a, _, hb⟩ := bind_eq_ok.mp h
  exact hf a b c' hb

/-- A test chooses between readers that go on. -/
lemma Onward.ite {p : Prop} [Decidable p] (hx : p → Onward n c x) (hy : ¬ p → Onward n c y) :
    Onward n c (if p then x else y) := by
  split
  · next hp => exact hx hp
  · next hp => exact hy hp

/-- A sign is one token in front of what is read. -/
lemma onward_punct {sign : String} {f : Cursor → Except ParseError (β × Cursor)}
    (hf : ∀ c', Onward 0 c' (f c')) : Onward 1 c (c.punct sign >>= f) := by
  intro b c'' h
  obtain ⟨c', hc', hb⟩ := bind_eq_ok.mp h
  obtain ⟨hs, rfl⟩ := punct_ok hc'
  exact (hf _).of_spans (spans_punct hs) b c'' hb

/-- Between items a comma may be read, and an item must be. -/
lemma onward_comma {first : Bool} {f : Cursor → Except ParseError (β × Cursor)}
    (hf : ∀ c', Onward 1 c' (f c')) : Onward 1 c ((if first then .ok c else c.punct ",") >>= f) := by
  cases first with
  | true => exact hf c
  | false => exact onward_punct fun c' => (hf c').weaken

/-- A sign that closes something is one token. -/
lemma onward_close {sign : String} (hs : c.atPunct sign = true) (a : α) : Onward 1 c (.ok (a, c.advance)) :=
  (onward_here a).of_spans (spans_punct hs)

/-- A token of a kind other than the end of input is one token. -/
lemma onward_token {kind : TokenKind} (hk : c.peek.kind = kind) (hne : kind ≠ .endOfInput) (a : α) :
    Onward 1 c (.ok (a, c.advance)) :=
  (onward_here a).of_spans (spans_advance (hk ▸ hne))

/-- A name is one token. -/
lemma ident_onward (what : String) : Onward 1 c (c.ident what) :=
  .ite (fun hk => onward_token hk nofun _) fun _ => onward_error

/-- A number is one token. -/
lemma int_onward (what : String) : Onward 1 c (c.int what) := by
  refine .ite (fun hk => ?_) fun _ => onward_error
  split
  · exact onward_token hk nofun _
  · exact onward_error

end Results

namespace Expr

variable {nested : Reader} {c : Cursor} {e : Expr}

/-- A reader of expressions reads at least one token. -/
def Consumes (nested : Reader) : Prop := ∀ c, Onward 1 c (nested c)

/-- The arguments of a call end with a token that closes them. -/
lemma parseArgs_onward (hn : Consumes nested) (budget : Nat) (first : Bool) :
    Onward 1 c (parseArgs nested budget first c) := by
  induction budget generalizing first c with
  | zero => exact onward_error
  | succ budget ih =>
    rw [parseArgs_succ]
    refine .ite (fun hclose => onward_close hclose _) fun _ => ?_
    refine onward_comma fun c => ?_
    exact (hn c).bind fun arg c => .weaken <| (ih false).bind fun _ _ => onward_here _

/-- A primary expression is at least one token. -/
lemma parsePrimary_onward (hn : Consumes nested) : Consumes (parsePrimary nested) := by
  intro c
  unfold parsePrimary
  dsimp only
  split
  · next hk => exact onward_token hk nofun _
  · next hk =>
    split
    · exact onward_token hk nofun _
    · exact onward_error
  · next hk => exact .ite (fun _ => onward_token hk nofun _) fun _ => onward_error
  · refine .ite (fun _ => .of_advance ?_) fun _ => onward_error
    exact (hn _).bind fun e c => .weaken <| onward_punct fun _ => onward_here e
  · exact onward_error

/-- The arguments of a call may be missing. -/
lemma parseCall_onward (hn : Consumes nested) : Onward 0 c (parseCall nested e c) := by
  unfold parseCall
  split
  · refine .ite (fun _ => .of_advance ?_) fun _ => onward_here _
    exact .weaken <| (parseArgs_onward hn _ true).bind fun _ _ => onward_here _
  · exact onward_here _

/-- Fields may be missing. -/
lemma parseFields_onward (budget : Nat) : Onward 0 c (parseFields budget e c) := by
  induction budget generalizing e c with
  | zero => exact onward_here _
  | succ budget ih =>
    refine .ite (fun _ => .of_advance ?_) fun _ => onward_here _
    exact .weaken <| (ident_onward _).bind fun key c => ih

/-- An operand is at least one token. -/
lemma parseOperand_onward (hn : Consumes nested) : Consumes (parseOperand nested) := by
  intro c
  refine (parsePrimary_onward hn c).bind fun e c => ?_
  exact (parseCall_onward hn).bind fun e c => parseFields_onward _

/-- The second operand of a comparison, after `not` or without it. -/
lemma secondOperand_onward (hn : Consumes nested) :
    Onward 1 c (parseOperand nested (if c.atKeyword "not" then c.advance else c)) := by
  split
  · exact (parseOperand_onward hn _).of_advance
  · exact parseOperand_onward hn _

/-- A comparison is at least one token. -/
lemma parseComparison_onward (hn : Consumes nested) : Consumes (parseComparison nested) := by
  intro c
  refine (parseOperand_onward hn c).bind fun left c => ?_
  refine .ite (fun _ => .of_advance ?_) fun _ => onward_here _
  exact .weaken <| (secondOperand_onward hn).bind fun _ _ => onward_here _

/-- A negation is at least one token. -/
lemma parseNegation_onward (hn : Consumes nested) (budget : Nat) : Consumes (parseNegation nested budget) := by
  induction budget with
  | zero => exact fun _ => onward_error
  | succ budget ih =>
    intro c
    refine .ite (fun _ => .of_advance ?_) fun _ => parseComparison_onward hn c
    exact (ih _).bind fun _ _ => onward_here _

/-- Further parts of a chain may be missing. -/
lemma parseChain_onward (op : Junction) {part : Reader} (hp : Consumes part) (budget : Nat) :
    Onward 0 c (parseChain op part budget e c) := by
  induction budget generalizing e c with
  | zero => exact onward_here _
  | succ budget ih =>
    refine .ite (fun _ => .of_advance ?_) fun _ => onward_here _
    exact .weaken <| (hp _).bind fun right c => ih

/-- A conjunct is at least one token. -/
lemma parseConjunct_onward (hn : Consumes nested) : Consumes (parseConjunct nested) := fun c =>
  parseNegation_onward hn _ c

/-- A conjunction is at least one token. -/
lemma parseConjunction_onward (hn : Consumes nested) : Consumes (parseConjunction nested) := fun c =>
  (parseConjunct_onward hn c).bind fun _ _ => parseChain_onward .and (parseConjunct_onward hn) _

/-- A disjunction is at least one token. -/
lemma parseDisjunction_onward (hn : Consumes nested) : Consumes (parseDisjunction nested) := fun c =>
  (parseConjunction_onward hn c).bind fun _ _ => parseChain_onward .or (parseConjunction_onward hn) _

/-- An expression is at least one token, however deep it is nested. -/
lemma parseWithin_onward (budget : Nat) : Consumes (parseWithin budget) := by
  induction budget with
  | zero => exact fun _ => onward_error
  | succ budget ih => exact parseDisjunction_onward ih

/-- An expression is at least one token. -/
lemma parse_onward : Consumes Expr.parse := fun _ => parseWithin_onward _ _

/-- A single operand is at least one token. -/
lemma parseSingle_onward : Consumes parseSingle := parseOperand_onward parse_onward

end Expr

namespace Stmt

variable {block : BlockReader} {c : Cursor}

/-- A condition stands in parentheses. -/
lemma parseCondition_onward : Onward 1 c (parseCondition c) :=
  onward_punct fun c => .weaken <| (Expr.parse_onward c).bind fun e _ => .weaken <| onward_punct fun _ => onward_here e

/-- A value to be returned stands in parentheses. -/
lemma parseValue_onward : Onward 1 c (parseValue c) := by
  refine onward_punct fun c => ?_
  refine .ite (fun _ => .of_advance (onward_here _)) fun _ => ?_
  exact .weaken <| (Expr.parse_onward c).bind fun e c => .weaken <| onward_punct fun _ => onward_here _

/-- An amount may be missing. -/
lemma parseAmount_onward : Onward 0 c (parseAmount c) := by
  refine .ite (fun _ => .of_advance (onward_here _)) fun _ => ?_
  refine .ite (fun _ => ?_) fun _ => ?_
  · exact .weaken <| (int_onward _).bind fun _ _ => onward_here _
  refine .ite (fun _ => .of_advance ?_) fun _ => onward_here _
  exact .weaken <| (Expr.parse_onward _).bind fun _ _ => onward_here _

/-- What follows the source of a transfer does not go back. -/
lemma parseTransfer_onward {source : Expr} {pos : Pos} : Onward 0 c (parseTransfer source pos c) := by
  refine .ite (fun _ => onward_error) fun _ => .of_advance ?_
  refine .weaken <| (Expr.parseSingle_onward _).bind fun target c => ?_
  refine .ite (fun _ => onward_error) fun _ => ?_
  exact parseAmount_onward.bind fun _ _ => onward_here _

/-- A statement that starts with an expression is at least one token. -/
lemma parseAction_onward : Onward 1 c (parseAction c) := by
  refine (Expr.parse_onward c).bind fun e c => ?_
  refine .ite (fun _ => parseTransfer_onward) fun _ => ?_
  cases e with
  | call fn args pos => exact onward_here _
  | _ => exact onward_error

/-- A reader of blocks reads at least one token. -/
def ConsumesBlocks (block : BlockReader) : Prop := ∀ c, Onward 1 c (block c)

/-- A statement is at least one token, if blocks are. -/
lemma parse_onward (hb : ConsumesBlocks block) : Onward 1 c (Stmt.parse block c) := by
  refine .ite (fun _ => .of_advance ?_) fun _ => ?_
  · exact parseCondition_onward.bind fun e c => .weaken <| (hb c).bind fun _ _ => onward_here _
  refine .ite (fun _ => .of_advance ?_) fun _ => ?_
  · exact parseCondition_onward.bind fun _ _ => onward_here _
  refine .ite (fun _ => .of_advance ?_) fun _ => parseAction_onward
  exact parseValue_onward.bind fun _ _ => onward_here _

/-- The statements up to a brace end with the brace. -/
lemma parseUntilBrace_onward (hb : ConsumesBlocks block) (budget : Nat) :
    Onward 1 c (parseUntilBrace block budget c) := by
  induction budget generalizing c with
  | zero => exact onward_error
  | succ budget ih =>
    refine .ite (fun hclose => onward_close hclose _) fun _ => ?_
    refine .ite (fun _ => onward_error) fun _ => ?_
    exact (parse_onward hb).bind fun s c => .weaken <| ih.bind fun _ _ => onward_here _

/-- A block is at least one token, however deep it is nested. -/
lemma parseBlockWithin_onward (budget : Nat) : ConsumesBlocks (parseBlockWithin budget) := by
  induction budget with
  | zero => exact fun _ => onward_error
  | succ budget ih =>
    intro c
    exact onward_punct fun c => .weaken <| parseUntilBrace_onward ih _

/-- A block is at least one token. -/
lemma parseBlock_onward : ConsumesBlocks parseBlock := fun _ => parseBlockWithin_onward _ _

end Stmt

namespace Draft

variable {d : Draft} {c : Cursor}

/-- The declaration of a name is at least one token. -/
lemma parseName_onward (hw : c.atKeyword "name" = true) : Onward 1 c (parseName d c) :=
  .after fun _ => .of_spans (spans_keyword hw) <|
    .ite (fun _ => .of_advance (onward_here _)) fun _ => onward_error

/-- The declaration of a deck is at least one token. -/
lemma parseDeck_onward : Onward 1 c (parseDeck d c) :=
  .after fun _ => .of_advance ((Expr.parse_onward _).bind fun _ _ => onward_here _)

/-- A positive number is one token. -/
lemma parsePositive_onward (what least : String) : Onward 1 c (parsePositive what least c) :=
  (int_onward _).bind fun _ _ => .ite (fun _ => onward_error) fun _ => onward_here _

/-- The declaration of the players is at least one token. -/
lemma parsePlayers_onward : Onward 1 c (parsePlayers d c) :=
  .after fun _ => .of_advance ((parsePositive_onward _ _).bind fun _ _ => onward_here _)

/-- The declaration of the first player is at least one token. -/
lemma parseFirstPlayer_onward : Onward 1 c (parseFirstPlayer d c) :=
  .after fun _ => .of_advance ((parsePositive_onward _ _).bind fun _ _ => onward_here _)

/-- The declaration of a stack is at least one token. -/
lemma parseStack_onward : Onward 1 c (parseStack d c) := by
  refine .of_advance ((ident_onward _).bind fun name c => ?_)
  refine .ite (fun _ => ?_) fun _ => .after fun _ => onward_here _
  refine .ite (fun _ => onward_error) fun _ => .of_advance ?_
  refine .weaken <| (ident_onward _).bind fun name c => ?_
  exact .after fun _ => .ite (fun _ => onward_error) fun _ => onward_here _

/-- The parameters of a function end with a token that closes them. -/
lemma parseParams_onward (budget : Nat) (earlier : List String) : Onward 1 c (parseParams budget earlier c) := by
  induction budget generalizing earlier c with
  | zero => exact onward_error
  | succ budget ih =>
    rw [parseParams_succ]
    refine .ite (fun hclose => onward_close hclose _) fun _ => ?_
    refine onward_comma fun c => ?_
    refine (ident_onward _).bind fun param c => ?_
    exact .ite (fun _ => onward_error) fun _ => (ih _).weaken

/-- A function is at least one token. -/
lemma parseFunction_onward : Onward 1 c (parseFunction d c) := by
  refine .of_advance <| (ident_onward _).bind fun name c => ?_
  refine .ite (fun _ => onward_error) fun _ => .weaken <| onward_punct fun c => ?_
  refine .weaken <| (parseParams_onward _ []).bind fun params c => ?_
  exact .weaken <| (Stmt.parseBlock_onward c).bind fun _ _ => onward_here _

/-- An item is at least one token. -/
lemma parseItem_onward : Onward 1 c (parseItem d c) := by
  refine .ite parseName_onward fun _ => ?_
  refine .ite (fun _ => parseDeck_onward) fun _ => ?_
  refine .ite (fun _ => parsePlayers_onward) fun _ => ?_
  refine .ite (fun _ => parseFirstPlayer_onward) fun _ => ?_
  refine .ite (fun _ => parseStack_onward) fun _ => ?_
  exact .ite (fun _ => parseFunction_onward) fun _ => onward_error

end Draft

end Croupier
