import Croupier.Proofs.Expr.Grammar
import Croupier.Proofs.Program.Declarations

/-!
# Programs without positions

A token, a tree or an error without its positions is bare. The readers are blind to positions: read off bare tokens,
they give the bare result (`Blind`). This passes through the sequence of two readers (`bared_bind`), so every reader is
shown blind from the readers that it uses, and so is the binding of names (`check_bare`). What is read off tokens
therefore depends on their kinds and texts only, up to positions (`ofTokens_bare`).
-/

namespace Croupier

/-- The position of what stands nowhere. -/
def Pos.nowhere : Pos := ⟨0, 0⟩

/-- A token without its position. -/
def Token.bare (t : Token) : Token := { t with pos := .nowhere }

/-- A cursor in front of bare tokens. -/
def Cursor.bare (c : Cursor) : Cursor := ⟨c.rest.map Token.bare, .nowhere⟩

/-- A hint without its position. -/
def Hint.bare : Hint → Hint
  | .declaredAt _ => .declaredAt .nowhere
  | h => h

/-- An error without its positions. -/
def ParseError.bare (e : ParseError) : ParseError := { e with pos := .nowhere, hint := e.hint.map Hint.bare }

namespace Expr

mutual

/-- An expression without positions. -/
def bare : Expr → Expr
  | name id _ => .name id .nowhere
  | int value _ => .int value .nowhere
  | field base key _ => .field (bare base) key .nowhere
  | call fn args _ => .call fn (bares args) .nowhere
  | compare left right negate _ => .compare (bare left) (bare right) negate .nowhere
  | join op left right _ => .join op (bare left) (bare right) .nowhere
  | not operand _ => .not (bare operand) .nowhere

/-- Expressions without positions. -/
def bares : List Expr → List Expr
  | [] => []
  | e :: es => bare e :: bares es

end

end Expr

/-- An amount without positions. -/
def Amount.bare : Amount → Amount
  | .these cards => .these cards.bare
  | a => a

namespace Stmt

mutual

/-- A statement without positions. -/
def bare : Stmt → Stmt
  | transfer source target amount _ => .transfer source.bare target.bare amount.bare .nowhere
  | check condition _ => .check condition.bare .nowhere
  | ret value _ => .ret (value.map Expr.bare) .nowhere
  | call fn args _ _ => .call fn (Expr.bares args) .nowhere .nowhere
  | when condition body _ => .when condition.bare (bares body) .nowhere

/-- Statements without positions. -/
def bares : List Stmt → List Stmt
  | [] => []
  | s :: ss => bare s :: bares ss

end

end Stmt

/-- A function without positions. -/
def Function.bare (f : Function) : Function := { f with body := Stmt.bares f.body, pos := .nowhere }

/-- A program without positions. -/
def Program.bare (p : Program) : Program := { p with deck := p.deck.bare, functions := p.functions.map Function.bare }

/-- What has been declared, without positions. -/
def Declared.bare {α : Type} (f : α → α) (d : Declared α) : Declared α := ⟨f d.value, .nowhere⟩

/-- A draft without positions. -/
def Draft.bare (d : Draft) : Draft where
  name := d.name.map (Declared.bare id)
  deck := d.deck.map (Declared.bare Expr.bare)
  players := d.players.map (Declared.bare id)
  firstPlayer := d.firstPlayer.map (Declared.bare id)
  tableStacks := d.tableStacks
  playerStacks := d.playerStacks
  functions := d.functions.map Function.bare

section Results

variable {α β γ δ : Type}

/-- What was read without positions, or the error without them. -/
def bared (f : α → β) : Except ParseError α → Except ParseError β
  | .ok a => .ok (f a)
  | .error e => .error e.bare

/-- A sequence is bared part by part. -/
lemma bared_bind {f : α → β} {g : γ → δ} {x : Except ParseError α} {x' : Except ParseError β}
    {k : α → Except ParseError γ} {k' : β → Except ParseError δ} (hx : x' = bared f x)
    (hk : ∀ a, k' (f a) = bared g (k a)) : (x' >>= k') = bared g (x >>= k) := by
  subst hx
  cases x with
  | error e => rfl
  | ok a => exact hk a

/-- Read off bare tokens, a reader gives the bare result. -/
def Blind (f : α → α) (r : Cursor → Except ParseError (α × Cursor)) : Prop :=
  ∀ c : Cursor, r c.bare = bared (Prod.map f Cursor.bare) (r c)

/-- A reader that goes on from what has been read gives the bare result if that is bare. -/
def BlindAfter (f : α → α) (r : α → Cursor → Except ParseError (α × Cursor)) : Prop :=
  ∀ (a : α) (c : Cursor), r (f a) c.bare = bared (Prod.map f Cursor.bare) (r a c)

end Results

namespace Cursor

variable (c : Cursor)

/-- The next of the bare tokens is the next token, bare. -/
@[simp]
lemma peek_bare : c.bare.peek = c.peek.bare := by
  obtain ⟨rest, stop⟩ := c
  cases rest with
  | nil => rfl
  | cons t rest => rfl

/-- What is left of the bare tokens is what is left, bare. -/
@[simp]
lemma advance_bare : c.bare.advance = c.advance.bare := by
  obtain ⟨rest, stop⟩ := c
  cases rest with
  | nil => rfl
  | cons t rest => rfl

/-- There are as many bare tokens as tokens. -/
@[simp]
lemma left_bare : c.bare.left = c.left := List.length_map _

/-- Bare tokens end where the tokens do. -/
@[simp]
lemma atEnd_bare : c.bare.atEnd = c.atEnd := by
  obtain ⟨rest, stop⟩ := c
  cases rest with
  | nil => rfl
  | cons t rest => rfl

/-- A sign is next among the bare tokens if it is among the tokens. -/
@[simp]
lemma atPunct_bare (sign : String) : c.bare.atPunct sign = c.atPunct sign := by
  unfold atPunct
  rw [peek_bare]
  rfl

/-- A keyword is next among the bare tokens if it is among the tokens. -/
@[simp]
lemma atKeyword_bare (word : String) : c.bare.atKeyword word = c.atKeyword word := by
  unfold atKeyword
  rw [peek_bare]
  rfl

/-- What was expected and found is reported alike for bare tokens. -/
@[simp]
lemma unexpected_bare (expected : String) : c.bare.unexpected expected = (c.unexpected expected).bare := by
  unfold unexpected
  rw [peek_bare]
  rfl

/-- A sign is read off bare tokens as it is off tokens. -/
lemma punct_bare (sign : String) : c.bare.punct sign = bared Cursor.bare (c.punct sign) := by
  unfold punct
  rw [atPunct_bare, advance_bare, unexpected_bare]
  split <;> rfl

/-- A comma is read in front of every part but the first. -/
lemma comma_bare (first : Bool) : (if first then .ok c.bare else c.bare.punct ",") =
    bared Cursor.bare (if first then .ok c else c.punct ",") := by
  cases first with
  | true => rfl
  | false => exact punct_bare c ","

/-- The reader of names is blind to positions. -/
lemma ident_blind (what : String) : Blind Token.bare (ident what) := by
  intro c
  unfold ident
  rw [peek_bare, advance_bare, unexpected_bare]
  show (if c.peek.kind = .ident then _ else _) = _
  split <;> rfl

/-- The reader of numbers is blind to positions. -/
lemma int_blind (what : String) : Blind id (int what) := by
  intro c
  unfold int
  simp only [peek_bare, advance_bare, unexpected_bare, Token.bare]
  split
  · cases Numeral.readInt? c.peek.text with
    | none => rfl
    | some n => rfl
  · rfl

/-- A cursor in front of bare tokens is the bare cursor in front of the tokens. -/
lemma ofTokens_bare (tokens : List Token) :
    Cursor.ofTokens (tokens.map Token.bare) = (Cursor.ofTokens tokens).bare := by
  have hrest : (tokens.map Token.bare).takeWhile (fun t => !decide (t.kind = .endOfInput)) =
      (tokens.takeWhile fun t => !decide (t.kind = .endOfInput)).map Token.bare := List.takeWhile_map ..
  have hstop : ((tokens.map Token.bare).find? fun t => decide (t.kind = .endOfInput)).elim ⟨0, 0⟩ Token.pos =
      .nowhere := by
    rw [List.find?_map]
    cases tokens.find? _ with
    | none => rfl
    | some t => rfl
  exact (Cursor.mk.injEq ..).mpr ⟨hrest, hstop⟩

end Cursor

open Cursor (peek_bare advance_bare left_bare atEnd_bare atPunct_bare atKeyword_bare unexpected_bare punct_bare
  comma_bare ident_blind int_blind)

namespace Expr

mutual

/-- An expression is written alike without positions. -/
@[simp]
lemma text_bare : ∀ e : Expr, e.bare.text = e.text
  | .name _ _ => rfl
  | .int _ _ => rfl
  | .field base _ _ => by simp only [bare, text, text_bare base]
  | .call _ args _ => by simp only [bare, text, texts_bares args]
  | .compare left right _ _ => by simp only [bare, text, text_bare left, text_bare right]
  | .join _ left right _ => by simp only [bare, text, text_bare left, text_bare right]
  | .not operand _ => by simp only [bare, text, text_bare operand]

/-- Expressions are written alike without positions. -/
lemma texts_bares : ∀ es : List Expr, texts (bares es) = texts es
  | [] => rfl
  | e :: es => by simp only [bares, texts, text_bare e, texts_bares es]

end

/-- A bare expression stands nowhere. -/
@[simp]
lemma pos_bare (e : Expr) : e.bare.pos = .nowhere := by
  cases e <;> rfl

/-- A bare expression is a stack of every player if the expression is. -/
@[simp]
lemma isEveryPlayer_bare (e : Expr) : e.bare.isEveryPlayer = e.isEveryPlayer := by
  cases e with
  | field base key pos => cases base <;> rfl
  | _ => rfl

/-- A bare expression can be an end of a transfer if the expression can. -/
@[simp]
lemma isContainer_bare (e : Expr) : e.bare.isContainer = e.isContainer := by
  cases e with
  | field base key pos => cases base <;> rfl
  | _ => rfl

variable {nested : Reader}

/-- The reader of arguments is blind, if that of expressions is. -/
lemma parseArgs_blind (hn : Blind bare nested) (budget : Nat) (first : Bool) :
    Blind bares (parseArgs nested budget first) := by
  induction budget generalizing first with
  | zero =>
    intro c
    exact congrArg Except.error (unexpected_bare c _)
  | succ budget ih =>
    intro c
    rw [parseArgs_succ, parseArgs_succ, atPunct_bare, advance_bare]
    split
    · rfl
    refine bared_bind (comma_bare c first) fun c => ?_
    refine bared_bind (hn c) fun ⟨arg, c⟩ => ?_
    exact bared_bind (ih false c) fun ⟨args, c⟩ => rfl

/-- The reader of primary expressions is blind, if that of expressions is. -/
lemma parsePrimary_blind (hn : Blind bare nested) : Blind bare (parsePrimary nested) := by
  intro c
  unfold parsePrimary
  rw [peek_bare, advance_bare]
  simp only [unexpected_bare, Token.bare]
  split
  · rfl
  · cases Numeral.readInt? c.peek.text with
    | none => rfl
    | some n => rfl
  · split <;> rfl
  · split
    · refine bared_bind (hn c.advance) fun ⟨e, c⟩ => ?_
      exact bared_bind (punct_bare c _) fun c => rfl
    · rfl
  · rfl

/-- The reader of the arguments of a call is blind, if that of expressions is. -/
lemma parseCall_blind (hn : Blind bare nested) : BlindAfter bare (parseCall nested) := by
  intro e c
  cases e with
  | name id pos =>
    simp only [bare, parseCall, atPunct_bare, left_bare, advance_bare]
    split
    · exact bared_bind (parseArgs_blind hn _ true c.advance) fun ⟨args, c⟩ => rfl
    · rfl
  | _ => rfl

/-- The reader of fields is blind. -/
lemma parseFields_blind (budget : Nat) : BlindAfter bare (parseFields budget) := by
  induction budget with
  | zero => exact fun e c => rfl
  | succ budget ih =>
    intro e c
    simp only [parseFields, atPunct_bare, advance_bare, peek_bare]
    split
    · exact bared_bind (ident_blind _ c.advance) fun ⟨key, c'⟩ => ih (.field e key.text c.peek.pos) c'
    · rfl

/-- The reader of operands is blind, if that of expressions is. -/
lemma parseOperand_blind (hn : Blind bare nested) : Blind bare (parseOperand nested) := by
  intro c
  unfold parseOperand
  refine bared_bind (parsePrimary_blind hn c) fun ⟨e, c⟩ => ?_
  refine bared_bind (parseCall_blind hn e c) fun ⟨e, c⟩ => ?_
  -- The budget counts the tokens that are left, and they are as many without positions.
  simp only [Prod.map_apply, left_bare]
  exact parseFields_blind (c.left + 1) e c

/-- The reader of comparisons is blind, if that of expressions is. -/
lemma parseComparison_blind (hn : Blind bare nested) : Blind bare (parseComparison nested) := by
  intro c
  unfold parseComparison
  refine bared_bind (parseOperand_blind hn c) fun ⟨left, c⟩ => ?_
  simp only [Prod.map_apply, atKeyword_bare, advance_bare, peek_bare]
  split
  · have hnot : (if c.advance.atKeyword "not" then c.advance.advance.bare else c.advance.bare) =
        (if c.advance.atKeyword "not" then c.advance.advance else c.advance).bare := by
      split <;> rfl
    rw [hnot]
    exact bared_bind (parseOperand_blind hn _) fun ⟨right, c⟩ => rfl
  · rfl

/-- The reader of negations is blind, if that of expressions is. -/
lemma parseNegation_blind (hn : Blind bare nested) (budget : Nat) : Blind bare (parseNegation nested budget) := by
  induction budget with
  | zero =>
    intro c
    exact congrArg Except.error (unexpected_bare c _)
  | succ budget ih =>
    intro c
    simp only [parseNegation, atKeyword_bare, advance_bare, peek_bare]
    split
    · exact bared_bind (ih c.advance) fun ⟨e, c'⟩ => rfl
    · exact parseComparison_blind hn c

/-- The reader of chains is blind, if that of their parts is. -/
lemma parseChain_blind (op : Junction) {part : Reader} (hp : Blind bare part) (budget : Nat) :
    BlindAfter bare (parseChain op part budget) := by
  induction budget with
  | zero => exact fun left c => rfl
  | succ budget ih =>
    intro left c
    simp only [parseChain, atPunct_bare, advance_bare, peek_bare]
    split
    · exact bared_bind (hp c.advance) fun ⟨right, c'⟩ => ih (.join op left right c.peek.pos) c'
    · rfl

/-- The reader of conjunctions is blind, if that of expressions is. -/
lemma parseConjunction_blind (hn : Blind bare nested) : Blind bare (parseConjunction nested) := by
  have hpart : Blind bare fun c => parseNegation nested (c.left + 1) c := by
    intro c
    dsimp only
    rw [left_bare]
    exact parseNegation_blind hn _ c
  intro c
  unfold parseConjunction
  refine bared_bind (hpart c) fun ⟨left, c⟩ => ?_
  simp only [Prod.map_apply, left_bare]
  exact parseChain_blind .and hpart _ left c

/-- The reader of disjunctions is blind, if that of expressions is. -/
lemma parseDisjunction_blind (hn : Blind bare nested) : Blind bare (parseDisjunction nested) := by
  intro c
  unfold parseDisjunction
  refine bared_bind (parseConjunction_blind hn c) fun ⟨left, c⟩ => ?_
  simp only [Prod.map_apply, left_bare]
  exact parseChain_blind .or (parseConjunction_blind hn) _ left c

/-- The reader of expressions is blind, however deep they are nested. -/
lemma parseWithin_blind (budget : Nat) : Blind bare (parseWithin budget) := by
  induction budget with
  | zero =>
    intro c
    exact congrArg Except.error (unexpected_bare c _)
  | succ budget ih =>
    intro c
    exact parseDisjunction_blind ih c

/-- The reader of expressions is blind. -/
lemma parse_blind : Blind bare Expr.parse := by
  intro c
  unfold Expr.parse
  rw [left_bare]
  exact parseWithin_blind _ c

/-- The reader of single operands is blind. -/
lemma parseSingle_blind : Blind bare parseSingle := parseOperand_blind parse_blind

end Expr

namespace Stmt

/-- The reader of conditions is blind. -/
lemma parseCondition_blind : Blind Expr.bare parseCondition := by
  intro c
  unfold parseCondition
  refine bared_bind (punct_bare c _) fun c => ?_
  refine bared_bind (Expr.parse_blind c) fun ⟨condition, c⟩ => ?_
  exact bared_bind (punct_bare c _) fun c => rfl

/-- The reader of values to be returned is blind. -/
lemma parseValue_blind : Blind (Option.map Expr.bare) parseValue := by
  intro c
  unfold parseValue
  refine bared_bind (punct_bare c _) fun c => ?_
  rw [atPunct_bare, advance_bare]
  split
  · rfl
  · refine bared_bind (Expr.parse_blind c) fun ⟨value, c⟩ => ?_
    exact bared_bind (punct_bare c _) fun c => rfl

/-- The word for all cards is next among the bare tokens if it is among the tokens. -/
lemma atAll_bare (c : Cursor) : atAll c.bare = atAll c := by
  unfold atAll
  rw [advance_bare, atPunct_bare, peek_bare]
  rfl

/-- The reader of amounts is blind. -/
lemma parseAmount_blind : Blind Amount.bare parseAmount := by
  intro c
  unfold parseAmount
  rw [atAll_bare, atPunct_bare, advance_bare, peek_bare]
  simp only [Token.bare]
  split
  · rfl
  split
  · exact bared_bind (int_blind _ c) fun ⟨n, c⟩ => rfl
  split
  · exact bared_bind (Expr.parse_blind c.advance) fun ⟨cards, c⟩ => rfl
  · rfl

/-- The reader of what follows the source of a transfer is blind. -/
lemma parseTransfer_blind (source : Expr) (pos : Pos) (c : Cursor) :
    parseTransfer source.bare .nowhere c.bare = bared (Prod.map bare Cursor.bare) (parseTransfer source pos c) := by
  unfold parseTransfer
  rw [Expr.isContainer_bare]
  split
  · simp only [Expr.pos_bare, Expr.text_bare]
    rfl
  dsimp only
  rw [advance_bare]
  refine bared_bind (Expr.parseSingle_blind c.advance) fun ⟨target, c'⟩ => ?_
  simp only [Prod.map_apply, Expr.isContainer_bare, Expr.text_bare, peek_bare]
  split
  · rfl
  · exact bared_bind (parseAmount_blind c') fun ⟨amount, c'⟩ => rfl

/-- The reader of statements that start with an expression is blind. -/
lemma parseAction_blind : Blind bare parseAction := by
  intro c
  unfold parseAction
  rw [peek_bare]
  refine bared_bind (Expr.parse_blind c) fun ⟨e, c'⟩ => ?_
  simp only [Prod.map_apply, atPunct_bare]
  split
  · exact parseTransfer_blind e c.peek.pos c'
  · cases e with
    | call fn args callPos => rfl
    | _ =>
      simp only [Expr.bare, bared, ParseError.bare, Expr.text, Expr.text_bare]
      rfl

/-- The reader of statements is blind, if that of blocks is. -/
lemma parse_blind {block : BlockReader} (hb : Blind bares block) : Blind bare (parse block) := by
  intro c
  unfold parse
  simp only [atKeyword_bare, advance_bare, peek_bare]
  split
  · refine bared_bind (parseCondition_blind c.advance) fun ⟨condition, c⟩ => ?_
    exact bared_bind (hb c) fun ⟨body, c⟩ => rfl
  split
  · exact bared_bind (parseCondition_blind c.advance) fun ⟨condition, c⟩ => rfl
  split
  · exact bared_bind (parseValue_blind c.advance) fun ⟨value, c⟩ => rfl
  · exact parseAction_blind c

/-- The reader of statements up to a brace is blind, if that of blocks is. -/
lemma parseUntilBrace_blind {block : BlockReader} (hb : Blind bares block) (budget : Nat) :
    Blind bares (parseUntilBrace block budget) := by
  induction budget with
  | zero =>
    intro c
    exact congrArg Except.error (unexpected_bare c _)
  | succ budget ih =>
    intro c
    simp only [parseUntilBrace, atPunct_bare, atEnd_bare, advance_bare, unexpected_bare]
    split
    · rfl
    split
    · rfl
    refine bared_bind (parse_blind hb c) fun ⟨stmt, c⟩ => ?_
    exact bared_bind (ih c) fun ⟨stmts, c⟩ => rfl

/-- The reader of blocks is blind, however deep they are nested. -/
lemma parseBlockWithin_blind (budget : Nat) : Blind bares (parseBlockWithin budget) := by
  induction budget with
  | zero =>
    intro c
    exact congrArg Except.error (unexpected_bare c _)
  | succ budget ih =>
    intro c
    unfold parseBlockWithin
    refine bared_bind (punct_bare c _) fun c => ?_
    rw [left_bare]
    exact parseUntilBrace_blind ih _ c

/-- The reader of blocks is blind. -/
lemma parseBlock_blind : Blind bares parseBlock := by
  intro c
  unfold parseBlock
  rw [left_bare]
  exact parseBlockWithin_blind _ c

end Stmt

namespace Draft

variable (d : Draft) (c : Cursor)

/-- What may be declared once is refused alike without positions. -/
lemma once_bare {α : Type} (f : α → α) (key : String) (earlier : Option (Declared α)) (pos : Pos) :
    once key (earlier.map (Declared.bare f)) .nowhere = bared id (once key earlier pos) := by
  cases earlier with
  | none => rfl
  | some d => rfl

/-- The reader of names of games is blind. -/
lemma parseName_blind : BlindAfter bare parseName := by
  intro d c
  unfold parseName
  rw [peek_bare, advance_bare]
  refine bared_bind (once_bare id "name" d.name c.peek.pos) fun _ => ?_
  simp only [peek_bare, advance_bare, unexpected_bare, Token.bare]
  split <;> rfl

/-- The reader of decks is blind. -/
lemma parseDeck_blind : BlindAfter bare parseDeck := by
  intro d c
  unfold parseDeck
  rw [peek_bare, advance_bare]
  refine bared_bind (once_bare Expr.bare "deck" d.deck c.peek.pos) fun _ => ?_
  exact bared_bind (Expr.parse_blind c.advance) fun ⟨deck, c⟩ => rfl

/-- The reader of positive numbers is blind. -/
lemma parsePositive_blind (what least : String) : Blind id (parsePositive what least) := by
  intro c
  unfold parsePositive
  rw [peek_bare]
  refine bared_bind (int_blind what c) fun ⟨n, c'⟩ => ?_
  simp only [Prod.map_apply, id]
  split <;> rfl

/-- The reader of the number of players is blind. -/
lemma parsePlayers_blind : BlindAfter bare parsePlayers := by
  intro d c
  unfold parsePlayers
  rw [peek_bare, advance_bare]
  refine bared_bind (once_bare id "players" d.players c.peek.pos) fun _ => ?_
  exact bared_bind (parsePositive_blind _ _ c.advance) fun ⟨n, c⟩ => rfl

/-- The reader of the first player is blind. -/
lemma parseFirstPlayer_blind : BlindAfter bare parseFirstPlayer := by
  intro d c
  unfold parseFirstPlayer
  rw [peek_bare, advance_bare]
  refine bared_bind (once_bare id "current_player" d.firstPlayer c.peek.pos) fun _ => ?_
  exact bared_bind (parsePositive_blind _ _ c.advance) fun ⟨n, c⟩ => rfl

/-- The name of a stack is refused alike without positions. -/
lemma newStack_bare (name : Token) : newStack d.bare name.bare = bared id (newStack d name) := by
  unfold newStack
  show (if d.tableStacks.contains name.text || d.playerStacks.contains name.text then _ else _) = _
  split <;> rfl

/-- The reader of stacks is blind. -/
lemma parseStack_blind : BlindAfter bare parseStack := by
  intro d c
  unfold parseStack
  rw [advance_bare]
  refine bared_bind (ident_blind _ c.advance) fun ⟨name, c⟩ => ?_
  simp only [Prod.map_apply, atPunct_bare, advance_bare]
  split
  · show (if name.text ≠ "player" then _ else _) = _
    split
    · rfl
    refine bared_bind (ident_blind _ c.advance) fun ⟨name, c⟩ => ?_
    refine bared_bind (newStack_bare d name) fun _ => ?_
    show (if name.text = playerId then _ else _) = _
    split <;> rfl
  · exact bared_bind (newStack_bare d name) fun _ => rfl

/-- The reader of parameters is blind. -/
lemma parseParams_blind (budget : Nat) (earlier : List String) : Blind id (parseParams budget earlier) := by
  induction budget generalizing earlier with
  | zero =>
    intro c
    exact congrArg Except.error (unexpected_bare c _)
  | succ budget ih =>
    intro c
    rw [parseParams_succ, parseParams_succ, atPunct_bare, advance_bare]
    split
    · rfl
    refine bared_bind (comma_bare c earlier.isEmpty) fun c => ?_
    refine bared_bind (ident_blind _ c) fun ⟨param, c⟩ => ?_
    show (if earlier.contains param.text then _ else parseParams budget (earlier ++ [param.text]) c.bare) = _
    split
    · rfl
    · exact ih _ c

/-- The reader of functions is blind. -/
lemma parseFunction_blind : BlindAfter bare parseFunction := by
  intro d c
  unfold parseFunction
  rw [peek_bare, advance_bare]
  refine bared_bind (ident_blind _ c.advance) fun ⟨name, c'⟩ => ?_
  have hnames : d.bare.functions.any (fun f => f.name = name.bare.text) = d.functions.any fun f => f.name = name.text :=
    List.any_map
  dsimp only [Prod.map_apply]
  rw [hnames]
  split
  · rfl
  refine bared_bind (punct_bare c' _) fun c' => ?_
  rw [left_bare]
  refine bared_bind (parseParams_blind _ _ c') fun ⟨params, c'⟩ => ?_
  refine bared_bind (Stmt.parseBlock_blind c') fun ⟨body, c'⟩ => ?_
  simp only [bared, Prod.map_apply, bare, List.map_append]
  rfl

/-- The reader of items is blind. -/
lemma parseItem_blind : BlindAfter bare parseItem := by
  intro d c
  unfold parseItem
  simp only [atKeyword_bare, unexpected_bare]
  split
  · exact parseName_blind d c
  split
  · exact parseDeck_blind d c
  split
  · exact parsePlayers_blind d c
  split
  · exact parseFirstPlayer_blind d c
  split
  · exact parseStack_blind d c
  split
  · exact parseFunction_blind d c
  · rfl

/-- The reader of all items is blind. -/
lemma parseItems_blind (budget : Nat) : parseItems budget d.bare c.bare = bared bare (parseItems budget d c) := by
  induction budget generalizing d c with
  | zero => rfl
  | succ budget ih =>
    simp only [parseItems, atEnd_bare]
    split
    · rfl
    · exact bared_bind (parseItem_blind d c) fun ⟨d, c⟩ => ih d c

/-- What a program must have is missed alike without positions. -/
lemma required_bare {α : Type} (f : α → α) (key : String) (stop : Pos) (declared : Option (Declared α)) :
    required key .nowhere (declared.map (Declared.bare f)) = bared f (required key stop declared) := by
  cases declared with
  | none => rfl
  | some d => rfl

/-- A bare draft makes the bare program. -/
lemma finish_bare (stop : Pos) : d.bare.finish .nowhere = bared Program.bare (d.finish stop) := by
  unfold finish
  refine bared_bind (required_bare id "name" stop d.name) fun name => ?_
  refine bared_bind (required_bare Expr.bare "deck" stop d.deck) fun deck => ?_
  refine bared_bind (required_bare id "players" stop d.players) fun players => ?_
  have hfirst : d.bare.firstPlayer.getD ⟨1, ⟨0, 0⟩⟩ = (d.firstPlayer.getD ⟨1, ⟨0, 0⟩⟩).bare id := by
    simp only [bare]
    cases d.firstPlayer with
    | none => rfl
    | some first => rfl
  simp only [hfirst, Declared.bare, id]
  split <;> rfl

end Draft

namespace Binding

variable (n : Names)

/-- The hint of a similar name has no position. -/
lemma hint?_bare (name : String) (candidates : List String) :
    (hint? name candidates).map Hint.bare = hint? name candidates := by
  unfold hint?
  cases Text.closest? name candidates with
  | none => rfl
  | some candidate => rfl

/-- An unknown field is reported alike without positions. -/
lemma unknownField_bare (name : String) (pos : Pos) (candidates : List String) :
    unknownField name .nowhere candidates = (unknownField name pos candidates).bare := by
  simp only [unknownField, ParseError.bare, hint?_bare]

/-- A predicate is checked alike without positions. -/
lemma checkPredicate_bare (e : Expr) : checkPredicate n e.bare = bared id (checkPredicate n e) := by
  cases e with
  | name id pos =>
    simp only [Expr.bare, checkPredicate]
    split
    · rfl
    · simp only [bared, ParseError.bare, hint?_bare]
  | _ =>
    simp only [checkPredicate, Expr.bare, bared, ParseError.bare, Expr.text, Expr.text_bare, Expr.texts_bares]
    rfl

/-- A stack of every player is checked alike without positions. -/
lemma checkEveryPlayer_bare (name : String) (pos : Pos) :
    checkEveryPlayer n name .nowhere = bared id (checkEveryPlayer n name pos) := by
  unfold checkEveryPlayer
  rw [unknownField_bare name pos]
  split <;> rfl

/-- The predicate of a filter is checked alike without positions. -/
lemma checkFilter_bare (fn : String) (args : List Expr) :
    checkFilter n fn (Expr.bares args) = bared id (checkFilter n fn args) := by
  match args with
  | [] => rfl
  | [_] => rfl
  | [cards, predicate] =>
    simp only [Expr.bares, checkFilter]
    split
    · exact checkPredicate_bare n predicate
    · rfl
  | _ :: _ :: _ :: _ => rfl

mutual

/-- An expression is checked alike without positions. -/
lemma checkExpr_bare : ∀ e : Expr, checkExpr n e.bare = bared id (checkExpr n e)
  | .name _ _ => rfl
  | .int _ _ => rfl
  | .field base key pos => by
    have hevery := Expr.isEveryPlayer_bare (.field base key pos)
    simp only [Expr.bare] at hevery
    simp only [Expr.bare, checkExpr, hevery, checkEveryPlayer_bare n key pos, unknownField_bare key pos]
    split
    · rfl
    split
    · exact checkExpr_bare base
    · rfl
  | .call fn args _ => by
    simp only [Expr.bare, checkExpr]
    exact bared_bind (checkFilter_bare n fn args) fun _ => checkExprs_bare args
  | .compare left right _ _ => by
    simp only [Expr.bare, checkExpr]
    exact bared_bind (checkExpr_bare left) fun _ => checkExpr_bare right
  | .join _ left right _ => by
    simp only [Expr.bare, checkExpr]
    exact bared_bind (checkExpr_bare left) fun _ => checkExpr_bare right
  | .not operand _ => checkExpr_bare operand

/-- Expressions are checked alike without positions. -/
lemma checkExprs_bare : ∀ es : List Expr, checkExprs n (Expr.bares es) = bared id (checkExprs n es)
  | [] => rfl
  | e :: es => by
    simp only [Expr.bares, checkExprs]
    exact bared_bind (checkExpr_bare e) fun _ => checkExprs_bare es

end

/-- A name as the end of a transfer is checked alike without positions. -/
lemma checkEndName_bare (id : String) (pos : Pos) :
    checkEndName id .nowhere = bared (fun u => u) (checkEndName id pos) := by
  unfold checkEndName
  split
  · rfl
  · split <;> rfl

/-- A source is checked alike without positions. -/
lemma checkSource_bare (e : Expr) : checkSource n e.bare = bared id (checkSource n e) := by
  have hexpr := checkExpr_bare n e
  have hevery := Expr.isEveryPlayer_bare e
  have htext := Expr.text_bare e
  cases e with
  | name id pos => exact checkEndName_bare id pos
  | _ =>
    simp only [Expr.bare] at hexpr hevery htext
    simp only [Expr.bare, checkSource, hevery, hexpr, htext]
    split <;> rfl

/-- A target is checked alike without positions. -/
lemma checkTarget_bare (e : Expr) : checkTarget n e.bare = bared id (checkTarget n e) := by
  have hexpr := checkExpr_bare n e
  cases e with
  | name id pos => exact checkEndName_bare id pos
  | _ => exact hexpr

/-- An amount is checked alike without positions. -/
lemma checkAmount_bare (target : Expr) (amount : Amount) :
    checkAmount n target.bare amount.bare = bared id (checkAmount n target amount) := by
  cases amount with
  | these cards =>
    simp only [Amount.bare, checkAmount, Expr.isEveryPlayer_bare, Expr.pos_bare, checkExpr_bare]
    split <;> rfl
  | _ => rfl

mutual

/-- A statement is checked alike without positions. -/
lemma checkStmt_bare : ∀ s : Stmt, checkStmt n s.bare = bared id (checkStmt n s)
  | .transfer source target amount _ => by
    simp only [Stmt.bare, checkStmt]
    refine bared_bind (checkSource_bare n source) fun _ => ?_
    exact bared_bind (checkTarget_bare n target) fun _ => checkAmount_bare n target amount
  | .check condition _ => checkExpr_bare n condition
  | .ret none _ => rfl
  | .ret (some value) _ => checkExpr_bare n value
  | .call fn args pos _ => checkExpr_bare n (.call fn args pos)
  | .when condition body _ => by
    simp only [Stmt.bare, checkStmt]
    exact bared_bind (checkExpr_bare n condition) fun _ => checkStmts_bare body

/-- Statements are checked alike without positions. -/
lemma checkStmts_bare : ∀ ss : List Stmt, checkStmts n (Stmt.bares ss) = bared id (checkStmts n ss)
  | [] => rfl
  | s :: ss => by
    simp only [Stmt.bares, checkStmts]
    exact bared_bind (checkStmt_bare s) fun _ => checkStmts_bare ss

end

/-- Functions are checked alike without positions. -/
lemma checkFunctions_bare (fs : List Function) :
    checkFunctions n (fs.map Function.bare) = bared id (checkFunctions n fs) := by
  induction fs with
  | nil => rfl
  | cons f fs ih =>
    exact bared_bind (checkStmts_bare n f.body) fun _ => ih

/-- Names are bound whatever the positions are. -/
lemma check_bare (p : Program) : check p.bare = bared id (check p) := by
  have hnames : Names.ofProgram p.bare = Names.ofProgram p :=
    congrArg (Names.mk p.playerStacks) (List.map_map ..)
  unfold check
  rw [hnames]
  refine bared_bind (checkExpr_bare _ p.deck) fun _ => ?_
  exact checkFunctions_bare _ p.functions

end Binding

/-- A program is made of the kinds and texts of tokens: without positions, the tokens make the program without them. -/
lemma Program.ofTokens_bare (tokens : List Token) :
    Program.ofTokens (tokens.map Token.bare) = bared Program.bare (Program.ofTokens tokens) := by
  have hitems : Draft.parseItems ((Cursor.ofTokens tokens).bare.left + 1) {} (Cursor.ofTokens tokens).bare =
      bared Draft.bare (Draft.parseItems ((Cursor.ofTokens tokens).left + 1) {} (Cursor.ofTokens tokens)) := by
    rw [left_bare]
    exact Draft.parseItems_blind {} _ _
  unfold Program.ofTokens
  rw [Cursor.ofTokens_bare]
  refine bared_bind hitems fun d => ?_
  refine bared_bind (d.finish_bare _) fun p => ?_
  exact bared_bind (Binding.check_bare p) fun _ => rfl

end Croupier
