import Mathlib.Data.List.TakeWhile
import Croupier.Proofs.Program.Equality
import Croupier.Proofs.Program.Onward
import Croupier.Proofs.Token.Walk

/-!
# Reading a program by position

The readers of programs once more, as walks over the list of tokens: tokens are looked up by position, loops go on until
a token tells them to stop, and fuel bounds every loop and every nesting. Each walk follows the reader of cursors with
the same task as long as there is more fuel than there are tokens to be read. So the walk over any list of tokens stays
inside the list, comes to an end, and has the result of the reader of programs (`ofTokens_eq_walk`).
-/

namespace Croupier

namespace Walk

section Tokens

variable (tokens : List Token)

/-- Reads a comma, unless nothing has been read before. -/
def comma (first : Bool) : Walk Unit := if first then pure () else punct tokens ","

section Expressions

variable (nested : Walk Expr)

/-- Walks over the arguments of a call up to the parenthesis that closes them. -/
def args : Nat → Bool → Walk (List Expr)
  | 0, _ => giveUp
  | fuel + 1, first => do
    let closes ← atPunct tokens ")"
    if closes then do
      next tokens
      pure []
    else do
      comma tokens first
      let arg ← nested
      let rest ← args fuel false
      pure (arg :: rest)

/-- Walks over a primary expression. -/
def primary : Walk Expr := do
  let t ← look tokens
  match t.kind with
  | .ident => do
    next tokens
    pure (.name t.text t.pos)
  | .int => do
    next tokens
    match Numeral.readInt? t.text with
    | some n => pure (.int n t.pos)
    | none => refuse { pos := t.pos, expected := "integer", found := t.describe }
  | .keyword =>
    if ["deck", "players", "current_player"].contains t.text then do
      next tokens
      pure (.name t.text t.pos)
    else unexpected tokens "expression"
  | .punct =>
    if t.text = "(" then do
      next tokens
      let e ← nested
      punct tokens ")"
      pure e
    else unexpected tokens "expression"
  | _ => unexpected tokens "expression"

/-- Walks over the arguments after a primary expression, if there are any. -/
def call (fuel : Nat) (e : Expr) : Walk Expr :=
  match e with
  | .name id pos => do
    let opens ← atPunct tokens "("
    if opens ∧ ¬ isKeyword id then do
      next tokens
      let es ← args tokens nested fuel true
      pure (.call id es pos)
    else pure e
  | _ => pure e

/-- Walks over the fields after an operand. -/
def fields : Nat → Expr → Walk Expr
  | 0, _ => giveUp
  | fuel + 1, e => do
    let t ← look tokens
    if t.isPunct ":" then do
      next tokens
      let key ← ident tokens "attribute name"
      fields fuel (.field e key.text t.pos)
    else pure e

/-- Walks over an operand. -/
def operand (fuel : Nat) : Walk Expr := do
  let e ← primary tokens nested
  let e ← call tokens nested fuel e
  fields tokens fuel e

/-- Reads `not` if it is next, and tells whether it was. -/
def optionalNot : Walk Bool := do
  let negated ← atKeyword tokens "not"
  if negated then do
    next tokens
    pure true
  else pure false

/-- Walks over a comparison or a single operand. -/
def comparison (fuel : Nat) : Walk Expr := do
  let left ← operand tokens nested fuel
  let t ← look tokens
  if t.isKeyword "is" then do
    next tokens
    let negate ← optionalNot tokens
    let right ← operand tokens nested fuel
    pure (.compare left right negate t.pos)
  else pure left

/-- Walks over a negation or a comparison. -/
def negation : Nat → Walk Expr
  | 0 => giveUp
  | fuel + 1 => do
    let t ← look tokens
    if t.isKeyword "not" then do
      next tokens
      let e ← negation fuel
      pure (.not e t.pos)
    else comparison tokens nested (fuel + 1)

/-- Walks over the further links of a chain. -/
def chain (op : Junction) (part : Walk Expr) : Nat → Expr → Walk Expr
  | 0, _ => giveUp
  | fuel + 1, left => do
    let t ← look tokens
    if t.isPunct op.sign then do
      next tokens
      let right ← part
      chain op part fuel (.join op left right t.pos)
    else pure left

/-- Walks over a conjunction. -/
def conjunction (fuel : Nat) : Walk Expr := do
  let left ← negation tokens nested fuel
  chain tokens .and (negation tokens nested fuel) fuel left

/-- Walks over a disjunction. -/
def disjunction (fuel : Nat) : Walk Expr := do
  let left ← conjunction tokens nested fuel
  chain tokens .or (conjunction tokens nested fuel) fuel left

end Expressions

/-- Walks over an expression. -/
def expr : Nat → Walk Expr
  | 0 => giveUp
  | fuel + 1 => disjunction tokens (expr fuel) (fuel + 1)

section Statements

variable (fuel : Nat)

/-- Walks over a condition in parentheses. -/
def condition : Walk Expr := do
  punct tokens "("
  let e ← expr tokens fuel
  punct tokens ")"
  pure e

/-- Walks over a value to be returned, if there is one. -/
def value : Walk (Option Expr) := do
  punct tokens "("
  let closes ← atPunct tokens ")"
  if closes then do
    next tokens
    pure none
  else do
    let e ← expr tokens fuel
    punct tokens ")"
    pure (some e)

/-- Tells whether the word that moves all cards is next: only then is the token after it looked at. -/
def atAll : Walk Bool := do
  let t ← look tokens
  if t.kind = .ident && t.text = Stmt.allWord then do
    let t ← lookAhead tokens
    pure (!t.isPunct "(")
  else pure false

/-- Walks over the amount of a transfer. -/
def amount : Walk Amount := do
  let all ← atAll tokens
  if all then do
    next tokens
    pure .all
  else do
    let t ← look tokens
    if t.kind = .int then do
      let n ← int tokens "card count"
      pure (.count n)
    else if t.isPunct "-" then do
      next tokens
      let cards ← expr tokens fuel
      pure (.these cards)
    else pure .one

/-- Walks over a transfer from after its source on. -/
def transfer (source : Expr) (pos : Pos) : Walk Stmt :=
  if !source.isContainer then
    refuse { pos := source.pos, expected := "stack or deck as transfer source", found := source.text }
  else do
    next tokens
    let t ← look tokens
    let target ← operand tokens (expr tokens fuel) fuel
    if !target.isContainer then
      refuse { pos := t.pos, expected := "stack or deck as transfer destination", found := target.text }
    else do
      let amount ← amount tokens fuel
      pure (.transfer source target amount pos)

/-- Walks over a statement that starts with an expression. -/
def action : Walk Stmt := do
  let t ← look tokens
  let e ← expr tokens fuel
  let moves ← atPunct tokens ">"
  if moves then transfer tokens fuel e t.pos
  else match e with
    | .call fn args callPos => pure (.call fn args callPos t.pos)
    | _ => refuse { pos := t.pos, expected := "statement", found := Text.quote e.text, hint := some .standAlone }

/-- Walks over a statement. -/
def stmt (block : Walk (List Stmt)) : Walk Stmt := do
  let t ← look tokens
  if t.isKeyword "if" then do
    next tokens
    let e ← condition tokens fuel
    let body ← block
    pure (.when e body t.pos)
  else if t.isKeyword "check" then do
    next tokens
    let e ← condition tokens fuel
    pure (.check e t.pos)
  else if t.isKeyword "return" then do
    next tokens
    let e ← value tokens fuel
    pure (.ret e t.pos)
  else action tokens fuel

end Statements

/-- Walks over statements up to a brace. -/
def untilBrace (block : Walk (List Stmt)) : Nat → Walk (List Stmt)
  | 0 => giveUp
  | fuel + 1 => do
    let t ← look tokens
    if t.isPunct "\x7d" then do
      next tokens
      pure []
    else if t.kind = .endOfInput then unexpected tokens "\"\x7d\""
    else do
      let s ← stmt tokens (fuel + 1) block
      let ss ← untilBrace block fuel
      pure (s :: ss)

/-- Walks over a block. -/
def block : Nat → Walk (List Stmt)
  | 0 => giveUp
  | fuel + 1 => do
    punct tokens "\x7b"
    untilBrace tokens (block fuel) (fuel + 1)

section Declarations

variable (fuel : Nat) (d : Draft)

/-- Walks over the declaration of the name. -/
def name : Walk Draft := do
  let t ← look tokens
  next tokens
  ofResult (Draft.once "name" d.name t.pos)
  let word ← look tokens
  if word.kind = .ident ∨ word.kind = .int then do
    next tokens
    pure { d with name := some ⟨word.text, t.pos⟩ }
  else unexpected tokens "game name"

/-- Walks over the declaration of the deck. -/
def deck : Walk Draft := do
  let t ← look tokens
  next tokens
  ofResult (Draft.once "deck" d.deck t.pos)
  let e ← expr tokens fuel
  pure { d with deck := some ⟨e, t.pos⟩ }

/-- Walks over a positive number. -/
def positive (what least : String) : Walk Int := do
  let t ← look tokens
  let n ← int tokens what
  if n < 1 then refuse { pos := t.pos, expected := least, found := t.text } else pure n

/-- Walks over the declaration of the number of players. -/
def players : Walk Draft := do
  let t ← look tokens
  next tokens
  ofResult (Draft.once "players" d.players t.pos)
  let n ← positive tokens "player count" "at least one player"
  pure { d with players := some ⟨n, t.pos⟩ }

/-- Walks over the declaration of the first player. -/
def firstPlayer : Walk Draft := do
  let t ← look tokens
  next tokens
  ofResult (Draft.once "current_player" d.firstPlayer t.pos)
  let n ← positive tokens "starting player id" "a 1-based player id"
  pure { d with firstPlayer := some ⟨n, t.pos⟩ }

/-- Walks over the declaration of a stack. -/
def stack : Walk Draft := do
  next tokens
  let name ← ident tokens "stack name"
  let ofPlayer ← atPunct tokens ":"
  if ofPlayer then
    if name.text ≠ "player" then
      refuse { pos := name.pos, expected := "\"player\" scope", found := name.describe }
    else do
      next tokens
      let name ← ident tokens "player stack name"
      ofResult (d.newStack name)
      if name.text = playerId then
        refuse { pos := name.pos, expected := "a player stack name", found := name.describe }
      else pure { d with playerStacks := d.playerStacks ++ [name.text] }
  else do
    ofResult (d.newStack name)
    pure { d with tableStacks := d.tableStacks ++ [name.text] }

/-- Walks over the parameters of a function. -/
def params : Nat → List String → Walk (List String)
  | 0, _ => giveUp
  | fuel + 1, earlier => do
    let closes ← atPunct tokens ")"
    if closes then do
      next tokens
      pure earlier
    else do
      comma tokens earlier.isEmpty
      let param ← ident tokens "parameter name"
      if earlier.contains param.text then
        refuse { pos := param.pos, expected := "a distinct parameter name", found := param.describe }
      else params fuel (earlier ++ [param.text])

/-- Walks over a function. -/
def function : Walk Draft := do
  let t ← look tokens
  next tokens
  let name ← ident tokens "function name"
  if d.functions.any (·.name = name.text) then
    refuse { pos := name.pos, expected := "a new function name", found := name.describe }
  else do
    punct tokens "("
    let params ← params tokens fuel []
    let body ← block tokens fuel
    pure { d with functions := d.functions ++ [⟨name.text, params, body, t.pos⟩] }

/-- Walks over an item. -/
def item : Walk Draft := do
  let t ← look tokens
  if t.isKeyword "name" then name tokens d
  else if t.isKeyword "deck" then deck tokens fuel d
  else if t.isKeyword "players" then players tokens d
  else if t.isKeyword "current_player" then firstPlayer tokens d
  else if t.isKeyword "stack" then stack tokens d
  else if t.isKeyword "def" then function tokens fuel d
  else unexpected tokens "declaration or function definition"

end Declarations

/-- Walks over all items. -/
def items : Nat → Draft → Walk Draft
  | 0, _ => giveUp
  | fuel + 1, d => do
    let t ← look tokens
    if t.kind = .endOfInput then pure d
    else do
      let d ← item tokens (fuel + 1) d
      items fuel d

/-- Walks over a whole program. -/
def wholeProgram (fuel : Nat) : Walk Program := do
  let d ← items tokens fuel {}
  let t ← look tokens
  let p ← ofResult (d.finish t.pos)
  ofResult (Binding.check p)
  pure p

/-- The tokens, with an end of input behind them if the last is none. -/
def completed : List Token :=
  if tokens.getLast?.any (·.kind = .endOfInput) then tokens else tokens ++ [Token.endAt ⟨0, 0⟩]

/-- Reads a program by position, from the first token on. -/
def program (fuel : Nat) : Except Halt Program := (wholeProgram (completed tokens) fuel 0).map (·.1)

end Tokens

end Walk

namespace Cursor

variable {c c' : Cursor}

/-- To go on does not leave more tokens. -/
lemma left_advance_le : c.advance.left ≤ c.left := by
  unfold left advance
  rw [List.length_tail]
  exact Nat.sub_le _ _

/-- To go on from a token that is not the end leaves fewer tokens. -/
lemma left_advance_lt (hk : c.peek.kind ≠ .endOfInput) : c.advance.left < c.left := by
  obtain ⟨rest, stop⟩ := c
  cases rest with
  | nil => exact absurd rfl hk
  | cons t rest => exact Nat.lt_succ_self _

/-- To go on from a sign leaves fewer tokens. -/
lemma left_advance_lt_of_punct {sign : String} (h : c.atPunct sign = true) : c.advance.left < c.left :=
  left_advance_lt (kind_of_atPunct h ▸ nofun)

/-- To go on from a keyword leaves fewer tokens. -/
lemma left_advance_lt_of_keyword {word : String} (h : c.atKeyword word = true) : c.advance.left < c.left :=
  left_advance_lt (kind_of_atKeyword h ▸ nofun)

/-- A sign that has been read leaves fewer tokens. -/
lemma left_lt_of_punct {sign : String} (h : c.punct sign = .ok c') : c'.left < c.left := by
  obtain ⟨hs, rfl⟩ := punct_ok h
  exact left_advance_lt_of_punct hs

/-- A number that has been read was the next token. -/
lemma kind_of_int {what : String} {n : Int} (h : c.int what = .ok (n, c')) : c.peek.kind = .int := by
  unfold int at h
  split at h
  · assumption
  · cases h

end Cursor

open Cursor (left_advance_le left_advance_lt left_advance_lt_of_punct left_advance_lt_of_keyword left_lt_of_punct
  kind_of_int)

variable {tape : Tape} {i : Nat} {c : Cursor}

/-- A walk follows a reader wherever fewer tokens than so many are to be read. -/
def FollowsBelow {α : Type} (tape : Tape) (n : Nat) (w : Walk α) (r : Cursor → Except ParseError (α × Cursor)) : Prop :=
  ∀ i c, tape.Stands i c → c.left < n → Follows tape (w i) (r c)

section Following

variable {β : Type} {x : Except ParseError (β × Cursor)}

/-- The walk follows the reader of a comma that may be needed. -/
lemma follows_comma {first : Bool} {k : Unit → Walk β} {f : Cursor → Except ParseError (β × Cursor)}
    (h : tape.Stands i c) (hk : ∀ j c', c'.left ≤ c.left → tape.Stands j c' → Follows tape (k () j) (f c')) :
    Follows tape ((Walk.comma tape.tokens first >>= k) i) ((if first then .ok c else c.punct ",") >>= f) := by
  cases first with
  | true => exact hk i c (Nat.le_refl _) h
  | false => exact follows_punct h fun j c' hc' hj => hk j c' (Nat.le_of_lt (left_lt_of_punct hc')) hj

/-- The walk follows the reader of a `not` that may be there. -/
lemma follows_optionalNot {k : Bool → Walk β} (h : tape.Stands i c)
    (hk : ∀ j, tape.Stands j (if c.atKeyword "not" then c.advance else c) →
      Follows tape (k (c.atKeyword "not") j) x) :
    Follows tape ((Walk.optionalNot tape.tokens >>= k) i) x := by
  unfold Walk.optionalNot
  rw [bind_assoc]
  refine follows_atKeyword h ?_
  cases hnot : c.atKeyword "not" with
  | true =>
    rw [hnot, if_pos rfl] at hk
    rw [if_pos rfl, bind_assoc]
    exact follows_next h fun j hj => hk j hj
  | false =>
    rw [hnot, if_neg Bool.false_ne_true] at hk
    exact hk i h

/-- A check that is taken as it is. -/
lemma follows_ofResult {α : Type} {u : Except ParseError α} {k : α → Walk β} {f : α → Except ParseError (β × Cursor)}
    (hk : ∀ a, Follows tape (k a i) (f a)) : Follows tape ((Walk.ofResult u >>= k) i) (u >>= f) := by
  cases u with
  | ok a => exact hk a
  | error e => exact .error

end Following

namespace Expr

variable {nested : Walk Expr} {nested' : Reader} {n fuel budget : Nat} {e : Expr}

/-- The walk follows the reader of arguments, if it does so for expressions with fewer tokens. -/
lemma args_follows (hn : FollowsBelow tape n nested nested') (hr : Consumes nested') {first : Bool}
    (h : tape.Stands i c) (hc : c.left < n) (hf : c.left < fuel) (hb : c.left < budget) :
    Follows tape (Walk.args tape.tokens nested fuel first i) (parseArgs nested' budget first c) := by
  induction fuel generalizing budget first i c with
  | zero => cases hf
  | succ fuel ih =>
    obtain ⟨budget, rfl⟩ := Nat.exists_eq_add_one_of_ne_zero (Nat.ne_zero_of_lt hb)
    rw [parseArgs_succ]
    refine follows_atPunct h <| .ite (fun _ => follows_next h fun j hj => .ok hj) fun _ => ?_
    refine follows_comma h fun j c₁ hc₁ hj => ?_
    refine (hn j c₁ hj (by omega)).bind fun arg j c₂ harg hj => ?_
    have hlt := (hr c₁).left_le harg
    refine (ih hj (by omega) (by omega) (by omega)).bind fun args j c₃ _ hj => ?_
    exact .ok hj

/-- The walk follows the reader of primary expressions, if it does so for expressions with fewer tokens. -/
lemma primary_follows (hn : FollowsBelow tape n nested nested') (h : tape.Stands i c) (hc : c.left ≤ n) :
    Follows tape (Walk.primary tape.tokens nested i) (parsePrimary nested' c) := by
  refine follows_look h fun t ht => ?_
  unfold parsePrimary
  dsimp only
  rw [ht.kind]
  by_cases hend : c.peek.kind = .endOfInput
  · rw [hend]
    exact follows_unexpected h _
  obtain rfl := ht.eq_of_kind hend
  cases hk : c.peek.kind with
  | ident => exact follows_next h fun j hj => .ok hj
  | int =>
    refine follows_next h fun j hj => ?_
    cases Numeral.readInt? c.peek.text with
    | some n => exact .ok hj
    | none => exact .error
  | keyword => exact .ite (fun _ => follows_next h fun j hj => .ok hj) fun _ => follows_unexpected h _
  | punct =>
    refine .ite (fun _ => follows_next h fun j hj => ?_) fun _ => follows_unexpected h _
    refine (hn j _ hj (Nat.lt_of_lt_of_le (left_advance_lt hend) hc)).bind fun e j c₁ _ hj => ?_
    exact follows_punct hj fun j c₂ _ hj => .ok hj
  | endOfInput => exact absurd hk hend
  | other code => exact follows_unexpected h _

/-- The walk follows the reader of the arguments of a call, if it does so for expressions with fewer tokens. -/
lemma call_follows (hn : FollowsBelow tape n nested nested') (hr : Consumes nested') (h : tape.Stands i c)
    (hc : c.left ≤ n) (hf : c.left < fuel) :
    Follows tape (Walk.call tape.tokens nested fuel e i) (parseCall nested' e c) := by
  cases e with
  | name id pos =>
    refine follows_atPunct h <| .ite (fun hcall => ?_) fun _ => .ok h
    have hlt := left_advance_lt_of_punct hcall.1
    refine follows_next h fun j hj => ?_
    exact (args_follows hn hr hj (by omega) (by omega) (by omega)).bind fun args j c₁ _ hj => .ok hj
  | _ => exact .ok h

/-- The walk follows the reader of fields. -/
lemma fields_follows (h : tape.Stands i c) (hf : c.left < fuel) (hb : c.left < budget) :
    Follows tape (Walk.fields tape.tokens fuel e i) (parseFields budget e c) := by
  induction fuel generalizing budget e i c with
  | zero => cases hf
  | succ fuel ih =>
    obtain ⟨budget, rfl⟩ := Nat.exists_eq_add_one_of_ne_zero (Nat.ne_zero_of_lt hb)
    refine follows_look h fun t ht => ?_
    rw [ht.isPunct_eq, ht.pos]
    refine .ite (fun hcolon => ?_) fun _ => .ok h
    have hlt := left_advance_lt_of_punct hcolon
    refine follows_next h fun j hj => ?_
    refine (ident_follows hj _).bind fun key j c₁ hkey hj => ?_
    have hlt' := (ident_onward _).left_le hkey
    exact ih hj (by omega) (by omega)

/-- The walk follows the reader of operands, if it does so for expressions with fewer tokens. -/
lemma operand_follows (hn : FollowsBelow tape n nested nested') (hr : Consumes nested') (h : tape.Stands i c)
    (hc : c.left ≤ n) (hf : c.left < fuel) :
    Follows tape (Walk.operand tape.tokens nested fuel i) (parseOperand nested' c) := by
  refine (primary_follows hn h hc).bind fun e j c₁ he hj => ?_
  have hle := (parsePrimary_onward hr c).left_le he
  refine (call_follows hn hr hj (by omega) (by omega)).bind fun e' j c₂ he' hj => ?_
  have hle' := (parseCall_onward hr).left_le he'
  exact fields_follows hj (by omega) (by omega)

/-- The walk follows the reader of comparisons, if it does so for expressions with fewer tokens. -/
lemma comparison_follows (hn : FollowsBelow tape n nested nested') (hr : Consumes nested') (h : tape.Stands i c)
    (hc : c.left ≤ n) (hf : c.left < fuel) :
    Follows tape (Walk.comparison tape.tokens nested fuel i) (parseComparison nested' c) := by
  refine (operand_follows hn hr h hc hf).bind fun left j c₁ hleft hj => ?_
  have hle := (parseOperand_onward hr c).left_le hleft
  refine follows_look hj fun t ht => ?_
  rw [ht.isKeyword_eq, ht.pos]
  refine .ite (fun _ => follows_next hj fun j hj => ?_) fun _ => .ok hj
  refine follows_optionalNot hj fun j hj => ?_
  have hright : (if c₁.advance.atKeyword "not" then c₁.advance.advance else c₁.advance).left ≤ c₁.left := by
    split
    · exact Nat.le_trans left_advance_le left_advance_le
    · exact left_advance_le
  exact (operand_follows hn hr hj (by omega) (by omega)).bind fun right j c₂ _ hj => .ok hj

/-- The walk follows the reader of negations, if it does so for expressions with fewer tokens. -/
lemma negation_follows (hn : FollowsBelow tape n nested nested') (hr : Consumes nested') (h : tape.Stands i c)
    (hc : c.left ≤ n) (hf : c.left < fuel) (hb : c.left < budget) :
    Follows tape (Walk.negation tape.tokens nested fuel i) (parseNegation nested' budget c) := by
  induction fuel generalizing budget i c with
  | zero => cases hf
  | succ fuel ih =>
    obtain ⟨budget, rfl⟩ := Nat.exists_eq_add_one_of_ne_zero (Nat.ne_zero_of_lt hb)
    refine follows_look h fun t ht => ?_
    rw [ht.isKeyword_eq, ht.pos]
    refine .ite (fun hnot => ?_) fun _ => comparison_follows hn hr h hc hf
    have hlt := left_advance_lt_of_keyword hnot
    refine follows_next h fun j hj => ?_
    exact (ih hj (by omega) (by omega) (by omega)).bind fun e j c₁ _ hj => .ok hj

/-- The walk follows the reader of chains, if it does so for their parts. -/
lemma chain_follows (op : Junction) {part : Walk Expr} {part' : Reader} (hp : FollowsBelow tape n part part')
    (hr : Consumes part') (h : tape.Stands i c) (hc : c.left ≤ n) (hf : c.left < fuel) (hb : c.left < budget) :
    Follows tape (Walk.chain tape.tokens op part fuel e i) (parseChain op part' budget e c) := by
  induction fuel generalizing budget e i c with
  | zero => cases hf
  | succ fuel ih =>
    obtain ⟨budget, rfl⟩ := Nat.exists_eq_add_one_of_ne_zero (Nat.ne_zero_of_lt hb)
    refine follows_look h fun t ht => ?_
    rw [ht.isPunct_eq, ht.pos]
    refine .ite (fun hsign => ?_) fun _ => .ok h
    have hlt := left_advance_lt_of_punct hsign
    refine follows_next h fun j hj => ?_
    refine (hp j _ hj (by omega)).bind fun right j c₁ hright hj => ?_
    have hlt' := (hr _).left_le hright
    exact ih hj (by omega) (by omega) (by omega)

/-- The walk follows the reader of conjunctions, if it does so for expressions with fewer tokens. -/
lemma conjunction_follows (hn : FollowsBelow tape n nested nested') (hr : Consumes nested') (h : tape.Stands i c)
    (hc : c.left ≤ n) (hf : c.left < fuel) :
    Follows tape (Walk.conjunction tape.tokens nested fuel i) (parseConjunction nested' c) := by
  refine (negation_follows hn hr h hc hf (Nat.lt_succ_self _)).bind fun left j c₁ hleft hj => ?_
  have hle := (parseConjunct_onward hr c).left_le hleft
  have hpart : FollowsBelow tape c.left (Walk.negation tape.tokens nested fuel) (parseConjunct nested') :=
    fun _ _ h hlt => negation_follows hn hr h (by omega) (by omega) (Nat.lt_succ_self _)
  exact chain_follows .and hpart (parseConjunct_onward hr) hj (by omega) (by omega) (Nat.lt_succ_self _)

/-- The walk follows the reader of disjunctions, if it does so for expressions with fewer tokens. -/
lemma disjunction_follows (hn : FollowsBelow tape n nested nested') (hr : Consumes nested') (h : tape.Stands i c)
    (hc : c.left ≤ n) (hf : c.left < fuel) :
    Follows tape (Walk.disjunction tape.tokens nested fuel i) (parseDisjunction nested' c) := by
  refine (conjunction_follows hn hr h hc hf).bind fun left j c₁ hleft hj => ?_
  have hle := (parseConjunction_onward hr c).left_le hleft
  have hpart : FollowsBelow tape c.left (Walk.conjunction tape.tokens nested fuel) (parseConjunction nested') :=
    fun _ _ h hlt => conjunction_follows hn hr h (by omega) (by omega)
  exact chain_follows .or hpart (parseConjunction_onward hr) hj (by omega) (by omega) (Nat.lt_succ_self _)

/-- The walk follows the reader of expressions, by induction on the fuel. -/
lemma within_follows (h : tape.Stands i c) (hf : c.left < fuel) (hb : c.left < budget) :
    Follows tape (Walk.expr tape.tokens fuel i) (parseWithin budget c) := by
  induction fuel generalizing budget i c with
  | zero => cases hf
  | succ fuel ih =>
    obtain ⟨budget, rfl⟩ := Nat.exists_eq_add_one_of_ne_zero (Nat.ne_zero_of_lt hb)
    have hnested : FollowsBelow tape c.left (Walk.expr tape.tokens fuel) (parseWithin budget) :=
      fun _ _ h hlt => ih h (by omega) (by omega)
    exact disjunction_follows hnested (parseWithin_onward budget) h (Nat.le_refl _) hf

/-- The walk follows the reader of expressions, as long as there is more fuel than tokens. -/
lemma expr_follows : FollowsBelow tape fuel (Walk.expr tape.tokens fuel) Expr.parse := fun _ _ h hf =>
  within_follows h hf (Nat.lt_succ_self _)

end Expr

namespace Stmt

variable {fuel budget n : Nat}

/-- The walk follows the reader of conditions. -/
lemma condition_follows (h : tape.Stands i c) (hf : c.left < fuel) :
    Follows tape (Walk.condition tape.tokens fuel i) (parseCondition c) := by
  refine follows_punct h fun j c₁ hc₁ hj => ?_
  have hlt := left_lt_of_punct hc₁
  refine (Expr.expr_follows j c₁ hj (by omega)).bind fun e j c₂ _ hj => ?_
  exact follows_punct hj fun j c₃ _ hj => .ok hj

/-- The walk follows the reader of values to be returned. -/
lemma value_follows (h : tape.Stands i c) (hf : c.left < fuel) :
    Follows tape (Walk.value tape.tokens fuel i) (parseValue c) := by
  refine follows_punct h fun j c₁ hc₁ hj => ?_
  have hlt := left_lt_of_punct hc₁
  refine follows_atPunct hj <| .ite (fun _ => follows_next hj fun j hj => .ok hj) fun _ => ?_
  refine (Expr.expr_follows j c₁ hj (by omega)).bind fun e j c₂ _ hj => ?_
  exact follows_punct hj fun j c₃ _ hj => .ok hj

/-- The walk looks behind the word for all cards only if that is next, and tells what the reader tells. -/
lemma follows_atAll {β : Type} {k : Bool → Walk β} {x : Except ParseError (β × Cursor)} (h : tape.Stands i c)
    (hk : Follows tape (k (atAll c) i) x) : Follows tape ((Walk.atAll tape.tokens >>= k) i) x := by
  unfold Walk.atAll
  rw [bind_assoc]
  refine follows_look h fun t ht => ?_
  unfold atAll at hk
  by_cases hend : c.peek.kind = .endOfInput
  · rw [ht.kind, hend]
    rw [hend] at hk
    exact hk
  obtain rfl := ht.eq_of_kind hend
  split
  · next hall =>
    rw [hall, Bool.true_and] at hk
    rw [bind_assoc]
    refine follows_lookAhead h hend fun t' ht' => ?_
    rw [pure_bind, ht'.isPunct_eq]
    exact hk
  · next hall =>
    rw [eq_false_of_ne_true hall, Bool.false_and] at hk
    exact hk

/-- The walk follows the reader of amounts. -/
lemma amount_follows (h : tape.Stands i c) (hf : c.left < fuel) :
    Follows tape (Walk.amount tape.tokens fuel i) (parseAmount c) := by
  refine follows_atAll h <| .ite (fun _ => follows_next h fun j hj => .ok hj) fun _ => ?_
  refine follows_look h fun t ht => ?_
  rw [ht.kind, ht.isPunct_eq]
  refine .ite (fun _ => (int_follows h _).bind fun n j c₁ _ hj => .ok hj) fun _ => ?_
  refine .ite (fun hminus => ?_) fun _ => .ok h
  have hlt := left_advance_lt_of_punct hminus
  refine follows_next h fun j hj => ?_
  exact (Expr.expr_follows j _ hj (by omega)).bind fun e j c₁ _ hj => .ok hj

/-- The walk follows the reader of what comes after the source of a transfer. -/
lemma transfer_follows {source : Expr} {pos : Pos} (h : tape.Stands i c) (hf : c.left < fuel) :
    Follows tape (Walk.transfer tape.tokens fuel source pos i) (parseTransfer source pos c) := by
  refine .ite (fun _ => .error) fun _ => follows_next h fun j hj => ?_
  have hle : c.advance.left ≤ c.left := left_advance_le
  refine follows_look hj fun t ht => ?_
  have hnested : FollowsBelow tape fuel (Walk.expr tape.tokens fuel) Expr.parse := Expr.expr_follows
  have htarget := Expr.operand_follows hnested Expr.parse_onward hj (by omega) (Nat.lt_of_le_of_lt hle hf)
  refine htarget.bind fun target j c₁ htarget hj => ?_
  have hle' := (Expr.parseSingle_onward _).left_le htarget
  rw [ht.pos]
  refine .ite (fun _ => .error) fun _ => ?_
  exact (amount_follows hj (by omega)).bind fun amount j c₂ _ hj => .ok hj

/-- The walk follows the reader of statements that start with an expression. -/
lemma action_follows (h : tape.Stands i c) (hf : c.left < fuel) :
    Follows tape (Walk.action tape.tokens fuel i) (parseAction c) := by
  refine follows_look h fun t ht => ?_
  rw [ht.pos]
  refine (Expr.expr_follows i c h hf).bind fun e j c₁ he hj => ?_
  have hle := (Expr.parse_onward c).left_le he
  refine follows_atPunct hj <| .ite (fun _ => transfer_follows hj (by omega)) fun _ => ?_
  cases e with
  | call fn args pos => exact .ok hj
  | _ => exact .error

variable {block : Walk (List Stmt)} {block' : BlockReader}

/-- The walk follows the reader of statements, if it does so for blocks with fewer tokens. -/
lemma stmt_follows (hb : FollowsBelow tape n block block') (h : tape.Stands i c) (hc : c.left ≤ n)
    (hf : c.left < fuel) : Follows tape (Walk.stmt tape.tokens fuel block i) (Stmt.parse block' c) := by
  have hle : c.advance.left ≤ c.left := left_advance_le
  refine follows_look h fun t ht => ?_
  rw [ht.isKeyword_eq, ht.isKeyword_eq, ht.isKeyword_eq, ht.pos]
  refine .ite (fun _ => follows_next h fun j hj => ?_) fun _ => ?_
  · refine (condition_follows hj (by omega)).bind fun e j c₁ he hj => ?_
    have hlt := parseCondition_onward.left_le he
    exact (hb j c₁ hj (by omega)).bind fun body j c₂ _ hj => .ok hj
  refine .ite (fun _ => follows_next h fun j hj => ?_) fun _ => ?_
  · exact (condition_follows hj (by omega)).bind fun e j c₁ _ hj => .ok hj
  refine .ite (fun _ => follows_next h fun j hj => ?_) fun _ => action_follows h hf
  exact (value_follows hj (by omega)).bind fun value j c₁ _ hj => .ok hj

/-- The walk follows the reader of statements up to a brace, if it does so for blocks with fewer tokens. -/
lemma untilBrace_follows (hb : FollowsBelow tape n block block') (hr : ConsumesBlocks block') (h : tape.Stands i c)
    (hc : c.left ≤ n) (hf : c.left < fuel) (hbudget : c.left < budget) :
    Follows tape (Walk.untilBrace tape.tokens block fuel i) (parseUntilBrace block' budget c) := by
  induction fuel generalizing budget i c with
  | zero => cases hf
  | succ fuel ih =>
    obtain ⟨budget, rfl⟩ := Nat.exists_eq_add_one_of_ne_zero (Nat.ne_zero_of_lt hbudget)
    refine follows_look h fun t ht => ?_
    rw [ht.isPunct_eq]
    refine .ite (fun _ => follows_next h fun j hj => .ok hj) fun _ => ?_
    have hend : t.kind = .endOfInput ↔ c.atEnd = true := by rw [h.atEnd_iff, ht.kind]
    refine .ite_iff hend (fun _ => follows_unexpected h _) fun _ => ?_
    refine (stmt_follows hb h hc hf).bind fun s j c₁ hs hj => ?_
    have hlt := (parse_onward hr).left_le hs
    exact (ih hj (by omega) (by omega) (by omega)).bind fun ss j c₂ _ hj => .ok hj

/-- The walk follows the reader of blocks, by induction on the fuel. -/
lemma blockWithin_follows (h : tape.Stands i c) (hf : c.left < fuel) (hb : c.left < budget) :
    Follows tape (Walk.block tape.tokens fuel i) (parseBlockWithin budget c) := by
  induction fuel generalizing budget i c with
  | zero => cases hf
  | succ fuel ih =>
    obtain ⟨budget, rfl⟩ := Nat.exists_eq_add_one_of_ne_zero (Nat.ne_zero_of_lt hb)
    refine follows_punct h fun j c₁ hc₁ hj => ?_
    have hlt := left_lt_of_punct hc₁
    have hnested : FollowsBelow tape c.left (Walk.block tape.tokens fuel) (parseBlockWithin budget) :=
      fun _ _ h hlt => ih h (by omega) (by omega)
    exact untilBrace_follows hnested (parseBlockWithin_onward budget) hj (by omega) (by omega) (Nat.lt_succ_self _)

/-- The walk follows the reader of blocks, as long as there is more fuel than tokens. -/
lemma block_follows : FollowsBelow tape fuel (Walk.block tape.tokens fuel) parseBlock := fun _ _ h hf =>
  blockWithin_follows h hf (Nat.lt_succ_self _)

end Stmt

namespace Draft

variable {d : Draft} {fuel budget : Nat}

/-- The walk follows the reader of names of games. -/
lemma name_follows (h : tape.Stands i c) : Follows tape (Walk.name tape.tokens d i) (parseName d c) := by
  refine follows_look h fun t ht => ?_
  rw [ht.pos]
  refine follows_next h fun j hj => follows_ofResult fun _ => ?_
  refine follows_look hj fun word hword => ?_
  rw [hword.kind]
  refine .ite (fun hk => ?_) fun _ => follows_unexpected hj _
  have hne : c.advance.peek.kind ≠ .endOfInput := by
    rcases hk with hk | hk <;> exact hk ▸ nofun
  rw [hword.eq_of_kind hne]
  exact follows_next hj fun j hj => .ok hj

/-- The walk follows the reader of decks. -/
lemma deck_follows (h : tape.Stands i c) (hf : c.left < fuel) :
    Follows tape (Walk.deck tape.tokens fuel d i) (parseDeck d c) := by
  refine follows_look h fun t ht => ?_
  rw [ht.pos]
  refine follows_next h fun j hj => follows_ofResult fun _ => ?_
  have hle : c.advance.left ≤ c.left := left_advance_le
  exact (Expr.expr_follows j _ hj (by omega)).bind fun e j c₁ _ hj => .ok hj

/-- The walk follows the reader of positive numbers. -/
lemma positive_follows {what least : String} (h : tape.Stands i c) :
    Follows tape (Walk.positive tape.tokens what least i) (parsePositive what least c) := by
  refine follows_look h fun t ht => ?_
  refine (int_follows h _).bind fun n j c₁ hn hj => ?_
  have hk : c.peek.kind ≠ .endOfInput := by
    rw [kind_of_int hn]
    exact nofun
  rw [ht.eq_of_kind hk]
  exact .ite (fun _ => .error) fun _ => .ok hj

/-- The walk follows the reader of the number of players. -/
lemma players_follows (h : tape.Stands i c) : Follows tape (Walk.players tape.tokens d i) (parsePlayers d c) := by
  refine follows_look h fun t ht => ?_
  rw [ht.pos]
  refine follows_next h fun j hj => follows_ofResult fun _ => ?_
  exact (positive_follows hj).bind fun n j c₁ _ hj => .ok hj

/-- The walk follows the reader of the first player. -/
lemma firstPlayer_follows (h : tape.Stands i c) :
    Follows tape (Walk.firstPlayer tape.tokens d i) (parseFirstPlayer d c) := by
  refine follows_look h fun t ht => ?_
  rw [ht.pos]
  refine follows_next h fun j hj => follows_ofResult fun _ => ?_
  exact (positive_follows hj).bind fun n j c₁ _ hj => .ok hj

/-- The walk follows the reader of stacks. -/
lemma stack_follows (h : tape.Stands i c) : Follows tape (Walk.stack tape.tokens d i) (parseStack d c) := by
  refine follows_next h fun j hj => ?_
  refine (ident_follows hj _).bind fun name j c₁ _ hj => ?_
  refine follows_atPunct hj <| .ite (fun _ => ?_) fun _ => follows_ofResult fun _ => .ok hj
  refine .ite (fun _ => .error) fun _ => follows_next hj fun j hj => ?_
  refine (ident_follows hj _).bind fun name j c₂ _ hj => follows_ofResult fun _ => ?_
  exact .ite (fun _ => .error) fun _ => .ok hj

/-- The walk follows the reader of parameters. -/
lemma params_follows {earlier : List String} (h : tape.Stands i c) (hf : c.left < fuel) (hb : c.left < budget) :
    Follows tape (Walk.params tape.tokens fuel earlier i) (parseParams budget earlier c) := by
  induction fuel generalizing budget earlier i c with
  | zero => cases hf
  | succ fuel ih =>
    obtain ⟨budget, rfl⟩ := Nat.exists_eq_add_one_of_ne_zero (Nat.ne_zero_of_lt hb)
    rw [parseParams_succ]
    refine follows_atPunct h <| .ite (fun _ => follows_next h fun j hj => .ok hj) fun _ => ?_
    refine follows_comma h fun j c₁ hc₁ hj => ?_
    refine (ident_follows hj _).bind fun param j c₂ hparam hj => ?_
    have hlt := (ident_onward _).left_le hparam
    exact .ite (fun _ => .error) fun _ => ih (c := c₂) hj (by omega) (by omega)

/-- The walk follows the reader of functions. -/
lemma function_follows (h : tape.Stands i c) (hf : c.left < fuel) :
    Follows tape (Walk.function tape.tokens fuel d i) (parseFunction d c) := by
  have hle : c.advance.left ≤ c.left := left_advance_le
  refine follows_look h fun t ht => ?_
  rw [ht.pos]
  refine follows_next h fun j hj => ?_
  refine (ident_follows hj _).bind fun name j c₁ hname hj => ?_
  have hlt := (ident_onward _).left_le hname
  refine .ite (fun _ => .error) fun _ => ?_
  refine follows_punct hj fun j c₂ hc₂ hj => ?_
  have hlt' := left_lt_of_punct hc₂
  refine (params_follows hj (by omega) (Nat.lt_succ_self _)).bind fun params j c₃ hparams hj => ?_
  have hlt'' := (parseParams_onward _ _).left_le hparams
  exact (Stmt.block_follows j c₃ hj (by omega)).bind fun body j c₄ _ hj => .ok hj

/-- The walk follows the reader of items. -/
lemma item_follows (h : tape.Stands i c) (hf : c.left < fuel) :
    Follows tape (Walk.item tape.tokens fuel d i) (parseItem d c) := by
  refine follows_look h fun t ht => ?_
  simp only [ht.isKeyword_eq]
  refine .ite (fun _ => name_follows h) fun _ => ?_
  refine .ite (fun _ => deck_follows h hf) fun _ => ?_
  refine .ite (fun _ => players_follows h) fun _ => ?_
  refine .ite (fun _ => firstPlayer_follows h) fun _ => ?_
  refine .ite (fun _ => stack_follows h) fun _ => ?_
  exact .ite (fun _ => function_follows h hf) fun _ => follows_unexpected h _

/-- Items are read up to the end of input. -/
lemma follows_items {β : Type} {k : Draft → Walk β} {f : Draft → Except ParseError (β × Cursor)} (h : tape.Stands i c)
    (hf : c.left < fuel) (hb : c.left < budget)
    (hk : ∀ d j c', tape.Stands j c' → c'.peek.kind = .endOfInput → Follows tape (k d j) (f d)) :
    Follows tape ((Walk.items tape.tokens fuel d >>= k) i) (parseItems budget d c >>= f) := by
  induction fuel generalizing budget d i c with
  | zero => cases hf
  | succ fuel ih =>
    obtain ⟨budget, rfl⟩ := Nat.exists_eq_add_one_of_ne_zero (Nat.ne_zero_of_lt hb)
    unfold Walk.items parseItems
    rw [bind_assoc]
    refine follows_look h fun t ht => ?_
    by_cases hend : c.peek.kind = .endOfInput
    · rw [if_pos (ht.kind.trans hend), if_pos (h.atEnd_iff.mpr hend)]
      exact hk d i c h hend
    · rw [if_neg (ht.kind ▸ hend), if_neg (mt h.atEnd_iff.mp hend), bind_assoc, bind_assoc]
      refine (item_follows h hf).bind fun d j c₁ hd hj => ?_
      have hlt := parseItem_onward.left_le hd
      exact ih hj (by omega) (by omega)

end Draft

namespace Tape

variable {tokens : List Token}

/-- The cursor in front of a tape reads what stands before its last token. -/
lemma cursor_eq (tape : Tape) : Cursor.ofTokens tape.tokens = ⟨tape.front, tape.last.pos⟩ := by
  have hfront : ∀ t ∈ tape.front, (!decide (t.kind = .endOfInput)) = true := fun t ht => by simp [tape.front_ne t ht]
  unfold Cursor.ofTokens tokens
  dsimp only
  rw [List.takeWhile_append_of_pos hfront, List.takeWhile_cons_of_neg (by simp [tape.last_eq]), List.append_nil,
    List.find?_append, List.find?_eq_none.mpr (by simpa using hfront), Option.none_or,
    List.find?_cons_of_pos (by simp [tape.last_eq])]
  rfl

/-- Tokens with an end of input among them are a tape. -/
lemma exists_of_mem (h : ∃ t ∈ tokens, t.kind = .endOfInput) : ∃ tape : Tape, tape.tokens = tokens := by
  induction tokens with
  | nil => simp at h
  | cons t tokens ih =>
    by_cases hk : t.kind = .endOfInput
    · exact ⟨⟨[], t, tokens, List.forall_mem_nil _, hk⟩, rfl⟩
    · obtain ⟨t', ht', hk'⟩ := h
      have hmem : t' ∈ tokens := by
        rcases List.mem_cons.mp ht' with rfl | hmem
        · exact absurd hk' hk
        · exact hmem
      obtain ⟨tape, rfl⟩ := ih ⟨t', hmem, hk'⟩
      exact ⟨⟨t :: tape.front, tape.last, tape.beyond, List.forall_mem_cons.mpr ⟨hk, tape.front_ne⟩, tape.last_eq⟩, rfl⟩

/-- At first the walk and the cursor stand at the same token. -/
lemma stands_start (tape : Tape) : tape.Stands 0 (Cursor.ofTokens tape.tokens) := by
  rw [cursor_eq]
  exact ⟨Nat.zero_le _, rfl, rfl⟩

end Tape

namespace Program

/-- What is read off tokens depends on the cursor in front of them. -/
lemma ofTokens_eq_of_cursor_eq {tokens tokens' : List Token} (h : Cursor.ofTokens tokens = Cursor.ofTokens tokens') :
    ofTokens tokens = ofTokens tokens' := by
  unfold ofTokens
  rw [h]

/-- Without an end of input, the tokens are read as if one stood behind them. -/
lemma cursor_complete {tokens : List Token} (h : ∀ t ∈ tokens, t.kind ≠ .endOfInput) :
    Cursor.ofTokens tokens = Cursor.ofTokens (tokens ++ [Token.endAt ⟨0, 0⟩]) := by
  refine Eq.trans ?_ (Tape.cursor_eq ⟨tokens, Token.endAt ⟨0, 0⟩, [], h, rfl⟩).symm
  have htokens : ∀ t ∈ tokens, (!decide (t.kind = .endOfInput)) = true := fun t ht => by simp [h t ht]
  unfold Cursor.ofTokens
  dsimp only
  rw [List.takeWhile_eq_self_iff.mpr htokens, List.find?_eq_none.mpr (by simpa using htokens)]
  rfl

/-- The completed tokens have an end of input in them, and up to the first one they are the tokens themselves. -/
lemma exists_tape (tokens : List Token) : ∃ tape : Tape, tape.tokens = Walk.completed tokens ∧
    Cursor.ofTokens tape.tokens = Cursor.ofTokens tokens ∧ tape.front.length ≤ tokens.length := by
  by_cases hend : ∃ t ∈ tokens, t.kind = .endOfInput
  · obtain ⟨tape, rfl⟩ := Tape.exists_of_mem hend
    have hfront : tape.front.length ≤ tape.tokens.length := by simp [Tape.tokens]
    unfold Walk.completed
    split
    · exact ⟨tape, rfl, rfl, hfront⟩
    · refine ⟨{ tape with beyond := tape.beyond ++ [Token.endAt ⟨0, 0⟩] }, ?_, ?_, hfront⟩
      · simp [Tape.tokens]
      · rw [Tape.cursor_eq, Tape.cursor_eq]
  · have hne : ∀ t ∈ tokens, t.kind ≠ .endOfInput := fun t ht hk => hend ⟨t, ht, hk⟩
    have hlast : ¬ tokens.getLast?.any (fun t => decide (t.kind = .endOfInput)) = true := by
      intro h
      obtain ⟨t, ht, hk⟩ := (Option.any_eq_true _ _).mp h
      exact hne t (List.mem_of_getLast? ht) (of_decide_eq_true hk)
    unfold Walk.completed
    rw [if_neg hlast]
    exact ⟨⟨tokens, Token.endAt ⟨0, 0⟩, [], hne, rfl⟩, rfl, (cursor_complete hne).symm, Nat.le_refl _⟩

/-- The walk over a tape follows the reader of programs from the first token on. -/
lemma wholeProgram_follows (tape : Tape) {fuel : Nat} (hf : tape.front.length < fuel) :
    Follows tape (Walk.wholeProgram tape.tokens fuel 0)
      (ofTokens tape.tokens >>= fun p => .ok (p, ⟨[], tape.last.pos⟩)) := by
  have hstart := tape.stands_start
  unfold ofTokens
  rw [tape.cursor_eq] at hstart ⊢
  rw [bind_assoc]
  refine Draft.follows_items hstart hf (Nat.lt_succ_self _) fun d j c hj hend => ?_
  obtain rfl := hj.eq_of_end hend
  refine follows_look hj fun t ht => ?_
  rw [ht.pos, bind_assoc]
  refine follows_ofResult fun p => ?_
  rw [bind_assoc]
  exact follows_ofResult fun _ => .ok hj

/-- With more fuel than there are tokens, the walk over any list of tokens stays inside the list, comes to an end and
has the result of the reader. Nothing behind the first end of input counts, and if there is none, the tokens are read as
if one stood behind them. -/
theorem ofTokens_eq_walk (tokens : List Token) :
    (∀ fuel, tokens.length < fuel → Walk.program tokens fuel = (ofTokens tokens).mapError .refused) ∧
    (∀ front last beyond, tokens = front ++ last :: beyond → (∀ t ∈ front, t.kind ≠ .endOfInput) →
      last.kind = .endOfInput → ofTokens tokens = ofTokens (front ++ [last])) ∧
    ((∀ t ∈ tokens, t.kind ≠ .endOfInput) → ofTokens tokens = ofTokens (tokens ++ [Token.endAt ⟨0, 0⟩])) := by
  refine ⟨fun fuel hf => ?_, ?_, fun hne => ofTokens_eq_of_cursor_eq (cursor_complete hne)⟩
  · obtain ⟨tape, htokens, hcursor, hle⟩ := exists_tape tokens
    rw [← ofTokens_eq_of_cursor_eq hcursor, Walk.program, ← htokens]
    exact (wholeProgram_follows tape (Nat.lt_of_le_of_lt hle hf)).map_eq
  · rintro front last beyond rfl hfront hlast
    apply ofTokens_eq_of_cursor_eq
    exact (Tape.cursor_eq ⟨front, last, beyond, hfront, hlast⟩).trans
      (Tape.cursor_eq ⟨front, last, [], hfront, hlast⟩).symm

/-- A program, an end of input that is spelled, and behind it another end of input and what would be no program. -/
def trailing : List Token :=
  [⟨.keyword, "name", ⟨1, 1⟩⟩, ⟨.ident, "duel", ⟨1, 6⟩⟩, ⟨.keyword, "deck", ⟨2, 1⟩⟩, ⟨.ident, "StandardDeck", ⟨2, 6⟩⟩,
    ⟨.keyword, "players", ⟨3, 1⟩⟩, ⟨.int, "2", ⟨3, 9⟩⟩, ⟨.endOfInput, "(", ⟨4, 1⟩⟩, ⟨.punct, "(", ⟨4, 2⟩⟩,
    ⟨.endOfInput, "", ⟨4, 3⟩⟩, ⟨.other 7, ")", ⟨9, 9⟩⟩]

/-- What stands behind the first end of input is not read, and a program that breaks off is refused at its end. -/
theorem trailing_eq_walk :
    let program : Program := ⟨"duel", .name "StandardDeck" ⟨2, 6⟩, 2, 1, [], [], []⟩
    let error : ParseError := { pos := ⟨0, 0⟩, expected := "player count", found := "end of input" }
    (Walk.program trailing 11 = .ok program ∧ ofTokens (trailing.take 7) = .ok program) ∧
      Walk.program (trailing.take 5) 6 = .error (.refused error) ∧
      ofTokens (trailing.take 5 ++ [Token.endAt ⟨0, 0⟩]) = .error error := by
  intro program error
  constructor
  · have hread : ofTokens trailing = .ok program := by decide +kernel
    refine ⟨?_, ?_⟩
    · rw [(ofTokens_eq_walk trailing).1 11 (by decide), hread]
      rfl
    · rw [← hread]
      exact ((ofTokens_eq_walk trailing).2.1 (trailing.take 6) _ _ rfl (by decide) rfl).symm
  · have hread : ofTokens (trailing.take 5) = .error error := by decide +kernel
    refine ⟨?_, ?_⟩
    · rw [(ofTokens_eq_walk (trailing.take 5)).1 6 (by decide), hread]
      rfl
    · rw [← hread]
      exact ((ofTokens_eq_walk (trailing.take 5)).2.2 (by decide)).symm

end Program

end Croupier
