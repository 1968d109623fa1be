import Mathlib.Tactic.SplitIfs
import Croupier.Proofs.Expr.Grammar
import Croupier.Proofs.Program.Binding
import Croupier.Proofs.Program.Declarations
import Croupier.Proofs.Token.Position

/-!
# Programs are well formed

A program that has been read can be played without a second look at it (`WellFormed`). Three things make it so. The
tokens are lexemes, so names are not reserved and numbers are not negative; every reader goes on to a cursor with
lexemes (`Cursor.Lexical`). Every declaration keeps the draft in order (`Draft.InOrder`). And the names are bound, at
any depth.
-/

namespace Croupier

open Token (Lexeme)

namespace Cursor

/-- The tokens to be read are lexemes. -/
def Lexical (c : Cursor) : Prop := ∀ t ∈ c.rest, Lexeme t.kind t.text.toList

variable {c c' : Cursor} {ts : List Token}

/-- What is left after some tokens are lexemes if all tokens were. -/
lemma Spans.lexical (h : c.Spans ts c') (hc : c.Lexical) : c'.Lexical := by
  intro t ht
  apply hc
  rw [h.rest_eq]
  exact List.mem_append_right _ ht

/-- After a lexeme come lexemes. -/
lemma Lexical.advance (hc : c.Lexical) : c.advance.Lexical := fun t ht => hc t (List.mem_of_mem_tail ht)

/-- The token in front of the cursor is a lexeme, unless that is the end of input. -/
lemma Lexical.peek (hc : c.Lexical) (hk : c.peek.kind ≠ .endOfInput) : Lexeme c.peek.kind c.peek.text.toList := by
  apply hc
  rw [(spans_advance hk).rest_eq]
  exact List.mem_cons_self

/-- After a sign come lexemes. -/
lemma Lexical.punct {sign : String} (hc : c.Lexical) (h : c.punct sign = .ok c') : c'.Lexical := by
  obtain ⟨_, rfl⟩ := punct_ok h
  exact hc.advance

/-- A name that is read is no keyword, and lexemes come after it. -/
lemma Lexical.ident {what : String} {t : Token} (hc : c.Lexical) (h : c.ident what = .ok (t, c')) :
    isKeyword t.text = false ∧ c'.Lexical := by
  obtain ⟨hk, hs⟩ := ident_ok h
  have ht : Lexeme t.kind t.text.toList := by
    apply hc
    rw [hs.rest_eq]
    exact List.mem_cons_self
  rw [hk] at ht
  generalize hword : t.text.toList = word at ht
  cases ht with
  | ident _ _ hword' =>
    rw [← hword, String.ofList_toList] at hword'
    exact ⟨hword', hs.lexical hc⟩

/-- A row of digits is the numeral of no negative number. -/
lemma nonneg_of_digits {cs : List Char} {n : Int} (hds : Numeral.IsDigits cs) (hn : Numeral.Denotes cs n) : 0 ≤ n := by
  cases hn with
  | unsigned _ => exact Int.natCast_nonneg _
  | plus _ => exact Int.natCast_nonneg _
  | minus _ => exact absurd (hds.isDigit '-' List.mem_cons_self) (by decide)

/-- A number that is read is not negative, and lexemes come after it. -/
lemma Lexical.int {what : String} {n : Int} (hc : c.Lexical) (h : c.int what = .ok (n, c')) : 0 ≤ n ∧ c'.Lexical := by
  unfold Cursor.int at h
  split at h
  · next hk =>
    have ht : Lexeme c.peek.kind c.peek.text.toList := by
      apply hc.peek
      rw [hk]
      exact nofun
    rw [hk] at ht
    split at h
    · next hn =>
      cases h
      cases ht with
      | int hds => exact ⟨nonneg_of_digits hds (Numeral.readInt?_eq_some_iff.mp hn).1, hc.advance⟩
    · cases h
  · cases h

end Cursor

/-- After an expression come lexemes. -/
lemma Expr.parse_lexical {c c' : Cursor} {e : Expr} (hc : c.Lexical) (h : Expr.parse c = .ok (e, c')) : c'.Lexical := by
  obtain ⟨ts, hs, _⟩ := parseWithin_reads _ h
  exact hs.lexical hc

/-- After a single operand come lexemes. -/
lemma Expr.parseSingle_lexical {c c' : Cursor} {e : Expr} (hc : c.Lexical) (h : parseSingle c = .ok (e, c')) :
    c'.Lexical := by
  have hnested : ReadsExprs Expr.parse := fun _ _ _ h => parseWithin_reads _ h
  obtain ⟨ts, hs, _⟩ := parseOperand_reads hnested h
  exact hs.lexical hc

namespace Stmt

/-- A number of cards to move is not negative. -/
def Counts : Stmt → Prop
  | transfer _ _ amount _ => ∀ n, amount = .count n → 0 ≤ n
  | _ => True

variable {c c' : Cursor}

/-- After a condition come lexemes. -/
lemma parseCondition_lexical {e : Expr} (hc : c.Lexical) (h : parseCondition c = .ok (e, c')) : c'.Lexical := by
  obtain ⟨c₁, hopen, h⟩ := bind_eq_ok.mp h
  obtain ⟨⟨condition, c₂⟩, he, h⟩ := bind_eq_ok.mp h
  obtain ⟨c₃, hclose, h⟩ := bind_eq_ok.mp h
  cases h
  exact (Expr.parse_lexical (hc.punct hopen) he).punct hclose

/-- After a value to be returned come lexemes. -/
lemma parseValue_lexical {value : Option Expr} (hc : c.Lexical) (h : parseValue c = .ok (value, c')) : c'.Lexical := by
  obtain ⟨c₁, hopen, h⟩ := bind_eq_ok.mp h
  split at h
  · cases h
    exact (hc.punct hopen).advance
  · obtain ⟨⟨e, c₂⟩, he, h⟩ := bind_eq_ok.mp h
    obtain ⟨c₃, hclose, h⟩ := bind_eq_ok.mp h
    cases h
    exact (Expr.parse_lexical (hc.punct hopen) he).punct hclose

/-- A number of cards that is read is not negative, and lexemes come after it. -/
lemma parseAmount_counts {amount : Amount} (hc : c.Lexical) (h : parseAmount c = .ok (amount, c')) :
    (∀ n, amount = .count n → 0 ≤ n) ∧ c'.Lexical := by
  unfold parseAmount at h
  split_ifs at h
  · cases h
    exact ⟨nofun, hc.advance⟩
  · obtain ⟨⟨n, c₁⟩, hn, h⟩ := bind_eq_ok.mp h
    cases h
    obtain ⟨hn, hc'⟩ := hc.int hn
    refine ⟨?_, hc'⟩
    rintro _ heq
    cases heq
    exact hn
  · obtain ⟨⟨cards, c₁⟩, he, h⟩ := bind_eq_ok.mp h
    cases h
    exact ⟨nofun, Expr.parse_lexical hc.advance he⟩
  · cases h
    exact ⟨nofun, hc⟩

/-- The amount of a transfer that is read is not negative, and lexemes come after it. -/
lemma parseTransfer_counts {source : Expr} {pos : Pos} {s : Stmt} (hc : c.Lexical)
    (h : parseTransfer source pos c = .ok (s, c')) : (∀ part ∈ s.parts, part.Counts) ∧ c'.Lexical := by
  unfold parseTransfer at h
  split at h
  · cases h
  · obtain ⟨⟨target, c₁⟩, he, h⟩ := bind_eq_ok.mp h
    simp only at h
    split at h
    · cases h
    · obtain ⟨⟨amount, c₂⟩, ha, h⟩ := bind_eq_ok.mp h
      cases h
      obtain ⟨hcount, hc'⟩ := parseAmount_counts (Expr.parseSingle_lexical hc.advance he) ha
      exact ⟨List.forall_mem_singleton.mpr hcount, hc'⟩

/-- A statement that starts with an expression has no negative amount in it. -/
lemma parseAction_counts {s : Stmt} (hc : c.Lexical) (h : parseAction c = .ok (s, c')) :
    (∀ part ∈ s.parts, part.Counts) ∧ c'.Lexical := by
  obtain ⟨⟨e, c₁⟩, he, h⟩ := bind_eq_ok.mp h
  have hc₁ := Expr.parse_lexical hc he
  simp only at h
  split at h
  · exact parseTransfer_counts hc₁ h
  · split at h
    · cases h
      exact ⟨List.forall_mem_singleton.mpr trivial, hc₁⟩
    · cases h

/-- A reader of blocks reads counts off lexemes. -/
def CountsBlocks (block : BlockReader) : Prop :=
  ∀ ⦃c ss c'⦄, c.Lexical → block c = .ok (ss, c') → (∀ part ∈ partsAll ss, part.Counts) ∧ c'.Lexical

/-- A statement has no negative amount in it, if blocks have none. -/
lemma parse_counts {block : BlockReader} (hb : CountsBlocks block) {s : Stmt} (hc : c.Lexical)
    (h : parse block c = .ok (s, c')) : (∀ part ∈ s.parts, part.Counts) ∧ c'.Lexical := by
  unfold parse at h
  simp only at h
  split_ifs at h
  · obtain ⟨⟨condition, c₁⟩, he, h⟩ := bind_eq_ok.mp h
    obtain ⟨⟨body, c₂⟩, hbody, h⟩ := bind_eq_ok.mp h
    cases h
    obtain ⟨hparts, hc'⟩ := hb (parseCondition_lexical hc.advance he) hbody
    exact ⟨List.forall_mem_cons.mpr ⟨trivial, hparts⟩, hc'⟩
  · obtain ⟨⟨condition, c₁⟩, he, h⟩ := bind_eq_ok.mp h
    cases h
    exact ⟨List.forall_mem_singleton.mpr trivial, parseCondition_lexical hc.advance he⟩
  · obtain ⟨⟨value, c₁⟩, he, h⟩ := bind_eq_ok.mp h
    cases h
    exact ⟨List.forall_mem_singleton.mpr trivial, parseValue_lexical hc.advance he⟩
  · exact parseAction_counts hc h

/-- The statements up to a brace have no negative amount in them, if blocks have none. -/
lemma parseUntilBrace_counts {block : BlockReader} (hb : CountsBlocks block) (budget : Nat) :
    CountsBlocks (parseUntilBrace block budget) := by
  induction budget with
  | zero => exact nofun
  | succ budget ih =>
    intro c ss c' hc h
    unfold parseUntilBrace at h
    split_ifs at h
    · cases h
      exact ⟨nofun, hc.advance⟩
    · obtain ⟨⟨s, c₁⟩, hs, h⟩ := bind_eq_ok.mp h
      obtain ⟨⟨ss, c₂⟩, hss, h⟩ := bind_eq_ok.mp h
      cases h
      obtain ⟨hparts, hc₁⟩ := parse_counts hb hc hs
      obtain ⟨hparts', hc'⟩ := ih hc₁ hss
      exact ⟨List.forall_mem_append.mpr ⟨hparts, hparts'⟩, hc'⟩

/-- A block has no negative amount in it, however deep it is nested. -/
lemma parseBlockWithin_counts (budget : Nat) : CountsBlocks (parseBlockWithin budget) := by
  induction budget with
  | zero => exact nofun
  | succ budget ih =>
    intro c ss c' hc h
    obtain ⟨c₁, hopen, h⟩ := bind_eq_ok.mp h
    exact parseUntilBrace_counts ih _ (hc.punct hopen) h

end Stmt

namespace Draft

variable {d d' : Draft} {c c' : Cursor}

/-- What has been declared so far is in order. -/
structure InOrder (d : Draft) : Prop where
  named : ∀ name, d.name = some name → name.value ≠ ""
  players : ∀ players, d.players = some players → 1 ≤ players.value
  first : ∀ first, d.firstPlayer = some first → 1 ≤ first.value
  free : ∀ stack ∈ d.tableStacks ++ d.playerStacks, isKeyword stack = false
  noId : playerId ∉ d.playerStacks
  functions : (d.functions.map (·.name)).Nodup
  params : ∀ f ∈ d.functions, f.params.Nodup
  counts : ∀ f ∈ d.functions, ∀ part ∈ Stmt.partsAll f.body, part.Counts

/-- A draft without declarations is in order. -/
lemma inOrder_empty : ({} : Draft).InOrder where
  named := nofun
  players := nofun
  first := nofun
  free := nofun
  noId := nofun
  functions := List.nodup_nil
  params := nofun
  counts := nofun

/-- To read a name keeps the draft in order. -/
lemma InOrder.parseName (hd : d.InOrder) (hc : c.Lexical) (h : parseName d c = .ok (d', c')) :
    d'.InOrder ∧ c'.Lexical := by
  obtain ⟨_, _, h⟩ := bind_eq_ok.mp h
  simp only at h
  split at h
  · next hk =>
    cases h
    have hword : Token.Lexeme c.advance.peek.kind c.advance.peek.text.toList := by
      apply hc.advance.peek
      rcases hk with hk | hk
      · rw [hk]
        exact nofun
      · rw [hk]
        exact nofun
    refine ⟨{ hd with named := ?_ }, hc.advance.advance⟩
    rintro _ heq
    cases heq
    intro (hempty : c.advance.peek.text = "")
    apply hword.ne_nil
    rw [hempty]
    rfl
  · cases h

/-- To read a deck keeps the draft in order. -/
lemma InOrder.parseDeck (hd : d.InOrder) (hc : c.Lexical) (h : parseDeck d c = .ok (d', c')) :
    d'.InOrder ∧ c'.Lexical := by
  obtain ⟨_, _, h⟩ := bind_eq_ok.mp h
  obtain ⟨⟨deck, c₁⟩, he, h⟩ := bind_eq_ok.mp h
  cases h
  exact ⟨{ hd with }, Expr.parse_lexical hc.advance he⟩

/-- A number that must be positive is. -/
lemma parsePositive_pos {what least : String} {n : Int} (hc : c.Lexical)
    (h : parsePositive what least c = .ok (n, c')) : 1 ≤ n ∧ c'.Lexical := by
  obtain ⟨⟨n', c₁⟩, hn, h⟩ := bind_eq_ok.mp h
  simp only at h
  split at h
  · cases h
  · next hpos =>
    cases h
    exact ⟨Int.not_lt.mp hpos, (hc.int hn).2⟩

/-- To read the number of players keeps the draft in order. -/
lemma InOrder.parsePlayers (hd : d.InOrder) (hc : c.Lexical) (h : parsePlayers d c = .ok (d', c')) :
    d'.InOrder ∧ c'.Lexical := by
  obtain ⟨_, _, h⟩ := bind_eq_ok.mp h
  obtain ⟨⟨n, c₁⟩, hn, h⟩ := bind_eq_ok.mp h
  cases h
  obtain ⟨hpos, hc'⟩ := parsePositive_pos hc.advance hn
  refine ⟨{ hd with players := ?_ }, hc'⟩
  rintro _ heq
  cases heq
  exact hpos

/-- To read the first player keeps the draft in order. -/
lemma InOrder.parseFirstPlayer (hd : d.InOrder) (hc : c.Lexical) (h : parseFirstPlayer d c = .ok (d', c')) :
    d'.InOrder ∧ c'.Lexical := by
  obtain ⟨_, _, h⟩ := bind_eq_ok.mp h
  obtain ⟨⟨n, c₁⟩, hn, h⟩ := bind_eq_ok.mp h
  cases h
  obtain ⟨hpos, hc'⟩ := parsePositive_pos hc.advance hn
  refine ⟨{ hd with first := ?_ }, hc'⟩
  rintro _ heq
  cases heq
  exact hpos

/-- To read a stack keeps the draft in order. -/
lemma InOrder.parseStack (hd : d.InOrder) (hc : c.Lexical) (h : parseStack d c = .ok (d', c')) :
    d'.InOrder ∧ c'.Lexical := by
  obtain ⟨⟨name, c₁⟩, hname, h⟩ := bind_eq_ok.mp h
  obtain ⟨hfree, hc₁⟩ := hc.advance.ident hname
  simp only at h
  split at h
  · split at h
    · cases h
    · obtain ⟨⟨stack, c₂⟩, hstack, h⟩ := bind_eq_ok.mp h
      obtain ⟨hfree', hc₂⟩ := hc₁.advance.ident hstack
      obtain ⟨_, _, h⟩ := bind_eq_ok.mp h
      split at h
      · cases h
      · next hid =>
        cases h
        -- The stacks of the players stand after those of the table, so the new name is the last of all.
        refine ⟨{ hd with free := ?_, noId := ?_ }, hc₂⟩
        · rw [← List.append_assoc]
          exact List.forall_mem_append.mpr ⟨hd.free, List.forall_mem_singleton.mpr hfree'⟩
        · rw [List.mem_append, List.mem_singleton]
          rintro (hold | hnew)
          · exact hd.noId hold
          · exact hid hnew.symm
  · obtain ⟨_, _, h⟩ := bind_eq_ok.mp h
    cases h
    obtain ⟨htable, hplayers⟩ := List.forall_mem_append.mp hd.free
    refine ⟨{ hd with free := ?_ }, hc₁⟩
    exact List.forall_mem_append.mpr
      ⟨List.forall_mem_append.mpr ⟨htable, List.forall_mem_singleton.mpr hfree⟩, hplayers⟩

/-- Parameters are read into a list without repetition. -/
lemma parseParams_nodup {budget : Nat} {earlier params : List String} (hc : c.Lexical) (hn : earlier.Nodup)
    (h : parseParams budget earlier c = .ok (params, c')) : params.Nodup ∧ c'.Lexical := by
  induction budget generalizing earlier c with
  | zero => cases h
  | succ budget ih =>
    rw [parseParams_succ] at h
    split at h
    · cases h
      exact ⟨hn, hc.advance⟩
    · obtain ⟨c₁, hcomma, h⟩ := bind_eq_ok.mp h
      have hc₁ : c₁.Lexical := by
        split at hcomma
        · cases hcomma
          exact hc
        · exact hc.punct hcomma
      obtain ⟨⟨param, c₂⟩, hparam, h⟩ := bind_eq_ok.mp h
      split at h
      · cases h
      · next hnew =>
        rw [List.contains_iff_mem] at hnew
        refine ih (hc₁.ident hparam).2 ?_ h
        exact List.nodup_append_comm.mp (List.nodup_cons.mpr ⟨hnew, hn⟩)

/-- To read a function keeps the draft in order. -/
lemma InOrder.parseFunction (hd : d.InOrder) (hc : c.Lexical) (h : parseFunction d c = .ok (d', c')) :
    d'.InOrder ∧ c'.Lexical := by
  obtain ⟨⟨name, c₁⟩, hname, h⟩ := bind_eq_ok.mp h
  simp only at h
  split at h
  · cases h
  · next hnew =>
    obtain ⟨c₂, hopen, h⟩ := bind_eq_ok.mp h
    obtain ⟨⟨params, c₃⟩, hparams, h⟩ := bind_eq_ok.mp h
    obtain ⟨⟨body, c₄⟩, hbody, h⟩ := bind_eq_ok.mp h
    cases h
    have hc₂ := (hc.advance.ident hname).2.punct hopen
    obtain ⟨hnodup, hc₃⟩ := parseParams_nodup hc₂ List.nodup_nil hparams
    obtain ⟨hcounts, hc₄⟩ := Stmt.parseBlockWithin_counts _ hc₃ hbody
    -- The body may be any block, since only its counts are looked at here: its names are bound later.
    refine ⟨{ hd with functions := ?_, params := ?_, counts := ?_ }, hc₄⟩
    · have hfresh : name.text ∉ d.functions.map (·.name) := by simpa using hnew
      rw [List.map_append]
      exact List.nodup_append_comm.mp (List.nodup_cons.mpr ⟨hfresh, hd.functions⟩)
    · exact List.forall_mem_append.mpr ⟨hd.params, List.forall_mem_singleton.mpr hnodup⟩
    · exact List.forall_mem_append.mpr ⟨hd.counts, List.forall_mem_singleton.mpr hcounts⟩

/-- Every declaration keeps the draft in order. -/
lemma InOrder.parseItem (hd : d.InOrder) (hc : c.Lexical) (h : parseItem d c = .ok (d', c')) :
    d'.InOrder ∧ c'.Lexical := by
  unfold Draft.parseItem at h
  split_ifs at h
  · exact hd.parseName hc h
  · exact hd.parseDeck hc h
  · exact hd.parsePlayers hc h
  · exact hd.parseFirstPlayer hc h
  · exact hd.parseStack hc h
  · exact hd.parseFunction hc h

/-- All declarations keep the draft in order. -/
lemma InOrder.parseItems {budget : Nat} (hd : d.InOrder) (hc : c.Lexical) (h : parseItems budget d c = .ok d') :
    d'.InOrder := by
  induction budget generalizing d c with
  | zero =>
    cases h
    exact hd
  | succ budget ih =>
    unfold Draft.parseItems at h
    split at h
    · cases h
      exact hd
    · obtain ⟨⟨d₁, c₁⟩, hi, h⟩ := bind_eq_ok.mp h
      obtain ⟨hd₁, hc₁⟩ := hd.parseItem hc hi
      exact ih hd₁ hc₁ h

/-- What a program must have was declared. -/
lemma required_ok {α : Type} {key : String} {stop : Pos} {declared : Option (Declared α)} {a : α}
    (h : required key stop declared = .ok a) : ∃ x, declared = some x ∧ x.value = a := by
  cases declared with
  | none => cases h
  | some x => exact ⟨x, rfl, Except.ok.inj h⟩

/-- A program that is made of a draft has what was declared; the first player is the first one unless declared. -/
lemma finish_ok {stop : Pos} {p : Program} (h : d.finish stop = .ok p) :
    (∃ name, d.name = some name ∧ name.value = p.name) ∧
      (∃ players, d.players = some players ∧ players.value = p.players) ∧
      p.firstPlayer = (d.firstPlayer.map (·.value)).getD 1 ∧ p.firstPlayer ≤ p.players ∧
      p.tableStacks = d.tableStacks ∧ p.playerStacks = d.playerStacks ∧ p.functions = d.functions := by
  obtain ⟨name, hname, h⟩ := bind_eq_ok.mp h
  obtain ⟨deck, _, h⟩ := bind_eq_ok.mp h
  obtain ⟨players, hplayers, h⟩ := bind_eq_ok.mp h
  simp only at h
  split at h
  · cases h
  · next hle =>
    cases h
    refine ⟨required_ok hname, required_ok hplayers, ?_, Int.not_lt.mp hle, rfl, rfl, rfl⟩
    cases d.firstPlayer with
    | none => rfl
    | some first => rfl

end Draft

namespace Amount

/-- All cards are moved. -/
def takesAll : Amount → Bool
  | all => true
  | _ => false

/-- The number of cards to move, if it is given. -/
def count? : Amount → Option Int
  | count n => some n
  | _ => none

end Amount

/-- The expression that a statement consists of, if it does. -/
def Stmt.expression? : Stmt → Option Expr
  | call fn args callPos _ => some (.call fn args callPos)
  | _ => none

namespace Program

variable {p : Program}

/-- A program that can be played without a second look at it. Some of this the types carry, whatever is read: a program
has a deck; its functions are one list, so those listed are those found (`function_listed`); an amount is built in one
of several ways, so it is not given in two (the last part of `transfers`); and the only expression that is a statement
is a call (`calls`). The other clauses hold because a source was read. -/
structure WellFormed (p : Program) : Prop where
  named : p.name ≠ ""
  first_seated : 1 ≤ p.firstPlayer ∧ p.firstPlayer ≤ p.players
  stacks_distinct : (p.tableStacks ++ p.playerStacks).Nodup
  stacks_free : ∀ stack ∈ p.tableStacks ++ p.playerStacks, isKeyword stack = false
  id_free : playerId ∉ p.playerStacks
  functions_distinct : p.functionNames.Nodup
  function_listed : ∀ name, name ∈ p.functionNames ↔ (p.function? name).isSome = true
  function_named : ∀ name f, p.function? name = some f ↔ f ∈ p.functions ∧ f.name = name
  params_distinct : ∀ f ∈ p.functions, f.params.Nodup
  /-- A field is one of a record or a stack of a player, and after `players` it is a stack. -/
  fields : ∀ base key pos, .field base key pos ∈ p.exprs →
    if (Expr.field base key pos).isEveryPlayer then key ∈ p.playerStacks
    else key ∈ recordFields ∨ key ∈ p.playerStacks
  predicates : ∀ cards predicate pos, .call filterName [cards, predicate] pos ∈ p.exprs →
    ∃ id pos', predicate = .name id pos' ∧ id ∈ p.functionNames
  /-- Cards come from one stack; to every player they go by number. An amount is given in one way at most. -/
  transfers : ∀ source target amount pos, .transfer source target amount pos ∈ p.stmts →
    source.isEveryPlayer = false ∧ (target.isEveryPlayer = true → amount.exprs = []) ∧
    (∀ n, amount.count? = some n → 0 ≤ n) ∧
    [amount.takesAll, amount.count?.isSome, !amount.exprs.isEmpty].count true ≤ 1
  calls : ∀ s ∈ p.stmts, ∀ e, s.expression? = some e → ∃ fn args pos, e = .call fn args pos

/-- A function is found under its own name and no other, if the names are distinct. -/
lemma function?_eq_some_iff (hn : p.functionNames.Nodup) {name : String} {f : Function} :
    p.function? name = some f ↔ f ∈ p.functions ∧ f.name = name := by
  constructor
  · intro h
    have hname := List.find?_some h
    exact ⟨List.mem_of_find?_eq_some h, of_decide_eq_true hname⟩
  · rintro ⟨hf, rfl⟩
    have hsome : (p.function? f.name).isSome = true := List.find?_isSome.mpr ⟨f, hf, decide_eq_true rfl⟩
    obtain ⟨g, hg⟩ := Option.isSome_iff_exists.mp hsome
    have hname := List.find?_some hg
    rw [hg, List.inj_on_of_nodup_map hn (List.mem_of_find?_eq_some hg) hf (of_decide_eq_true hname)]

/-- The functions that are listed are those that are found. -/
lemma mem_functionNames_iff {name : String} : name ∈ p.functionNames ↔ (p.function? name).isSome = true := by
  simp [functionNames, function?, List.find?_isSome]

/-- The number of cards in a transfer of the program is not negative, and its ends can be joined. -/
lemma transfer_wellFormed {source target : Expr} {amount : Amount} {pos : Pos}
    (hj : (Stmt.transfer source target amount pos).Joins) (hc : (Stmt.transfer source target amount pos).Counts) :
    source.isEveryPlayer = false ∧ (target.isEveryPlayer = true → amount.exprs = []) ∧
      (∀ n, amount.count? = some n → 0 ≤ n) ∧
      [amount.takesAll, amount.count?.isSome, !amount.exprs.isEmpty].count true ≤ 1 := by
  obtain ⟨_, _, hone, hset⟩ := hj
  refine ⟨hone, hset, ?_, ?_⟩
  · intro n hn
    cases amount with
    | count m =>
      cases hn
      exact hc n rfl
    | _ => cases hn
  · cases amount <;> simp [Amount.takesAll, Amount.count?, Amount.exprs]

/-- The tokens of a source are lexemes. -/
lemma lexical_ofTokens {source : List Char} {tokens : List Token} (h : Token.ofSource source = .ok tokens) :
    (Cursor.ofTokens tokens).Lexical := by
  obtain ⟨front, rfl, hfront⟩ := (Token.ofSource_eq_ok_iff.mp h).places
  intro t ht
  have hmem := List.mem_takeWhile_imp ht
  rcases List.mem_append.mp (List.takeWhile_subset _ ht) with ht | ht
  · exact (hfront t ht).1
  · cases List.mem_singleton.mp ht
    cases hmem

/-- A program that is read off a source was made of a draft in order, and its names are bound. -/
lemma ofSource_ok {source : List Char} (h : ofSource source = .ok p) :
    (∃ d : Draft, d.InOrder ∧ ∃ stop, d.finish stop = .ok p) ∧
      (∀ e ∈ p.exprs, (Binding.Names.ofProgram p).Binds e) ∧ ∀ s ∈ p.stmts, s.Joins := by
  obtain ⟨tokens, htokens, h⟩ := bind_eq_ok.mp h
  rw [mapError_eq_ok] at htokens h
  obtain ⟨d, hd, h⟩ := bind_eq_ok.mp h
  obtain ⟨_, hf, h⟩ := bind_eq_ok.mp h
  obtain ⟨_, hcheck, h⟩ := bind_eq_ok.mp h
  cases h
  have horder : d.InOrder := Draft.inOrder_empty.parseItems (lexical_ofTokens htokens) hd
  exact ⟨⟨d, horder, _, hf⟩, Binding.check_eq_ok_iff.mp hcheck⟩

/-- The first player is counted from one, and is the first one unless declared. -/
lemma first_of_inOrder {d : Draft} (hd : d.InOrder) : 1 ≤ (d.firstPlayer.map (·.value)).getD 1 := by
  cases hfirst : d.firstPlayer with
  | none => exact Int.le_refl 1
  | some first => exact hd.first first hfirst

/-- Every program that is read off a source is well formed. -/
theorem wellFormed_of_source {source : List Char} (h : ofSource source = .ok p) : p.WellFormed := by
  obtain ⟨⟨d, hd, stop, hf⟩, hbinds, hjoins⟩ := ofSource_ok h
  obtain ⟨⟨name, hname, hnamed⟩, _, hfirst, hle, htable, hplayer, hfunctions⟩ := Draft.finish_ok hf
  have hnames : p.functionNames.Nodup := by
    rw [functionNames, hfunctions]
    exact hd.functions
  have hcounts : ∀ s ∈ p.stmts, s.Counts := by
    rw [stmts, hfunctions]
    exact List.forall_mem_flatMap.mpr hd.counts
  constructor
  case named => exact hnamed ▸ hd.named name hname
  case first_seated => exact ⟨hfirst ▸ first_of_inOrder hd, hle⟩
  case stacks_distinct => exact stacks_nodup h
  case stacks_free =>
    rw [htable, hplayer]
    exact hd.free
  case id_free =>
    rw [hplayer]
    exact hd.noId
  case functions_distinct => exact hnames
  case function_listed => exact fun _ => mem_functionNames_iff
  case function_named => exact fun _ _ => function?_eq_some_iff hnames
  case params_distinct =>
    rw [hfunctions]
    exact hd.params
  case fields => exact fun base key pos hmem => hbinds _ hmem
  case predicates => exact fun cards predicate pos hmem => hbinds _ hmem cards predicate rfl rfl
  case transfers =>
    intro source target amount pos hmem
    exact transfer_wellFormed (hjoins _ hmem) (hcounts _ hmem)
  case calls =>
    intro s _ e he
    cases s with
    | call fn args callPos pos =>
      cases he
      exact ⟨fn, args, callPos, rfl⟩
    | _ => cases he

/-- A program that deals to every player, filters by a predicate and moves a card set inside a conditional block. -/
def sweep : String := "name sweep deck StandardDeck players 2 current_player 2 stack pile stack player:hand
  .(three each) def setup() \x7b deck > players:hand 3 \x7d
  .(the lowest cards) def low(card) \x7b return(card:rank is 1) \x7d
  .(sweep them off) def sweep(player, move) \x7b
    if (not move:cards is filter(player:hand, low)) \x7b player:hand > pile - filter(player:hand, low) \x7d \x7d"

/-- The program for three cards each is well formed, with four statements at all depths. -/
theorem sweep_wellFormed : ∃ p, ofSource sweep.toList = .ok p ∧ p.WellFormed ∧ p.playerStacks = ["hand"] ∧
    p.functionNames = ["setup", "low", "sweep"] ∧ p.stmts.length = 4 := by
  have hread : (ofSource sweep.toList).toOption.any (fun p => p.playerStacks = ["hand"] ∧
      p.functionNames = ["setup", "low", "sweep"] ∧ p.stmts.length = 4) = true := by
    rw [sweep, String.toList_ofList]
    decide +kernel
  obtain ⟨p, hp, hfacts⟩ := exists_of_any hread
  exact ⟨p, hp, wellFormed_of_source hp, of_decide_eq_true hfacts⟩

end Program

end Croupier
