import Croupier.Proofs.Program.WellFormed

/-!
# How programs are spelled

A program is read off lexemes, and what it takes from them it keeps as it was written. So its stacks are named by words,
and at any depth the names, the fields and the functions in its expressions are words, and its numbers are not negative
(`spelled_of_source`).
-/

namespace Croupier

open Token (Lexeme)

namespace Cursor

variable {c c' : Cursor}

/-- What is read off lexemes are lexemes. -/
lemma Spans.lexemes {ts : List Token} (h : c.Spans ts c') (hc : c.Lexical) : ∀ t ∈ ts, Lexeme t.kind t.text.toList := by
  intro t ht
  apply hc
  rw [h.rest_eq]
  exact List.mem_append_left _ ht

/-- A name that is read is a word. -/
lemma Lexical.word {what : String} {t : Token} (hc : c.Lexical) (h : c.ident what = .ok (t, c')) :
    Lexeme .ident t.text.toList := by
  obtain ⟨hk, hs⟩ := ident_ok h
  have ht := hs.lexemes hc t List.mem_cons_self
  rwa [hk] at ht

end Cursor

namespace Expr

/-- An expression itself is spelled as lexemes are, without the expressions in it. -/
def Spelled : Expr → Prop
  | name id _ => Lexeme .ident id.toList ∨ id ∈ reservedNames
  | int value _ => 0 ≤ value ∧ IsWord value
  | field _ key _ => Lexeme .ident key.toList
  | call fn _ _ => Lexeme .ident fn.toList
  | _ => True

/-- An expression and the expressions in it are spelled as lexemes are. -/
def AllSpelled (e : Expr) : Prop := ∀ part ∈ e.parts, part.Spelled

/-- The reserved names are keywords. -/
lemma isKeyword_of_reserved {id : String} (h : id ∈ reservedNames) : isKeyword id = true := by
  simp only [reservedNames, List.mem_cons, List.not_mem_nil, or_false] at h
  rcases h with rfl | rfl | rfl <;> decide

/-- The expressions of a phrase are spelled as lexemes are. -/
def Phrase.AllSpelled : Phrase → Prop
  | .primary e | .head e | .operand e | .comparison e | .negation e | .conjunction e | .disjunction e => e.AllSpelled
  | .arguments es | .furtherArguments es => ∀ part ∈ partsAll es, part.Spelled

/-- What is derived from lexemes is spelled as they are. -/
lemma Derives.spelled {ts : List Token} {ph : Phrase} (h : Derives ts ph)
    (hts : ∀ t ∈ ts, Lexeme t.kind t.text.toList) : ph.AllSpelled := by
  induction h with
  | @ident t hk =>
    have ht := hts t List.mem_cons_self
    rw [hk] at ht
    exact List.forall_mem_singleton.mpr (.inl ht)
  | @int t n hk hn hword =>
    have ht := hts t List.mem_cons_self
    rw [hk] at ht
    cases ht with
    | int hds => exact List.forall_mem_singleton.mpr ⟨Cursor.nonneg_of_digits hds hn, hword⟩
  | reserved _ hw => exact List.forall_mem_singleton.mpr (.inr hw)
  | parens _ _ _ ih => exact ih fun t ht => hts t (List.mem_cons_of_mem _ (List.mem_append_left _ ht))
  | plain _ ih | bare _ ih | single _ ih | positive _ ih | conjunct _ ih | disjunct _ ih => exact ih hts
  | @call _ _ _ _ id pos _ _ hid _ _ _ ihname ihargs =>
    simp only [List.forall_mem_append, List.forall_mem_cons] at hts
    have hname : (Expr.name id pos).Spelled := ihname hts.1.1 _ List.mem_cons_self
    -- a reserved name is not called, so the name is a word
    have hword : Lexeme .ident id.toList := hname.resolve_right fun hr => by
      rw [isKeyword_of_reserved hr] at hid
      exact Bool.noConfusion hid
    exact List.forall_mem_cons.mpr ⟨hword, ihargs hts.1.2.2⟩
  | noArguments | lastArgument => exact List.forall_mem_nil _
  | arguments _ _ ihe ihs =>
    rw [List.forall_mem_append] at hts
    exact List.forall_mem_append.mpr ⟨ihe hts.1, ihs hts.2⟩
  | furtherArgument _ _ _ ihe ihs =>
    simp only [List.forall_mem_append, List.forall_mem_cons] at hts
    exact List.forall_mem_append.mpr ⟨ihe hts.1.2, ihs hts.2⟩
  | @field _ key _ _ _ _ hk ih =>
    simp only [List.forall_mem_append, List.forall_mem_cons] at hts
    have hkey := hts.2.2.1
    rw [hk] at hkey
    exact List.forall_mem_cons.mpr ⟨hkey, ih hts.1⟩
  | same _ _ _ ihl ihr =>
    simp only [List.forall_mem_append, List.forall_mem_cons] at hts
    exact List.forall_mem_cons.mpr ⟨trivial, List.forall_mem_append.mpr ⟨ihl hts.1, ihr hts.2.2⟩⟩
  | differ _ _ _ _ ihl ihr =>
    simp only [List.forall_mem_append, List.forall_mem_cons] at hts
    exact List.forall_mem_cons.mpr ⟨trivial, List.forall_mem_append.mpr ⟨ihl hts.1, ihr hts.2.2.2⟩⟩
  | not _ _ ih => exact List.forall_mem_cons.mpr ⟨trivial, ih fun t ht => hts t (List.mem_cons_of_mem _ ht)⟩
  | and _ _ _ ihl ihr | or _ _ _ ihl ihr =>
    simp only [List.forall_mem_append, List.forall_mem_cons] at hts
    exact List.forall_mem_cons.mpr ⟨trivial, List.forall_mem_append.mpr ⟨ihl hts.1, ihr hts.2.2⟩⟩

variable {c c' : Cursor} {e : Expr}

/-- An expression is spelled as the lexemes it is read off. -/
lemma parse_spelled (hc : c.Lexical) (h : Expr.parse c = .ok (e, c')) : e.AllSpelled := by
  obtain ⟨ts, hs, hd⟩ := parseWithin_reads _ h
  exact hd.spelled (hs.lexemes hc)

/-- A single operand is spelled as the lexemes it is read off. -/
lemma parseSingle_spelled (hc : c.Lexical) (h : parseSingle c = .ok (e, c')) : e.AllSpelled := by
  have hnested : ReadsExprs Expr.parse := fun _ _ _ h => parseWithin_reads _ h
  obtain ⟨ts, hs, hd⟩ := parseOperand_reads hnested h
  exact hd.spelled (hs.lexemes hc)

end Expr

namespace Stmt

/-- The expressions of a statement itself are spelled as lexemes are. -/
def Spelled (s : Stmt) : Prop := ∀ e ∈ s.exprs, e.AllSpelled

variable {c c' : Cursor}

/-- A condition is spelled as its lexemes are. -/
lemma parseCondition_spelled {e : Expr} (hc : c.Lexical) (h : parseCondition c = .ok (e, c')) : e.AllSpelled := by
  obtain ⟨c₁, hopen, h⟩ := bind_eq_ok.mp h
  obtain ⟨⟨condition, c₂⟩, he, h⟩ := bind_eq_ok.mp h
  obtain ⟨c₃, _, h⟩ := bind_eq_ok.mp h
  cases h
  exact Expr.parse_spelled (hc.punct hopen) he

/-- A value to be returned is spelled as its lexemes are. -/
lemma parseValue_spelled {value : Option Expr} (hc : c.Lexical) (h : parseValue c = .ok (value, c')) :
    ∀ e ∈ value.toList, e.AllSpelled := by
  obtain ⟨c₁, hopen, h⟩ := bind_eq_ok.mp h
  split at h
  · cases h
    exact List.forall_mem_nil _
  · obtain ⟨⟨e, c₂⟩, he, h⟩ := bind_eq_ok.mp h
    obtain ⟨c₃, _, h⟩ := bind_eq_ok.mp h
    cases h
    exact List.forall_mem_singleton.mpr (Expr.parse_spelled (hc.punct hopen) he)

/-- The card set of an amount is spelled as its lexemes are. -/
lemma parseAmount_spelled {amount : Amount} (hc : c.Lexical) (h : parseAmount c = .ok (amount, c')) :
    ∀ e ∈ amount.exprs, e.AllSpelled := by
  unfold parseAmount at h
  split_ifs at h
  · cases h
    exact List.forall_mem_nil _
  · obtain ⟨⟨n, c₁⟩, _, h⟩ := bind_eq_ok.mp h
    cases h
    exact List.forall_mem_nil _
  · obtain ⟨⟨cards, c₁⟩, he, h⟩ := bind_eq_ok.mp h
    cases h
    exact List.forall_mem_singleton.mpr (Expr.parse_spelled hc.advance he)
  · cases h
    exact List.forall_mem_nil _

/-- A transfer is spelled as its lexemes are, if its source is. -/
lemma parseTransfer_spelled {source : Expr} {pos : Pos} {s : Stmt} (hc : c.Lexical) (hs : source.AllSpelled)
    (h : parseTransfer source pos c = .ok (s, c')) : ∀ part ∈ s.parts, part.Spelled := by
  unfold parseTransfer at h
  split at h
  · cases h
  · obtain ⟨⟨target, c₁⟩, he, h⟩ := bind_eq_ok.mp h
    simp only at h
    split at h
    · cases h
    · obtain ⟨⟨amount, c₂⟩, ha, h⟩ := bind_eq_ok.mp h
      cases h
      have ht : target.AllSpelled := Expr.parseSingle_spelled hc.advance he
      have hamount := parseAmount_spelled (Expr.parseSingle_lexical hc.advance he) ha
      exact List.forall_mem_singleton.mpr (List.forall_mem_cons.mpr ⟨hs, List.forall_mem_cons.mpr ⟨ht, hamount⟩⟩)

/-- A statement that starts with an expression is spelled as its lexemes are. -/
lemma parseAction_spelled {s : Stmt} (hc : c.Lexical) (h : parseAction c = .ok (s, c')) :
    ∀ part ∈ s.parts, part.Spelled := by
  obtain ⟨⟨e, c₁⟩, he, h⟩ := bind_eq_ok.mp h
  have hspelled := Expr.parse_spelled hc he
  simp only at h
  split at h
  · exact parseTransfer_spelled (Expr.parse_lexical hc he) hspelled h
  · split at h
    · cases h
      exact List.forall_mem_singleton.mpr (List.forall_mem_singleton.mpr hspelled)
    · cases h

/-- A reader of blocks reads statements that are spelled as the lexemes are. -/
def SpellsBlocks (block : BlockReader) : Prop :=
  ∀ ⦃c ss c'⦄, c.Lexical → block c = .ok (ss, c') → ∀ part ∈ partsAll ss, part.Spelled

/-- A statement is spelled as its lexemes are, if blocks are. -/
lemma parse_spelled {block : BlockReader} (hb : SpellsBlocks block) {s : Stmt} (hc : c.Lexical)
    (h : parse block c = .ok (s, c')) : ∀ part ∈ s.parts, part.Spelled := by
  unfold parse at h
  simp only at h
  split_ifs at h
  · obtain ⟨⟨condition, c₁⟩, he, h⟩ := bind_eq_ok.mp h
    obtain ⟨⟨body, c₂⟩, hbody, h⟩ := bind_eq_ok.mp h
    cases h
    have hcondition := parseCondition_spelled hc.advance he
    have hparts := hb (parseCondition_lexical hc.advance he) hbody
    exact List.forall_mem_cons.mpr ⟨List.forall_mem_singleton.mpr hcondition, hparts⟩
  · obtain ⟨⟨condition, c₁⟩, he, h⟩ := bind_eq_ok.mp h
    cases h
    exact List.forall_mem_singleton.mpr (List.forall_mem_singleton.mpr (parseCondition_spelled hc.advance he))
  · obtain ⟨⟨value, c₁⟩, he, h⟩ := bind_eq_ok.mp h
    cases h
    exact List.forall_mem_singleton.mpr (parseValue_spelled hc.advance he)
  · exact parseAction_spelled hc h

/-- The statements up to a brace are spelled as their lexemes are, if blocks are. -/
lemma parseUntilBrace_spelled {block : BlockReader} (hcount : CountsBlocks block) (hb : SpellsBlocks block)
    (budget : Nat) : SpellsBlocks (parseUntilBrace block budget) := by
  induction budget with
  | zero => exact fun _ _ _ _ h => nomatch h
  | succ budget ih =>
    intro c ss c' hc h
    unfold parseUntilBrace at h
    split_ifs at h
    · cases h
      exact List.forall_mem_nil _
    · obtain ⟨⟨s, c₁⟩, hs, h⟩ := bind_eq_ok.mp h
      obtain ⟨⟨ss, c₂⟩, hss, h⟩ := bind_eq_ok.mp h
      cases h
      have hparts := parse_spelled hb hc hs
      exact List.forall_mem_append.mpr ⟨hparts, ih (parse_counts hcount hc hs).2 hss⟩

/-- A block is spelled as its lexemes are, however deep it is nested. -/
lemma parseBlockWithin_spelled (budget : Nat) : SpellsBlocks (parseBlockWithin budget) := by
  induction budget with
  | zero => exact fun _ _ _ _ h => nomatch h
  | succ budget ih =>
    intro c ss c' hc h
    obtain ⟨c₁, hopen, h⟩ := bind_eq_ok.mp h
    exact parseUntilBrace_spelled (parseBlockWithin_counts budget) ih _ (hc.punct hopen) h

end Stmt

namespace Draft

variable {d d' : Draft} {c c' : Cursor}

/-- What has been declared so far is spelled as lexemes are. -/
structure Spelled (d : Draft) : Prop where
  deck : ∀ deck, d.deck = some deck → deck.value.AllSpelled
  stackNames : ∀ stack ∈ d.tableStacks ++ d.playerStacks, Lexeme .ident stack.toList
  bodies : ∀ f ∈ d.functions, ∀ part ∈ Stmt.partsAll f.body, part.Spelled

/-- Nothing has been declared in an empty draft. -/
lemma spelled_empty : ({} : Draft).Spelled where
  deck := nofun
  stackNames := List.forall_mem_nil _
  bodies := List.forall_mem_nil _

/-- A deck is spelled as its lexemes are. -/
lemma Spelled.parseDeck (hd : d.Spelled) (hc : c.Lexical) (h : parseDeck d c = .ok (d', c')) : d'.Spelled := by
  obtain ⟨_, _, h⟩ := bind_eq_ok.mp h
  obtain ⟨⟨deck, c₁⟩, he, h⟩ := bind_eq_ok.mp h
  cases h
  refine { hd with deck := ?_ }
  rintro _ ⟨⟩
  exact Expr.parse_spelled hc.advance he

/-- A stack is spelled as its lexemes are. -/
lemma Spelled.parseStack (hd : d.Spelled) (hc : c.Lexical) (h : parseStack d c = .ok (d', c')) : d'.Spelled := by
  obtain ⟨⟨name, c₁⟩, hname, h⟩ := bind_eq_ok.mp h
  have hc₁ := (hc.advance.ident hname).2
  simp only at h
  split at h
  · split at h
    · cases h
    · obtain ⟨⟨stack, c₂⟩, hstack, h⟩ := bind_eq_ok.mp h
      have hword := hc₁.advance.word hstack
      obtain ⟨_, _, h⟩ := bind_eq_ok.mp h
      split at h
      · cases h
      · cases h
        refine { hd with stackNames := ?_ }
        rw [← List.append_assoc]
        exact List.forall_mem_append.mpr ⟨hd.stackNames, List.forall_mem_singleton.mpr hword⟩
  · obtain ⟨_, _, h⟩ := bind_eq_ok.mp h
    cases h
    have hword := hc.advance.word hname
    obtain ⟨htable, hplayers⟩ := List.forall_mem_append.mp hd.stackNames
    refine { hd with stackNames := ?_ }
    exact List.forall_mem_append.mpr
      ⟨List.forall_mem_append.mpr ⟨htable, List.forall_mem_singleton.mpr hword⟩, hplayers⟩

/-- A function is spelled as its lexemes are. -/
lemma Spelled.parseFunction (hd : d.Spelled) (hc : c.Lexical) (h : parseFunction d c = .ok (d', c')) : d'.Spelled := by
  obtain ⟨⟨name, c₁⟩, hname, h⟩ := bind_eq_ok.mp h
  simp only at h
  split at h
  · cases h
  · obtain ⟨c₂, hopen, h⟩ := bind_eq_ok.mp h
    obtain ⟨⟨params, c₃⟩, hparams, h⟩ := bind_eq_ok.mp h
    obtain ⟨⟨body, c₄⟩, hbody, h⟩ := bind_eq_ok.mp h
    cases h
    have hc₂ := (hc.advance.ident hname).2.punct hopen
    have hc₃ := (parseParams_nodup hc₂ List.nodup_nil hparams).2
    have hparts := Stmt.parseBlockWithin_spelled _ hc₃ hbody
    exact { hd with bodies := List.forall_mem_append.mpr ⟨hd.bodies, List.forall_mem_singleton.mpr hparts⟩ }

/-- Every declaration is spelled as its lexemes are. -/
lemma Spelled.parseItem (hd : d.Spelled) (hc : c.Lexical) (h : parseItem d c = .ok (d', c')) : d'.Spelled := by
  unfold Draft.parseItem at h
  split_ifs at h
  · obtain ⟨name, rfl⟩ := parseName_ok h
    exact { hd with }
  · exact hd.parseDeck hc h
  · obtain ⟨players, rfl⟩ := parsePlayers_ok h
    exact { hd with }
  · obtain ⟨first, rfl⟩ := parseFirstPlayer_ok h
    exact { hd with }
  · exact hd.parseStack hc h
  · exact hd.parseFunction hc h

/-- All declarations are spelled as their lexemes are. -/
lemma Spelled.parseItems {budget : Nat} (hd : d.Spelled) (ho : d.InOrder) (hc : c.Lexical)
    (h : parseItems budget d c = .ok d') : d'.Spelled := by
  induction budget generalizing d c with
  | zero =>
    cases h
    exact hd
  | succ budget ih =>
    unfold Draft.parseItems at h
    split at h
    · cases h
      exact hd
    · obtain ⟨⟨d₁, c₁⟩, hi, h⟩ := bind_eq_ok.mp h
      obtain ⟨ho₁, hc₁⟩ := ho.parseItem hc hi
      exact ih (hd.parseItem hc hi) ho₁ hc₁ h

/-- The deck of a program is the one that was declared. -/
lemma finish_deck {stop : Pos} {p : Program} (h : d.finish stop = .ok p) :
    ∃ deck, d.deck = some deck ∧ deck.value = p.deck := by
  obtain ⟨name, _, h⟩ := bind_eq_ok.mp h
  obtain ⟨deck, hdeck, h⟩ := bind_eq_ok.mp h
  obtain ⟨players, _, h⟩ := bind_eq_ok.mp h
  simp only at h
  split at h
  · cases h
  · cases h
    exact required_ok hdeck

end Draft

namespace Program

/-- A program that is read off a source is spelled as lexemes are: its stacks, and its expressions at any depth. -/
lemma spelled_of_source {source : List Char} {p : Program} (h : ofSource source = .ok p) :
    (∀ stack ∈ p.tableStacks ++ p.playerStacks, Lexeme .ident stack.toList) ∧ ∀ e ∈ p.exprs, e.Spelled := by
  obtain ⟨tokens, htokens, h⟩ := bind_eq_ok.mp h
  rw [mapError_eq_ok] at htokens h
  obtain ⟨d, hd, h⟩ := bind_eq_ok.mp h
  obtain ⟨_, hf, h⟩ := bind_eq_ok.mp h
  obtain ⟨_, _, h⟩ := bind_eq_ok.mp h
  cases h
  have hspelled := Draft.spelled_empty.parseItems Draft.inOrder_empty (lexical_ofTokens htokens) hd
  obtain ⟨_, _, _, _, htable, hplayer, hfunctions⟩ := Draft.finish_ok hf
  obtain ⟨deck, hdeck, hvalue⟩ := Draft.finish_deck hf
  refine ⟨?_, List.forall_mem_append.mpr ⟨?_, ?_⟩⟩
  · rw [htable, hplayer]
    exact hspelled.stackNames
  · rw [← hvalue]
    exact hspelled.deck deck hdeck
  · rw [stmts, hfunctions]
    refine List.forall_mem_flatMap.mpr (List.forall_mem_flatMap.mpr ?_)
    intro f hf part hpart
    exact List.forall_mem_flatMap.mpr (hspelled.bodies f hf part hpart)

end Program

end Croupier
