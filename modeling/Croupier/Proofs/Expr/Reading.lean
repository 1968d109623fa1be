import Croupier.Proofs.Expr.Grammar

/-!
# Every phrase is read

What the grammar derives is read back, with its tree, if nothing after it continues it. A chain and the fields of an
operand recur on the left, while they are read from left to right: so what is shown of them is that, once their tokens
have been read, the loop stands after them with their tree in hand (`Phrase.ReadBefore`). With what was shown of the
phrases that are read, the readers and the grammar agree (`parse_iff_derives`).
-/

namespace Croupier

namespace Token

variable {t : Token} {sign sign' word : String}

/-- A sign is no other sign. -/
lemma isPunct_ne (h : t.isPunct sign = true) (hne : sign ≠ sign') : t.isPunct sign' = false := by
  unfold isPunct at h ⊢
  rw [of_decide_eq_true (Bool.and_eq_true_iff.mp h).2, decide_eq_false hne, Bool.and_false]

/-- A sign is no keyword. -/
lemma isKeyword_of_isPunct (h : t.isPunct sign = true) : t.isKeyword word = false := by
  unfold isPunct at h
  unfold isKeyword
  rw [of_decide_eq_true (Bool.and_eq_true_iff.mp h).1]
  rfl

/-- A keyword is no sign. -/
lemma isPunct_of_isKeyword (h : t.isKeyword word = true) : t.isPunct sign = false := by
  unfold isKeyword at h
  unfold isPunct
  rw [of_decide_eq_true (Bool.and_eq_true_iff.mp h).1]
  rfl

/-- What is of another kind is no sign. -/
lemma isPunct_of_kind (h : t.kind ≠ .punct) : t.isPunct sign = false := by
  unfold isPunct
  rw [decide_eq_false h, Bool.false_and]

/-- What is of another kind is no keyword. -/
lemma isKeyword_of_kind (h : t.kind ≠ .keyword) : t.isKeyword word = false := by
  unfold isKeyword
  rw [decide_eq_false h, Bool.false_and]

end Token

namespace Cursor

/-- The cursor that stands in front of some tokens and then of what a cursor stands in front of. -/
def before (c : Cursor) (ts : List Token) : Cursor := ⟨ts ++ c.rest, c.stop⟩

variable {c : Cursor} {t : Token} {ts us : List Token}

/-- A cursor in front of two parts stands in front of the first, before the second. -/
lemma before_append : c.before (ts ++ us) = (c.before us).before ts := by
  unfold before
  rw [List.append_assoc]

/-- The next token is the first of those in front of the cursor. -/
@[simp]
lemma peek_before : (c.before (t :: ts)).peek = t := rfl

/-- To go on is to leave out the first of the tokens in front of the cursor. -/
@[simp]
lemma advance_before : (c.before (t :: ts)).advance = c.before ts := rfl

/-- The tokens in front of the cursor are left to be read as well. -/
@[simp]
lemma left_before : (c.before ts).left = ts.length + c.left := List.length_append

/-- No call starts at the cursor. -/
structure EndsHead (c : Cursor) : Prop where
  paren : c.atPunct "(" = false

/-- Nothing at the cursor continues a comparison. -/
structure EndsComparison (c : Cursor) : Prop extends EndsHead c where
  colon : c.atPunct ":" = false
  is : c.atKeyword "is" = false

/-- Nothing at the cursor continues a conjunction. -/
structure EndsConjunction (c : Cursor) : Prop extends EndsComparison c where
  and : c.atPunct "&" = false

/-- The token in front of the cursor is none of those that continue an expression. -/
structure EndsExpr (c : Cursor) : Prop extends EndsConjunction c where
  or : c.atPunct "|" = false

variable {sign : String}

/-- At a sign other than a parenthesis no call starts. -/
lemma endsHead_of_punct (h : c.atPunct sign = true) (hne : sign ≠ "(") : c.EndsHead := ⟨Token.isPunct_ne h hne⟩

/-- At a keyword no call starts. -/
lemma endsHead_of_keyword {word : String} (h : c.atKeyword word = true) : c.EndsHead :=
  ⟨Token.isPunct_of_isKeyword h⟩

/-- At a sign other than these two a comparison ends. -/
lemma endsComparison_of_punct (h : c.atPunct sign = true) (hne : sign ∉ ["(", ":"]) : c.EndsComparison where
  paren := Token.isPunct_ne h fun he => hne (by simp [he])
  colon := Token.isPunct_ne h fun he => hne (by simp [he])
  is := Token.isKeyword_of_isPunct h

/-- At a sign other than these three a conjunction ends. -/
lemma endsConjunction_of_punct (h : c.atPunct sign = true) (hne : sign ∉ ["(", ":", "&"]) : c.EndsConjunction where
  toEndsComparison := endsComparison_of_punct h fun he => hne (List.mem_append_left ["&"] he)
  and := Token.isPunct_ne h fun he => hne (by simp [he])

/-- At a sign other than these four an expression ends. -/
lemma endsExpr_of_punct (h : c.atPunct sign = true) (hne : sign ∉ ["(", ":", "&", "|"]) : c.EndsExpr where
  toEndsConjunction := endsConjunction_of_punct h fun he => hne (List.mem_append_left ["|"] he)
  or := Token.isPunct_ne h fun he => hne (by simp [he])

end Cursor

namespace Expr

open Cursor (before_append peek_before advance_before left_before)

/-- No phrase starts with a closing parenthesis, and up to comparisons none starts with `not`. -/
def Phrase.Opens (ts : List Token) : Phrase → Prop
  | .primary _ | .head _ | .operand _ | .comparison _ =>
    ∀ c : Cursor, (c.before ts).atPunct ")" = false ∧ (c.before ts).atKeyword "not" = false
  | .negation _ | .conjunction _ | .disjunction _ => ∀ c : Cursor, (c.before ts).atPunct ")" = false
  | .arguments _ | .furtherArguments _ => True

/-- Every phrase opens as phrases do, by the rule that made it. -/
lemma Derives.opens {ts : List Token} {ph : Phrase} (h : Derives ts ph) : ph.Opens ts := by
  induction h with
  | ident hk =>
    exact fun c => ⟨Token.isPunct_of_kind (by simp [hk]), Token.isKeyword_of_kind (by simp [hk])⟩
  | int hk _ _ =>
    exact fun c => ⟨Token.isPunct_of_kind (by simp [hk]), Token.isKeyword_of_kind (by simp [hk])⟩
  | @reserved t hk hw =>
    refine fun c => ⟨Token.isPunct_of_kind (by simp [hk]), ?_⟩
    have hne : t.text ≠ "not" := by
      intro he
      rw [he] at hw
      exact absurd hw (by decide)
    exact Bool.and_eq_false_imp.mpr fun _ => decide_eq_false hne
  | parens hl _ _ _ => exact fun c => ⟨Token.isPunct_ne hl (by decide), Token.isKeyword_of_isPunct hl⟩
  | plain _ ih => exact ih
  | call _ _ _ _ _ ih _ =>
    intro c
    rw [List.append_assoc, before_append]
    exact ih _
  | noArguments => trivial
  | arguments _ _ _ _ => trivial
  | lastArgument => trivial
  | furtherArgument _ _ _ _ _ => trivial
  | bare _ ih => exact ih
  | field _ _ _ ih => exact fun c => before_append ▸ ih _
  | single _ ih => exact ih
  | same _ _ _ ih _ => exact fun c => before_append ▸ ih _
  | differ _ _ _ _ ih _ => exact fun c => before_append ▸ ih _
  | positive _ ih => exact fun c => (ih c).1
  | not ht _ _ => exact fun c => Token.isPunct_of_isKeyword ht
  | conjunct _ ih => exact ih
  | and _ _ _ ih _ => exact fun c => before_append ▸ ih _
  | disjunct _ ih => exact ih
  | or _ _ _ ih _ => exact fun c => before_append ▸ ih _

/-- No expression is derived from nothing. -/
lemma Derives.length_pos {ts : List Token} {e : Expr} (h : Derives ts (.disjunction e)) : 0 < ts.length := by
  apply List.length_pos_iff.mpr
  rintro rfl
  -- without tokens of its own the phrase would start with whatever follows, such as a closing parenthesis
  exact absurd (h.opens ⟨[⟨.punct, ")", .start⟩], .start⟩) (by decide)

/-- The reader of the links of a chain of conjunctions. -/
def parseConjunct (nested : Reader) : Reader := fun c => parseNegation nested (c.left + 1) c

/-- How tokens in front of a cursor are read, if nothing at the cursor continues the phrase that they are. Operands and
chains are read up to where their loop stands at the cursor with enough of its budget left. -/
def Phrase.ReadBefore (n : Nat) (ts : List Token) (c : Cursor) : Phrase → Prop
  | .primary e => parsePrimary (parseWithin n) (c.before ts) = .ok (e, c)
  | .head e => c.EndsHead →
    ∃ e₀ c₀, parsePrimary (parseWithin n) (c.before ts) = .ok (e₀, c₀) ∧ parseCall (parseWithin n) e₀ c₀ = .ok (e, c)
  | .operand e => c.EndsHead →
    ∃ budget, c.left < budget ∧ parseOperand (parseWithin n) (c.before ts) = parseFields budget e c
  | .comparison e => c.EndsComparison → parseComparison (parseWithin n) (c.before ts) = .ok (e, c)
  | .negation e => c.EndsComparison →
    ∀ budget, ts.length < budget → parseNegation (parseWithin n) budget (c.before ts) = .ok (e, c)
  | .conjunction e => c.EndsComparison → ∃ budget, c.left < budget ∧
    parseConjunction (parseWithin n) (c.before ts) = parseChain .and (parseConjunct (parseWithin n)) budget e c
  | .disjunction e => c.EndsConjunction → ∃ budget, c.left < budget ∧
    parseDisjunction (parseWithin n) (c.before ts) = parseChain .or (parseConjunction (parseWithin n)) budget e c
  | .arguments es => c.atPunct ")" = true → ts.length < n →
    ∀ budget, ts.length < budget → parseArgs (parseWithin n) budget true (c.before ts) = .ok (es, c.advance)
  | .furtherArguments es => c.atPunct ")" = true → (c.before ts).EndsExpr ∧ (ts.length < n →
    ∀ budget, ts.length < budget → parseArgs (parseWithin n) budget false (c.before ts) = .ok (es, c.advance))

variable {nested : Reader} {c : Cursor} {e : Expr} {n : Nat} {t : Token} {ts us : List Token}

/-- Without a colon the fields end. -/
lemma parseFields_stop {budget : Nat} (hc : c.atPunct ":" = false) : parseFields budget e c = .ok (e, c) := by
  cases budget with
  | zero => rfl
  | succ budget => rw [parseFields, if_neg (by simp [hc])]

/-- Without its sign a chain ends. -/
lemma parseChain_stop {op : Junction} {part : Reader} {budget : Nat} (hc : c.atPunct op.sign = false) :
    parseChain op part budget e c = .ok (e, c) := by
  cases budget with
  | zero => rfl
  | succ budget => rw [parseChain, if_neg (by simp [hc])]

/-- A colon and a name are read as one field. -/
lemma parseFields_step {budget : Nat} {key : Token} (ht : t.isPunct ":" = true) (hk : key.kind = .ident)
    (hb : (c.before [t, key]).left < budget) :
    ∃ budget', c.left < budget' ∧
      parseFields budget e (c.before [t, key]) = parseFields budget' (.field e key.text t.pos) c := by
  rw [left_before] at hb
  obtain ⟨budget', rfl⟩ : ∃ b, budget = b + 1 := ⟨budget - 1, by omega⟩
  refine ⟨budget', by simp at hb; omega, ?_⟩
  have hident : (c.before [key]).ident "attribute name" = .ok (key, c) := if_pos hk
  have hcolon : (c.before [t, key]).atPunct ":" = true := ht
  rw [parseFields, if_pos hcolon, advance_before, hident]
  rfl

/-- The sign of a chain and what follows it are read as one link. -/
lemma parseChain_step (op : Junction) {part : Reader} {budget : Nat} {right : Expr} (ht : t.isPunct op.sign = true)
    (hr : part (c.before us) = .ok (right, c)) (hb : (c.before (t :: us)).left < budget) :
    ∃ budget', c.left < budget' ∧
      parseChain op part budget e (c.before (t :: us)) = parseChain op part budget' (.join op e right t.pos) c := by
  rw [left_before] at hb
  obtain ⟨budget', rfl⟩ : ∃ b, budget = b + 1 := ⟨budget - 1, by omega⟩
  refine ⟨budget', by simp at hb; omega, ?_⟩
  have hsign : (c.before (t :: us)).atPunct op.sign = true := ht
  rw [parseChain, if_pos hsign, advance_before, hr]
  rfl

/-- A nested expression is read if enough nesting is left for it. -/
lemma parseWithin_before (h : ∀ n, ts.length ≤ n → ∀ c, (Phrase.disjunction e).ReadBefore n ts c) (hn : ts.length < n)
    (hc : c.EndsExpr) : parseWithin n (c.before ts) = .ok (e, c) := by
  obtain ⟨m, rfl⟩ : ∃ m, n = m + 1 := ⟨n - 1, by omega⟩
  obtain ⟨budget, _, hread⟩ := h m (by omega) c hc.toEndsConjunction
  rw [parseWithin, hread]
  exact parseChain_stop hc.or

/-- An operand is read if nothing after it continues it. -/
lemma parseOperand_before (h : (Phrase.operand e).ReadBefore n ts c) (hp : c.EndsHead) (hc : c.atPunct ":" = false) :
    parseOperand (parseWithin n) (c.before ts) = .ok (e, c) := by
  obtain ⟨budget, _, hread⟩ := h hp
  rw [hread]
  exact parseFields_stop hc

/-- A comparison is read if its second operand is read after the words in between. -/
lemma parseComparison_before {left right : Expr} {negate : Bool} {c₂ : Cursor} (ht : t.isKeyword "is" = true)
    (hl : (Phrase.operand left).ReadBefore n ts (c.before (t :: us)))
    (hw : (c.before us).atKeyword "not" = negate) (hc₂ : (if negate then (c.before us).advance else c.before us) = c₂)
    (hr : parseOperand (parseWithin n) c₂ = .ok (right, c)) :
    parseComparison (parseWithin n) (c.before (ts ++ t :: us)) = .ok (.compare left right negate t.pos, c) := by
  have his : (c.before (t :: us)).atKeyword "is" = true := ht
  have hleft := parseOperand_before hl (Cursor.endsHead_of_keyword his) (Token.isPunct_of_isKeyword ht)
  rw [before_append, parseComparison, hleft]
  simp only [bind, Except.bind]
  rw [if_pos his, advance_before, hw, hc₂, hr]
  rfl

/-- An expression in parentheses is read as a primary. -/
lemma parsePrimary_parens {l r : Token} (hl : l.isPunct "(" = true)
    (he : nested ((c.before [r]).before ts) = .ok (e, c.before [r])) (hr : r.isPunct ")" = true) :
    parsePrimary nested (c.before (l :: ts ++ [r])) = .ok (e, c) := by
  obtain ⟨hk, ht⟩ := Bool.and_eq_true_iff.mp hl
  have hclose : (c.before [r]).punct ")" = .ok c := if_pos hr
  have hopen : (c.before (l :: ts ++ [r])).advance = (c.before [r]).before ts := before_append
  unfold parsePrimary
  have hpeek : (c.before (l :: ts ++ [r])).peek = l := rfl
  simp only [hpeek, of_decide_eq_true hk, of_decide_eq_true ht, hopen, he, if_pos, bind, Except.bind, hclose]

/-- Without a parenthesis a primary is no call. -/
lemma parseCall_plain (hc : c.EndsHead) : parseCall nested e c = .ok (e, c) := by
  unfold parseCall
  split
  · exact if_neg fun h => by simp [hc.paren] at h
  · rfl

/-- A name with arguments in parentheses is read as a call. -/
lemma parseCall_before {l r : Token} {id : String} {pos : Pos} {args : List Expr} (hid : isKeyword id = false)
    (hl : l.isPunct "(" = true)
    (ha : ∀ budget, us.length < budget → parseArgs nested budget true ((c.before [r]).before us) = .ok (args, c)) :
    parseCall nested (.name id pos) (c.before (l :: us ++ [r])) = .ok (.call id args pos, c) := by
  have hopen : (c.before (l :: us ++ [r])).atPunct "(" = true := hl
  have hadvance : (c.before (l :: us ++ [r])).advance = (c.before [r]).before us := before_append
  have hleft : us.length < (c.before (l :: us ++ [r])).left + 1 := by
    rw [left_before, List.length_append, List.length_cons]
    omega
  unfold parseCall
  simp only
  rw [if_pos ⟨hopen, by simp [hid]⟩, hadvance, ha _ hleft]
  rfl

/-- One more argument is read in front of others. -/
lemma parseArgs_before {budget : Nat} {first : Bool} {es : List Expr} {c₁ c₂ c₃ : Cursor}
    (hopen : c.atPunct ")" = false) (hsep : (if first then .ok c else c.punct ",") = .ok c₁)
    (he : nested c₁ = .ok (e, c₂)) (hs : parseArgs nested budget false c₂ = .ok (es, c₃)) :
    parseArgs nested (budget + 1) first c = .ok (e :: es, c₃) := by
  rw [parseArgs_succ, if_neg (by simp [hopen]), hsep]
  simp only [bind, Except.bind]
  rw [he]
  simp only
  rw [hs]

/-- Every phrase is read, if the nesting that is left is not less than its tokens. -/
lemma Derives.readBefore {ph : Phrase} (h : Derives ts ph) : ∀ n, ts.length ≤ n → ∀ c, ph.ReadBefore n ts c := by
  -- the induction is on the derivation; where a loop reads on, the case takes one step of its budget
  induction h with
  | ident hk =>
    intro n _ c
    show parsePrimary _ _ = _
    simp only [parsePrimary, peek_before, hk]
    rfl
  | int hk hn hword =>
    intro n _ c
    have hv := Numeral.readInt?_eq_some_iff.mpr ⟨hn, hword⟩
    show parsePrimary _ _ = _
    simp only [parsePrimary, peek_before, hk, hv]
    rfl
  | reserved hk hw =>
    intro n _ c
    show parsePrimary _ _ = _
    simp only [parsePrimary, peek_before, hk]
    exact if_pos (List.contains_iff_mem.mpr hw)
  | parens hl _ hr ih =>
    intro n hn c
    simp only [List.length_append, List.length_cons] at hn
    have hends : (c.before [_]).EndsExpr := Cursor.endsExpr_of_punct hr (by decide)
    exact parsePrimary_parens hl (parseWithin_before ih (by omega) hends) hr
  | plain _ ih =>
    intro n hn c hc
    exact ⟨_, c, ih n hn c, parseCall_plain hc⟩
  | @call l r ts us id pos args _ hid hl _ hr ihp iha =>
    intro n hn c _
    simp only [List.length_append, List.length_cons] at hn
    -- the arguments are read up to the parenthesis that closes them, and so before a cursor that sees it
    have hargs := iha n (by omega) (c.before [r]) hr (by omega)
    rw [List.append_assoc, before_append]
    exact ⟨_, _, ihp n (by omega) _, parseCall_before hid hl hargs⟩
  | noArguments =>
    intro n _ c hc _ budget hb
    obtain ⟨budget, rfl⟩ : ∃ b, budget = b + 1 := ⟨budget - 1, by omega⟩
    rw [parseArgs_succ]
    exact if_pos hc
  | arguments d _ ihe ihs =>
    intro n _ c hc hn budget hb
    rw [List.length_append] at hn hb
    obtain ⟨budget, rfl⟩ : ∃ b, budget = b + 1 := ⟨budget - 1, by omega⟩
    obtain ⟨hends, hargs⟩ := ihs n (by omega) c hc
    have hpos := d.length_pos
    -- the first argument ends where a comma or the parenthesis follows, and there no expression goes on
    have he := parseWithin_before (n := n) ihe (by omega) hends
    rw [before_append]
    exact parseArgs_before (d.opens _) rfl he (hargs (by omega) budget (by omega))
  | lastArgument =>
    intro n _ c hc
    refine ⟨Cursor.endsExpr_of_punct hc (by decide), fun _ budget hb => ?_⟩
    obtain ⟨budget, rfl⟩ : ∃ b, budget = b + 1 := ⟨budget - 1, by omega⟩
    rw [parseArgs_succ]
    exact if_pos hc
  | @furtherArgument t ts us e es ht _ _ ihe ihs =>
    intro n _ c hc
    refine ⟨Cursor.endsExpr_of_punct (c := c.before (t :: ts ++ us)) ht (by decide), fun hn budget hb => ?_⟩
    simp only [List.length_append, List.length_cons] at hn hb
    obtain ⟨budget, rfl⟩ : ∃ b, budget = b + 1 := ⟨budget - 1, by omega⟩
    obtain ⟨hends, hargs⟩ := ihs n (by omega) c hc
    have he := parseWithin_before (n := n) ihe (by omega) hends
    have hcomma : (c.before (t :: ts ++ us)).punct "," = .ok ((c.before us).before ts) := by
      rw [← before_append]
      exact if_pos ht
    exact parseArgs_before (Token.isPunct_ne ht (by decide)) hcomma he (hargs (by omega) budget (by omega))
  | bare _ ih =>
    intro n hn c hc
    obtain ⟨e₀, c₀, hp, hcall⟩ := ih n hn c hc
    refine ⟨c.left + 1, Nat.lt_succ_self _, ?_⟩
    rw [parseOperand, hp]
    simp only [bind, Except.bind]
    rw [hcall]
  | @field t key ts e _ ht hk ih =>
    intro n hn c hc
    rw [List.length_append] at hn
    have hends := Cursor.endsHead_of_punct (c := c.before [t, key]) ht (by decide)
    obtain ⟨budget, hb, hread⟩ := ih n (by omega) _ hends
    obtain ⟨budget', hb', hstep⟩ := parseFields_step ht hk hb
    exact ⟨budget', hb', before_append ▸ hread.trans hstep⟩
  | single _ ih =>
    intro n hn c hc
    have hread := parseOperand_before (ih n hn c) hc.toEndsHead hc.colon
    show parseComparison _ _ = _
    rw [parseComparison, hread]
    exact if_neg (by simp [hc.is])
  | same _ ht d ihl ihr =>
    intro n hn c hc
    simp only [List.length_append, List.length_cons] at hn
    have hright := parseOperand_before (ihr n (by omega) c) hc.toEndsHead hc.colon
    exact parseComparison_before ht (ihl n (by omega) _) (d.opens c).2 (if_neg Bool.false_ne_true) hright
  | differ _ ht hno _ ihl ihr =>
    intro n hn c hc
    simp only [List.length_append, List.length_cons] at hn
    have hright := parseOperand_before (ihr n (by omega) c) hc.toEndsHead hc.colon
    exact parseComparison_before ht (ihl n (by omega) _) hno (if_pos rfl) hright
  | positive d ih =>
    intro n hn c hc budget hb
    obtain ⟨budget, rfl⟩ : ∃ b, budget = b + 1 := ⟨budget - 1, by omega⟩
    rw [parseNegation, if_neg (by simp [(d.opens c).2])]
    exact ih n hn c hc
  | @not t ts e ht _ ih =>
    intro n hn c hc budget hb
    rw [List.length_cons] at hn hb
    obtain ⟨budget, rfl⟩ : ∃ b, budget = b + 1 := ⟨budget - 1, by omega⟩
    have hnot : (c.before (t :: ts)).atKeyword "not" = true := ht
    rw [parseNegation, if_pos hnot, advance_before, ih n (by omega) c hc budget (by omega)]
    rfl
  | @conjunct ts e _ ih =>
    intro n hn c hc
    refine ⟨c.left + 1, Nat.lt_succ_self _, ?_⟩
    have hfirst : parseConjunct (parseWithin n) (c.before ts) = .ok (e, c) := ih n hn c hc _ (by rw [left_before]; omega)
    show parseConjunct (parseWithin n) (c.before ts) >>= _ = _
    rw [hfirst]
    rfl
  | @and t ts us left right _ ht _ ihl ihr =>
    intro n hn c hc
    simp only [List.length_append, List.length_cons] at hn
    have hends := Cursor.endsComparison_of_punct (c := c.before (t :: us)) ht (by decide)
    obtain ⟨budget, hb, hread⟩ := ihl n (by omega) _ hends
    have hright : parseConjunct (parseWithin n) (c.before us) = .ok (right, c) :=
      ihr n (by omega) c hc _ (by rw [left_before]; omega)
    obtain ⟨budget', hb', hstep⟩ := parseChain_step .and ht hright hb
    exact ⟨budget', hb', before_append ▸ hread.trans hstep⟩
  | disjunct _ ih =>
    intro n hn c hc
    obtain ⟨budget, _, hread⟩ := ih n hn c hc.toEndsComparison
    -- what follows does not continue a conjunction, so the loop for its links has stopped
    rw [parseChain_stop hc.and] at hread
    refine ⟨c.left + 1, Nat.lt_succ_self _, ?_⟩
    rw [parseDisjunction, hread]
    rfl
  | @or t ts us left right _ ht _ ihl ihr =>
    intro n hn c hc
    simp only [List.length_append, List.length_cons] at hn
    have hends := Cursor.endsConjunction_of_punct (c := c.before (t :: us)) ht (by decide)
    obtain ⟨budget, hb, hread⟩ := ihl n (by omega) _ hends
    obtain ⟨_, _, hright⟩ := ihr n (by omega) c hc.toEndsComparison
    -- the right side is a whole conjunction: its own loop has stopped before the next link
    rw [parseChain_stop hc.and] at hright
    obtain ⟨budget', hb', hstep⟩ := parseChain_step .or ht hright hb
    exact ⟨budget', hb', before_append ▸ hread.trans hstep⟩

/-- An expression is read off a cursor if and only if the tokens that are read are a disjunction of the grammar: what is
read is derived, and what is derived is read, unless the token after it is one that continues an expression. -/
theorem parse_iff_derives (c : Cursor) :
    (∀ e c', parse c = .ok (e, c') →
      ∃ used, c.rest = used ++ c'.rest ∧ c'.stop = c.stop ∧ Derives used (.disjunction e)) ∧
    (∀ used rest e, c.rest = used ++ rest → Derives used (.disjunction e) → (Cursor.mk rest c.stop).EndsExpr →
      parse c = .ok (e, ⟨rest, c.stop⟩)) := by
  constructor
  · intro e c' h
    obtain ⟨used, hspan, d⟩ := parseWithin_reads _ h
    exact ⟨used, hspan.rest_eq, hspan.stop_eq, d⟩
  · intro used rest e hrest d hends
    have hbefore : c = Cursor.before ⟨rest, c.stop⟩ used := by
      unfold Cursor.before
      rw [← hrest]
    have hlt : used.length < c.left + 1 := by
      unfold Cursor.left
      rw [hrest, List.length_append]
      omega
    have hread := parseWithin_before (n := c.left + 1) d.readBefore hlt hends
    rw [← hbefore] at hread
    exact hread

/-- In `not a is (f)(x):hand & b | deck` the call and the field are read first, then `is`, `not`, the sign for and, and
the sign for or. -/
theorem parse_precedence :
    let word s : Token := ⟨.ident, s, .start⟩
    let reserved s : Token := ⟨.keyword, s, .start⟩
    let sign s : Token := ⟨.punct, s, .start⟩
    let id s : Expr := .name s .start
    let used := [reserved "not", word "a", reserved "is", sign "(", word "f", sign ")", sign "(", word "x", sign ")",
      sign ":", word "hand", sign "&", word "b", sign "|", reserved "deck"]
    let different := .not (.compare (id "a") (.field (.call "f" [id "x"] .start) "hand" .start) false .start) .start
    let tree := .join .or (.join .and different (id "b") .start) (id "deck") .start
    Derives used (.disjunction tree) ∧
      parse ⟨used ++ [sign ")"], .start⟩ = .ok (tree, ⟨[sign ")"], .start⟩) := by
  intro word reserved sign id used different tree
  have hread : parse ⟨used, .start⟩ = .ok (tree, ⟨[], .start⟩) := by rfl
  obtain ⟨used', hused, _, d⟩ := (parse_iff_derives _).1 _ _ hread
  rw [List.append_nil] at hused
  obtain rfl : used = used' := hused
  have hclose : (Cursor.mk [sign ")"] .start).atPunct ")" = true := rfl
  have hends := Cursor.endsExpr_of_punct hclose (by decide)
  exact ⟨d, (parse_iff_derives ⟨used ++ [sign ")"], .start⟩).2 used _ tree rfl d hends⟩

end Expr

end Croupier
