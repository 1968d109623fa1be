import Croupier.Expr.Parser
import Croupier.Proofs.Except
import Croupier.Proofs.Numeral

/-!
# The grammar of expressions

The rules of the grammar say which tokens derive which phrase, trees with their positions included (`Derives`):

    disjunction := conjunction | disjunction '|' conjunction
    conjunction := negation | conjunction '&' negation
    negation    := comparison | 'not' negation
    comparison  := operand | operand 'is' operand | operand 'is' 'not' operand
    operand     := head | operand ':' IDENT
    head        := primary | primary '(' arguments ')'
    arguments   := nothing | disjunction {',' disjunction}
    primary     := IDENT | INT | 'deck' | 'players' | 'current_player' | '(' disjunction ')'

A primary is called only if it is a name that is not reserved, in parentheses or not, and an integer is one that fits in
a word. Chains and fields recur on the left, so they bind to the left. What a reader of expressions reads off a cursor
is a phrase of the grammar (`parseWithin_reads`): every level reads its own phrase, if the reader that it is given for
nested expressions reads disjunctions.
-/

namespace Croupier

namespace Expr

/-- What tokens can be read as: an expression at one of the levels, or the arguments of a call. -/
inductive Phrase where
  | primary (e : Expr)
  | head (e : Expr)
  | operand (e : Expr)
  | comparison (e : Expr)
  | negation (e : Expr)
  | conjunction (e : Expr)
  | disjunction (e : Expr)
  | arguments (es : List Expr)
  | furtherArguments (es : List Expr)

/-- The words that are reserved and yet name something. -/
def reservedNames : List String := ["deck", "players", "current_player"]

/-- The tokens are a phrase. -/
inductive Derives : List Token → Phrase → Prop where
  | ident {t : Token} : t.kind = .ident → Derives [t] (.primary (.name t.text t.pos))
  | int {t : Token} {n : Int} :
    t.kind = .int → Numeral.Denotes t.text.toList n → IsWord n → Derives [t] (.primary (.int n t.pos))
  | reserved {t : Token} : t.kind = .keyword → t.text ∈ reservedNames → Derives [t] (.primary (.name t.text t.pos))
  | parens {l r : Token} {ts : List Token} {e : Expr} :
    l.isPunct "(" → Derives ts (.disjunction e) → r.isPunct ")" → Derives (l :: ts ++ [r]) (.primary e)
  | plain {ts : List Token} {e : Expr} : Derives ts (.primary e) → Derives ts (.head e)
  | call {l r : Token} {ts us : List Token} {id : String} {pos : Pos} {args : List Expr} :
    Derives ts (.primary (.name id pos)) → isKeyword id = false →
    l.isPunct "(" → Derives us (.arguments args) → r.isPunct ")" →
    Derives (ts ++ l :: us ++ [r]) (.head (.call id args pos))
  | noArguments : Derives [] (.arguments [])
  | arguments {ts us : List Token} {e : Expr} {es : List Expr} :
    Derives ts (.disjunction e) → Derives us (.furtherArguments es) → Derives (ts ++ us) (.arguments (e :: es))
  | lastArgument : Derives [] (.furtherArguments [])
  | furtherArgument {t : Token} {ts us : List Token} {e : Expr} {es : List Expr} :
    t.isPunct "," → Derives ts (.disjunction e) → Derives us (.furtherArguments es) →
    Derives (t :: ts ++ us) (.furtherArguments (e :: es))
  | bare {ts : List Token} {e : Expr} : Derives ts (.head e) → Derives ts (.operand e)
  | field {t key : Token} {ts : List Token} {e : Expr} :
    Derives ts (.operand e) → t.isPunct ":" → key.kind = .ident →
    Derives (ts ++ [t, key]) (.operand (.field e key.text t.pos))
  | single {ts : List Token} {e : Expr} : Derives ts (.operand e) → Derives ts (.comparison e)
  | same {t : Token} {ts us : List Token} {left right : Expr} :
    Derives ts (.operand left) → t.isKeyword "is" → Derives us (.operand right) →
    Derives (ts ++ t :: us) (.comparison (.compare left right false t.pos))
  | differ {t no : Token} {ts us : List Token} {left right : Expr} :
    Derives ts (.operand left) → t.isKeyword "is" → no.isKeyword "not" → Derives us (.operand right) →
    Derives (ts ++ t :: no :: us) (.comparison (.compare left right true t.pos))
  | positive {ts : List Token} {e : Expr} : Derives ts (.comparison e) → Derives ts (.negation e)
  | not {t : Token} {ts : List Token} {e : Expr} :
    t.isKeyword "not" → Derives ts (.negation e) → Derives (t :: ts) (.negation (.not e t.pos))
  | conjunct {ts : List Token} {e : Expr} : Derives ts (.negation e) → Derives ts (.conjunction e)
  | and {t : Token} {ts us : List Token} {left right : Expr} :
    Derives ts (.conjunction left) → t.isPunct "&" → Derives us (.negation right) →
    Derives (ts ++ t :: us) (.conjunction (.join .and left right t.pos))
  | disjunct {ts : List Token} {e : Expr} : Derives ts (.conjunction e) → Derives ts (.disjunction e)
  | or {t : Token} {ts us : List Token} {left right : Expr} :
    Derives ts (.disjunction left) → t.isPunct "|" → Derives us (.conjunction right) →
    Derives (ts ++ t :: us) (.disjunction (.join .or left right t.pos))

end Expr

namespace Cursor

/-- From one cursor to another some tokens are read. -/
structure Spans (c : Cursor) (ts : List Token) (c' : Cursor) : Prop where
  rest_eq : c.rest = ts ++ c'.rest
  stop_eq : c'.stop = c.stop

variable {c c' c'' : Cursor} {ts us : List Token}

/-- From a cursor to itself nothing is read. -/
lemma Spans.refl : c.Spans [] c := ⟨rfl, rfl⟩

/-- What is read from one cursor to a second and on to a third is read from the first to the third. -/
lemma Spans.trans (h : c.Spans ts c') (h' : c'.Spans us c'') : c.Spans (ts ++ us) c'' where
  rest_eq := by rw [h.rest_eq, h'.rest_eq, List.append_assoc]
  stop_eq := h'.stop_eq.trans h.stop_eq

/-- The cursor goes over the token in front of it, unless that is the end of input. -/
lemma spans_advance (h : c.peek.kind ≠ .endOfInput) : c.Spans [c.peek] c.advance := by
  obtain ⟨rest, stop⟩ := c
  cases rest with
  | nil => exact absurd rfl h
  | cons t rest => exact ⟨rfl, rfl⟩

/-- Where a sign is next, the next token is a sign. -/
lemma kind_of_atPunct {sign : String} (h : c.atPunct sign = true) : c.peek.kind = .punct := by
  unfold atPunct Token.isPunct at h
  exact of_decide_eq_true (Bool.and_eq_true_iff.mp h).1

/-- Where a keyword is next, the next token is a keyword. -/
lemma kind_of_atKeyword {word : String} (h : c.atKeyword word = true) : c.peek.kind = .keyword := by
  unfold atKeyword Token.isKeyword at h
  exact of_decide_eq_true (Bool.and_eq_true_iff.mp h).1

/-- The cursor goes over a sign that is next. -/
lemma spans_punct {sign : String} (h : c.atPunct sign = true) : c.Spans [c.peek] c.advance := by
  apply spans_advance
  rw [kind_of_atPunct h]
  exact nofun

/-- The cursor goes over a keyword that is next. -/
lemma spans_keyword {word : String} (h : c.atKeyword word = true) : c.Spans [c.peek] c.advance := by
  apply spans_advance
  rw [kind_of_atKeyword h]
  exact nofun

/-- A sign that has been read was next. -/
lemma punct_ok {sign : String} (h : c.punct sign = .ok c') : c.atPunct sign = true ∧ c' = c.advance := by
  unfold punct at h
  split at h
  · next hs =>
    cases h
    exact ⟨hs, rfl⟩
  · cases h

/-- A name that has been read is a word that is not reserved. -/
lemma ident_ok {what : String} {t : Token} (h : c.ident what = .ok (t, c')) :
    t.kind = .ident ∧ c.Spans [t] c' := by
  unfold ident at h
  split at h
  · next hk =>
    cases h
    refine ⟨hk, spans_advance ?_⟩
    rw [hk]
    exact nofun
  · cases h

end Cursor

namespace Expr

open Cursor (spans_advance spans_punct spans_keyword punct_ok ident_ok)

/-- Between two cursors stands a phrase. -/
def Reads (c : Cursor) (ph : Phrase) (c' : Cursor) : Prop := ∃ ts, c.Spans ts c' ∧ Derives ts ph

/-- A reader reads disjunctions. -/
def ReadsExprs (nested : Reader) : Prop := ∀ ⦃c e c'⦄, nested c = .ok (e, c') → Reads c (.disjunction e) c'

variable {nested : Reader} {c c' c₀ : Cursor} {e e' : Expr}

/-- The arguments that are read are the first ones, or those that follow a comma. -/
def argumentPhrase (first : Bool) (es : List Expr) : Phrase := if first then .arguments es else .furtherArguments es

/-- Arguments end at a parenthesis, or one more of them is read, after a comma unless it is the first. -/
lemma parseArgs_succ {budget : Nat} {first : Bool} :
    parseArgs nested (budget + 1) first c =
      if c.atPunct ")" then .ok ([], c.advance)
      else (if first then .ok c else c.punct ",") >>= fun c₁ => nested c₁ >>= fun arg =>
        parseArgs nested budget false arg.2 >>= fun args => .ok (arg.1 :: args.1, args.2) := by
  cases first with
  | true => rfl
  | false => rfl

/-- What is read as arguments is derived as arguments, up to the parenthesis that closes them. -/
lemma parseArgs_reads (hn : ReadsExprs nested) {budget : Nat} {first : Bool} {es : List Expr}
    (h : parseArgs nested budget first c = .ok (es, c')) :
    ∃ ts r, c.Spans (ts ++ [r]) c' ∧ Derives ts (argumentPhrase first es) ∧ r.isPunct ")" := by
  induction budget generalizing first c es with
  | zero => cases h
  | succ budget ih =>
    rw [parseArgs_succ] at h
    split at h
    · next hclose =>
      cases h
      refine ⟨[], c.peek, spans_punct hclose, ?_, hclose⟩
      cases first with
      | true => exact .noArguments
      | false => exact .lastArgument
    · obtain ⟨c₁, hcomma, h⟩ := bind_eq_ok.mp h
      obtain ⟨⟨arg, c₂⟩, harg, h⟩ := bind_eq_ok.mp h
      obtain ⟨⟨args, c₃⟩, hargs, h⟩ := bind_eq_ok.mp h
      cases h
      obtain ⟨ts, hts, darg⟩ := hn harg
      obtain ⟨us, r, hus, dargs, hr⟩ := ih hargs
      cases first with
      | true =>
        cases hcomma
        refine ⟨ts ++ us, r, ?_, .arguments darg dargs, hr⟩
        rw [List.append_assoc]
        exact hts.trans hus
      | false =>
        obtain ⟨hc, rfl⟩ := punct_ok hcomma
        refine ⟨c.peek :: ts ++ us, r, ?_, .furtherArgument hc darg dargs, hr⟩
        have hspan := ((spans_punct hc).trans hts).trans hus
        simpa using hspan

/-- What is read as a primary is derived as a primary. -/
lemma parsePrimary_reads (hn : ReadsExprs nested) (h : parsePrimary nested c = .ok (e, c')) :
    Reads c (.primary e) c' := by
  have hstep : c.peek.kind ≠ .endOfInput → c.Spans [c.peek] c.advance := spans_advance
  unfold parsePrimary at h
  simp only at h
  split at h
  · next hk =>
    cases h
    exact ⟨_, hstep (by rw [hk]; exact nofun), .ident hk⟩
  · next hk =>
    split at h
    · next n hv =>
      cases h
      obtain ⟨hn, hword⟩ := Numeral.readInt?_eq_some_iff.mp hv
      exact ⟨_, hstep (by rw [hk]; exact nofun), .int hk hn hword⟩
    · cases h
  · next hk =>
    split at h
    · next hw =>
      cases h
      exact ⟨_, hstep (by rw [hk]; exact nofun), .reserved hk (List.contains_iff_mem.mp hw)⟩
    · cases h
  · next hk =>
    split at h
    · next ht =>
      obtain ⟨⟨e₁, c₁⟩, he, h⟩ := bind_eq_ok.mp h
      obtain ⟨c₂, hclose, h⟩ := bind_eq_ok.mp h
      cases h
      obtain ⟨hr, rfl⟩ := punct_ok hclose
      obtain ⟨ts, hts, de⟩ := hn he
      have hopen : c.peek.isPunct "(" = true := by
        unfold Token.isPunct
        rw [hk, ht]
        rfl
      exact ⟨_, ((spans_punct hopen).trans hts).trans (spans_punct hr), .parens hopen de hr⟩
    · cases h
  · cases h

/-- A call is read after a primary. -/
lemma parseCall_reads (hn : ReadsExprs nested) (hp : Reads c₀ (.primary e) c)
    (h : parseCall nested e c = .ok (e', c')) : Reads c₀ (.head e') c' := by
  obtain ⟨ts, hts, de⟩ := hp
  unfold parseCall at h
  split at h
  · next id pos =>
    split at h
    · next hcall =>
      obtain ⟨⟨args, c₁⟩, hargs, h⟩ := bind_eq_ok.mp h
      cases h
      obtain ⟨us, r, hus, dargs, hr⟩ := parseArgs_reads hn hargs
      refine ⟨ts ++ c.peek :: us ++ [r], ?_, .call de (eq_false_of_ne_true hcall.2) hcall.1 dargs hr⟩
      have hspan := hts.trans ((spans_punct hcall.1).trans hus)
      simpa using hspan
    · cases h
      exact ⟨ts, hts, .plain de⟩
  · cases h
    exact ⟨ts, hts, .plain de⟩

/-- Fields are read after an operand. -/
lemma parseFields_reads {budget : Nat} (ho : Reads c₀ (.operand e) c)
    (h : parseFields budget e c = .ok (e', c')) : Reads c₀ (.operand e') c' := by
  induction budget generalizing e c with
  | zero =>
    cases h
    exact ho
  | succ budget ih =>
    unfold parseFields at h
    split at h
    · next hcolon =>
      obtain ⟨⟨key, c₁⟩, hkey, h⟩ := bind_eq_ok.mp h
      obtain ⟨hk, hspan⟩ := ident_ok hkey
      obtain ⟨ts, hts, de⟩ := ho
      exact ih ⟨_, hts.trans ((spans_punct hcolon).trans hspan), .field de hcolon hk⟩ h
    · cases h
      exact ho

/-- What is read as an operand is derived as an operand. -/
lemma parseOperand_reads (hn : ReadsExprs nested) (h : parseOperand nested c = .ok (e, c')) :
    Reads c (.operand e) c' := by
  obtain ⟨⟨e₁, c₁⟩, hprimary, h⟩ := bind_eq_ok.mp h
  obtain ⟨⟨e₂, c₂⟩, hcall, h⟩ := bind_eq_ok.mp h
  obtain ⟨ts, hts, de⟩ := parseCall_reads hn (parsePrimary_reads hn hprimary) hcall
  exact parseFields_reads ⟨ts, hts, .bare de⟩ h

/-- What is read as a comparison is derived as a comparison. -/
lemma parseComparison_reads (hn : ReadsExprs nested) (h : parseComparison nested c = .ok (e, c')) :
    Reads c (.comparison e) c' := by
  obtain ⟨⟨left, c₁⟩, hleft, h⟩ := bind_eq_ok.mp h
  obtain ⟨ts, hts, dleft⟩ := parseOperand_reads hn hleft
  simp only at h
  split at h
  · next his =>
    obtain ⟨⟨right, c₂⟩, hright, h⟩ := bind_eq_ok.mp h
    cases h
    obtain ⟨us, hus, dright⟩ := parseOperand_reads hn hright
    have hspan := hts.trans (spans_keyword his)
    cases hnot : c₁.advance.atKeyword "not" with
    | true =>
      rw [hnot, if_pos rfl] at hus
      refine ⟨ts ++ c₁.peek :: c₁.advance.peek :: us, ?_, .differ dleft his hnot dright⟩
      simpa using (hspan.trans (spans_keyword hnot)).trans hus
    | false =>
      rw [hnot, if_neg Bool.false_ne_true] at hus
      refine ⟨ts ++ c₁.peek :: us, ?_, .same dleft his dright⟩
      simpa using hspan.trans hus
  · cases h
    exact ⟨ts, hts, .single dleft⟩

/-- What is read as a negation is derived as a negation, by induction on how often `not` may come. -/
lemma parseNegation_reads (hn : ReadsExprs nested) {budget : Nat} (h : parseNegation nested budget c = .ok (e, c')) :
    Reads c (.negation e) c' := by
  induction budget generalizing c e with
  | zero => cases h
  | succ budget ih =>
    unfold parseNegation at h
    split at h
    · next hnot =>
      obtain ⟨⟨e₁, c₁⟩, he, h⟩ := bind_eq_ok.mp h
      cases h
      obtain ⟨ts, hts, de⟩ := ih he
      exact ⟨_, (spans_keyword hnot).trans hts, .not hnot de⟩
    · obtain ⟨ts, hts, de⟩ := parseComparison_reads hn h
      exact ⟨ts, hts, .positive de⟩

/-- The phrase that a chain of one junction is. -/
def chainPhrase : Junction → Expr → Phrase
  | .and => .conjunction
  | .or => .disjunction

/-- The phrase that a link of such a chain is. -/
def linkPhrase : Junction → Expr → Phrase
  | .and => .negation
  | .or => .conjunction

/-- A chain and one more link make a chain. -/
lemma derives_join {op : Junction} {t : Token} {ts us : List Token} {left right : Expr}
    (hl : Derives ts (chainPhrase op left)) (ht : t.isPunct op.sign) (hr : Derives us (linkPhrase op right)) :
    Derives (ts ++ t :: us) (chainPhrase op (.join op left right t.pos)) := by
  cases op with
  | and => exact .and hl ht hr
  | or => exact .or hl ht hr

/-- The links of a chain are read after its first part. -/
lemma parseChain_reads (op : Junction) {part : Reader} {budget : Nat}
    (hpart : ∀ ⦃c e c'⦄, part c = .ok (e, c') → Reads c (linkPhrase op e) c') (hl : Reads c₀ (chainPhrase op e) c)
    (h : parseChain op part budget e c = .ok (e', c')) : Reads c₀ (chainPhrase op e') c' := by
  induction budget generalizing e c with
  | zero =>
    cases h
    exact hl
  | succ budget ih =>
    unfold parseChain at h
    split at h
    · next hsign =>
      obtain ⟨⟨right, c₁⟩, hright, h⟩ := bind_eq_ok.mp h
      obtain ⟨ts, hts, dl⟩ := hl
      obtain ⟨us, hus, dr⟩ := hpart hright
      exact ih ⟨_, hts.trans ((spans_punct hsign).trans hus), derives_join dl hsign dr⟩ h
    · cases h
      exact hl

/-- What is read as a conjunction is derived as a conjunction. -/
lemma parseConjunction_reads (hn : ReadsExprs nested) (h : parseConjunction nested c = .ok (e, c')) :
    Reads c (.conjunction e) c' := by
  obtain ⟨⟨first, c₁⟩, hfirst, h⟩ := bind_eq_ok.mp h
  obtain ⟨ts, hts, dfirst⟩ := parseNegation_reads hn hfirst
  exact parseChain_reads .and (fun _ _ _ => parseNegation_reads hn) ⟨ts, hts, .conjunct dfirst⟩ h

/-- What is read as a disjunction is derived as a disjunction. -/
lemma parseDisjunction_reads (hn : ReadsExprs nested) (h : parseDisjunction nested c = .ok (e, c')) :
    Reads c (.disjunction e) c' := by
  obtain ⟨⟨first, c₁⟩, hfirst, h⟩ := bind_eq_ok.mp h
  obtain ⟨ts, hts, dfirst⟩ := parseConjunction_reads hn hfirst
  exact parseChain_reads .or (fun _ _ _ => parseConjunction_reads hn) ⟨ts, hts, .disjunct dfirst⟩ h

/-- However deep expressions may be nested, what is read is a disjunction. -/
lemma parseWithin_reads (budget : Nat) : ReadsExprs (parseWithin budget) := by
  -- the induction is on the nesting that is left: a level is given the reader for one nesting less
  induction budget with
  | zero => exact fun _ _ _ h => nomatch h
  | succ budget ih => exact fun _ _ _ h => parseDisjunction_reads ih h

end Expr

end Croupier
