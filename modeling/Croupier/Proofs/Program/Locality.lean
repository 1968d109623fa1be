import Croupier.Proofs.Program.Onward

/-!
# Items are read on their own

An item of a program starts with a reserved word that continues nothing. So in front of two cursors at which an item
starts or the input ends (`Cursor.Fresh`), the same tokens are read in the same way, as long as the reader stops before
what follows (`Same`). A reader that goes into what follows does not count: it has read too much. What an item is thus
depends on its own tokens only (`parseItem_same`).
-/

namespace Croupier

/-- The words that start an item. -/
def itemWords : List String := ["name", "deck", "players", "current_player", "stack", "def"]

namespace Cursor

variable {c c' : Cursor} {ts us : List Token} {word : String}

/-- An item starts at the cursor, or the input ends. -/
def Fresh (c : Cursor) : Prop := c.atEnd = true ∨ ∃ word ∈ itemWords, c.atKeyword word = true

/-- What stands in front of a cursor can be told from the cursor before it. -/
lemma before_inj (h : c.before ts = c.before us) : ts = us := List.append_cancel_right (congrArg Cursor.rest h)

/-- A cursor from which some tokens are read is the next cursor with those tokens in front of it. -/
lemma Spans.eq_before (h : c.Spans ts c') : c = c'.before ts := by
  obtain ⟨rest, stop⟩ := c
  obtain ⟨rfl, hstop⟩ := h
  unfold before
  rw [hstop]

/-- Where an item starts or the input ends, the next token is a keyword or the end. -/
lemma Fresh.kind (h : c.Fresh) : c.peek.kind = .endOfInput ∨ c.peek.kind = .keyword := by
  rcases h with hend | ⟨word, _, hw⟩
  · obtain ⟨rest, stop⟩ := c
    cases rest with
    | nil => exact .inl rfl
    | cons t rest => cases hend
  · exact .inr (kind_of_atKeyword hw)

/-- Where an item starts or the input ends, no sign is next. -/
lemma Fresh.atPunct (h : c.Fresh) (sign : String) : c.atPunct sign = false := by
  apply Token.isPunct_of_kind
  rcases h.kind with hk | hk <;> exact hk ▸ nofun

/-- A keyword that is next is the text of the next token. -/
lemma text_of_atKeyword (h : c.atKeyword word = true) : c.peek.text = word := by
  unfold atKeyword Token.isKeyword at h
  exact of_decide_eq_true (Bool.and_eq_true_iff.mp h).2

/-- Where an item starts or the input ends, no keyword is next that starts no item. -/
lemma Fresh.atKeyword (h : c.Fresh) (hw : word ∉ itemWords) : c.atKeyword word = false := by
  apply eq_false_of_ne_true
  intro hat
  rcases h with hend | ⟨word', hmem, hat'⟩
  · obtain ⟨rest, stop⟩ := c
    cases rest with
    | nil => cases hat
    | cons t rest => cases hend
  · rw [← text_of_atKeyword hat, text_of_atKeyword hat'] at hw
    exact hw hmem

end Cursor

open Cursor (before_append left_before peek_before advance_before)

section Results

variable {α β : Type} {k k' : Cursor} {ts us : List Token} {x x' y y' : Except ParseError (α × Cursor)}

/-- What is read in front of one cursor, and not more, is read in the same way in front of the other. -/
def Same (k k' : Cursor) (x x' : Except ParseError (α × Cursor)) : Prop :=
  ∀ a us, x = .ok (a, k.before us) → x' = .ok (a, k'.before us)

/-- What is read without a look at the tokens is the same. -/
lemma same_ok (a : α) (ts : List Token) : Same k k' (.ok (a, k.before ts)) (.ok (a, k'.before ts)) := by
  intro b us h
  obtain ⟨rfl, hus⟩ := Prod.mk.inj (Except.ok.inj h)
  rw [Cursor.before_inj hus]

/-- An error says nothing about other tokens. -/
lemma same_error {e : ParseError} : Same k k' (.error e) x' := nofun

/-- A token that has been read from the cursor on belongs to what follows. -/
lemma Same.of_onward (h : Onward 1 k x) : Same k k' x x' := by
  intro a us hx
  have hle := h.left_le hx
  rw [left_before] at hle
  omega

/-- A sequence of readers reads in the same way if both parts do and the second does not go back. -/
lemma Same.bind {f f' : α × Cursor → Except ParseError (β × Cursor)} (hx : Same k k' x x')
    (hon : ∀ a c, Onward 0 c (f (a, c)))
    (hf : ∀ a us, x = .ok (a, k.before us) → Same k k' (f (a, k.before us)) (f' (a, k'.before us))) :
    Same k k' (x >>= f) (x' >>= f') := by
  intro b us h
  obtain ⟨⟨a, c⟩, ha, hb⟩ := bind_eq_ok.mp h
  -- the second part goes on, so the first has stopped before what follows
  obtain ⟨vs, hspan, _⟩ := hon a c b _ hb
  obtain rfl := hspan.eq_before
  rw [← before_append] at ha hb
  exact bind_eq_ok.mpr ⟨_, hx a _ ha, hf a _ ha b us hb⟩

/-- Readers after a test read in the same way if the test comes out alike. -/
lemma Same.ite_iff {p p' : Prop} [Decidable p] [Decidable p'] (hp : p ↔ p') (hx : p → Same k k' x x')
    (hy : Same k k' y y') : Same k k' (if p then x else y) (if p' then x' else y') := by
  by_cases h : p
  · rw [if_pos h, if_pos (hp.mp h)]
    exact hx h
  · rw [if_neg h, if_neg (mt hp.mpr h)]
    exact hy

/-- Readers on both sides of one test read in the same way if they do on each. -/
lemma Same.ite {p : Prop} [Decidable p] (hx : Same k k' x x') (hy : Same k k' y y') :
    Same k k' (if p then x else y) (if p then x' else y') :=
  .ite_iff .rfl (fun _ => hx) hy

/-- A sign is read in the same way, and fewer tokens are left before what follows. -/
lemma same_punct {sign : String} {f f' : Cursor → Except ParseError (β × Cursor)} (hon : ∀ c, Onward 0 c (f c))
    (hf : ∀ us, us.length < ts.length → Same k k' (f (k.before us)) (f' (k'.before us))) :
    Same k k' ((k.before ts).punct sign >>= f) ((k'.before ts).punct sign >>= f') := by
  cases ts with
  | nil => exact .of_onward (onward_punct hon)
  | cons t us =>
    unfold Cursor.punct
    show Same k k' ((if t.isPunct sign then .ok (k.before us) else _) >>= f)
      ((if t.isPunct sign then .ok (k'.before us) else _) >>= f')
    split
    · exact hf us (Nat.lt_succ_self _)
    · exact same_error

/-- A comma that may be needed is read in the same way. -/
lemma same_comma {first : Bool} {f f' : Cursor → Except ParseError (β × Cursor)} (hon : ∀ c, Onward 0 c (f c))
    (hf : ∀ us, us.length ≤ ts.length → Same k k' (f (k.before us)) (f' (k'.before us))) :
    Same k k' ((if first then .ok (k.before ts) else (k.before ts).punct ",") >>= f)
      ((if first then .ok (k'.before ts) else (k'.before ts).punct ",") >>= f') := by
  cases first with
  | true => exact hf ts (Nat.le_refl _)
  | false => exact same_punct hon fun us hus => hf us (Nat.le_of_lt hus)

/-- A name is read in the same way. -/
lemma ident_same (what : String) (ts : List Token) :
    Same k k' ((k.before ts).ident what) ((k'.before ts).ident what) := by
  cases ts with
  | nil => exact .of_onward (ident_onward what)
  | cons t us => exact .ite (same_ok t us) same_error

/-- A number is read in the same way. -/
lemma int_same (what : String) (ts : List Token) :
    Same k k' ((k.before ts).int what) ((k'.before ts).int what) := by
  cases ts with
  | nil => exact .of_onward (int_onward what)
  | cons t us =>
    refine .ite ?_ same_error
    simp only [peek_before, advance_before]
    split
    · exact same_ok _ us
    · exact same_error

/-- What has been read is missing in front of what follows. -/
lemma Onward.length_le {n : Nat} {a : α} (h : Onward n (k.before ts) x) (hx : x = .ok (a, k.before us)) :
    us.length + n ≤ ts.length := by
  have hle := h.left_le hx
  rw [left_before, left_before] at hle
  omega

end Results

section Fresh

variable {k k' : Cursor} {ts : List Token}

/-- A sign that is next is among the tokens in front of a fresh cursor. -/
lemma cons_of_atPunct (hk : k.Fresh) {sign : String} (h : (k.before ts).atPunct sign = true) :
    ∃ t us, ts = t :: us := by
  cases ts with
  | nil => exact absurd h (Bool.eq_false_iff.mp (hk.atPunct sign))
  | cons t us => exact ⟨t, us, rfl⟩

/-- A keyword that starts no item is among the tokens in front of a fresh cursor. -/
lemma cons_of_atKeyword (hk : k.Fresh) {word : String} (hw : word ∉ itemWords)
    (h : (k.before ts).atKeyword word = true) : ∃ t us, ts = t :: us := by
  cases ts with
  | nil => exact absurd h (Bool.eq_false_iff.mp (hk.atKeyword hw))
  | cons t us => exact ⟨t, us, rfl⟩

/-- Whether a sign is next does not depend on what follows afresh. -/
lemma atPunct_same (hk : k.Fresh) (hk' : k'.Fresh) (ts : List Token) (sign : String) :
    (k.before ts).atPunct sign = (k'.before ts).atPunct sign := by
  cases ts with
  | nil => exact (hk.atPunct sign).trans (hk'.atPunct sign).symm
  | cons t us => rfl

/-- Whether a keyword that starts no item is next does not depend on what follows afresh. -/
lemma atKeyword_same (hk : k.Fresh) (hk' : k'.Fresh) (ts : List Token) {word : String} (hw : word ∉ itemWords) :
    (k.before ts).atKeyword word = (k'.before ts).atKeyword word := by
  cases ts with
  | nil => exact (hk.atKeyword hw).trans (hk'.atKeyword hw).symm
  | cons t us => rfl

end Fresh

namespace Expr

variable {k k' : Cursor} {nested nested' : Reader} {n budget budget' : Nat} {e : Expr} {ts : List Token}

/-- Two readers of expressions read fewer than so many tokens in the same way. -/
def SameExprs (k k' : Cursor) (n : Nat) (nested nested' : Reader) : Prop :=
  ∀ ts, ts.length < n → Same k k' (nested (k.before ts)) (nested' (k'.before ts))

/-- Arguments are read in the same way, if expressions with fewer tokens are. -/
lemma parseArgs_same (hn : SameExprs k k' n nested nested') (hr : Consumes nested) {first : Bool}
    (hts : ts.length < n) (hb : (k'.before ts).left < budget') :
    Same k k' (parseArgs nested budget first (k.before ts)) (parseArgs nested' budget' first (k'.before ts)) := by
  induction budget generalizing budget' first ts with
  | zero => exact same_error
  | succ budget ih =>
    obtain ⟨budget', rfl⟩ := Nat.exists_eq_add_one_of_ne_zero (Nat.ne_zero_of_lt hb)
    cases ts with
    | nil => exact .of_onward (parseArgs_onward hr _ _)
    | cons t ts =>
      rw [parseArgs_succ, parseArgs_succ]
      refine .ite (same_ok _ ts) ?_
      refine same_comma (fun c => .weaken <| (hr c).bind fun _ _ => .weaken <|
        (parseArgs_onward hr _ _).bind fun _ _ => onward_here _) fun us hus => ?_
      refine (hn us (Nat.lt_of_le_of_lt hus hts)).bind (fun _ _ => .weaken <|
        (parseArgs_onward hr _ _).bind fun _ _ => onward_here _) fun arg vs harg => ?_
      have hlt := (hr _).length_le harg
      rw [left_before] at hb
      refine (ih (by omega) (by rw [left_before]; omega)).bind (fun _ _ => onward_here _) fun args ws _ => ?_
      exact same_ok _ ws

/-- A primary expression is read in the same way, if expressions with fewer tokens are. -/
lemma parsePrimary_same (hn : SameExprs k k' n nested nested') (hr : Consumes nested) (hts : ts.length ≤ n) :
    Same k k' (parsePrimary nested (k.before ts)) (parsePrimary nested' (k'.before ts)) := by
  cases ts with
  | nil => exact .of_onward (parsePrimary_onward hr _)
  | cons t ts =>
    simp only [parsePrimary, peek_before, advance_before]
    cases t.kind with
    | ident => exact same_ok _ ts
    | int =>
      cases Numeral.readInt? t.text with
      | some n => exact same_ok _ ts
      | none => exact same_error
    | keyword => exact .ite (same_ok _ ts) same_error
    | punct =>
      refine .ite ?_ same_error
      refine (hn ts hts).bind (fun e c => .weaken <| onward_punct fun _ => onward_here e) fun e us _ => ?_
      exact same_punct (fun _ => onward_here e) fun vs _ => same_ok e vs
    | endOfInput => exact same_error
    | other code => exact same_error

variable (hk : k.Fresh) (hk' : k'.Fresh)

include hk hk'

/-- The arguments of a call, or none, are read in the same way before something fresh. -/
lemma parseCall_same (hn : SameExprs k k' n nested nested') (hr : Consumes nested) (hts : ts.length ≤ n) :
    Same k k' (parseCall nested e (k.before ts)) (parseCall nested' e (k'.before ts)) := by
  cases e with
  | name id pos =>
    refine .ite_iff (by rw [atPunct_same hk hk']) (fun hcall => ?_) (same_ok _ ts)
    obtain ⟨t, us, rfl⟩ := cons_of_atPunct hk hcall.1
    refine (parseArgs_same hn hr hts ?_).bind (fun _ _ => onward_here _) fun args vs _ => same_ok _ vs
    simp only [left_before, List.length_cons]
    omega
  | _ => exact same_ok _ ts

/-- Fields, or none, are read in the same way before something fresh. -/
lemma parseFields_same (hb : (k.before ts).left < budget) (hb' : (k'.before ts).left < budget') :
    Same k k' (parseFields budget e (k.before ts)) (parseFields budget' e (k'.before ts)) := by
  induction budget generalizing budget' e ts with
  | zero => cases hb
  | succ budget ih =>
    obtain ⟨budget', rfl⟩ := Nat.exists_eq_add_one_of_ne_zero (Nat.ne_zero_of_lt hb')
    refine .ite_iff (by rw [atPunct_same hk hk']) (fun hcolon => ?_) (same_ok e ts)
    obtain ⟨t, us, rfl⟩ := cons_of_atPunct hk hcolon
    refine (ident_same _ us).bind (fun _ _ => parseFields_onward _) fun key vs hkey => ?_
    have hlt := (ident_onward _).length_le hkey
    simp only [left_before, List.length_cons] at hb hb'
    exact ih (by rw [left_before]; omega) (by rw [left_before]; omega)

/-- An operand is read in the same way before something fresh. -/
lemma parseOperand_same (hn : SameExprs k k' n nested nested') (hr : Consumes nested) (hts : ts.length ≤ n) :
    Same k k' (parseOperand nested (k.before ts)) (parseOperand nested' (k'.before ts)) := by
  refine (parsePrimary_same hn hr hts).bind (fun _ _ => (parseCall_onward hr).bind fun _ _ => parseFields_onward _)
    fun e us he => ?_
  have hle := (parsePrimary_onward hr _).length_le he
  refine (parseCall_same hk hk' hn hr (by omega)).bind (fun _ _ => parseFields_onward _) fun e vs _ => ?_
  exact parseFields_same hk hk' (Nat.lt_succ_self _) (Nat.lt_succ_self _)

/-- The second operand of a comparison starts after `not`, if that is there. -/
lemma secondOperand_same (hn : SameExprs k k' n nested nested') (hr : Consumes nested) (hts : ts.length ≤ n) :
    Same k k' (parseOperand nested (if (k.before ts).atKeyword "not" then (k.before ts).advance else k.before ts))
      (parseOperand nested' (if (k'.before ts).atKeyword "not" then (k'.before ts).advance else k'.before ts)) := by
  rw [← atKeyword_same hk hk' ts (by decide)]
  split
  · next hnot =>
    obtain ⟨t, us, rfl⟩ := cons_of_atKeyword hk (by decide) hnot
    exact parseOperand_same hk hk' hn hr (Nat.le_of_succ_le hts)
  · exact parseOperand_same hk hk' hn hr hts

/-- A comparison is read in the same way before something fresh. -/
lemma parseComparison_same (hn : SameExprs k k' n nested nested') (hr : Consumes nested) (hts : ts.length ≤ n) :
    Same k k' (parseComparison nested (k.before ts)) (parseComparison nested' (k'.before ts)) := by
  refine (parseOperand_same hk hk' hn hr hts).bind ?_ fun left us hleft => ?_
  · intro left c
    refine .ite (fun _ => .of_advance ?_) fun _ => onward_here _
    exact .weaken <| (secondOperand_onward hr).bind fun _ _ => onward_here _
  have hle := (parseOperand_onward hr _).length_le hleft
  refine .ite_iff (by rw [atKeyword_same hk hk' us (by decide)]) (fun his => ?_) (same_ok left us)
  obtain ⟨t, us, rfl⟩ := cons_of_atKeyword hk (by decide) his
  rw [List.length_cons] at hle
  refine (secondOperand_same hk hk' hn hr (by omega)).bind (fun _ _ => onward_here _) fun right vs _ => ?_
  have hnot : (k.before us).atKeyword "not" = (k'.before us).atKeyword "not" := atKeyword_same hk hk' us (by decide)
  simp only [advance_before, hnot]
  exact same_ok _ vs

/-- A negation is read in the same way before something fresh. -/
lemma parseNegation_same (hn : SameExprs k k' n nested nested') (hr : Consumes nested) (hts : ts.length ≤ n)
    (hb : (k'.before ts).left < budget') :
    Same k k' (parseNegation nested budget (k.before ts)) (parseNegation nested' budget' (k'.before ts)) := by
  induction budget generalizing budget' ts with
  | zero => exact same_error
  | succ budget ih =>
    obtain ⟨budget', rfl⟩ := Nat.exists_eq_add_one_of_ne_zero (Nat.ne_zero_of_lt hb)
    refine .ite_iff (by rw [atKeyword_same hk hk' ts (by decide)]) (fun hnot => ?_)
      (parseComparison_same hk hk' hn hr hts)
    obtain ⟨t, us, rfl⟩ := cons_of_atKeyword hk (by decide) hnot
    rw [left_before, List.length_cons] at hb
    refine (ih (Nat.le_of_succ_le hts) ?_).bind (fun _ _ => onward_here _) fun e vs _ => same_ok _ vs
    rw [left_before]
    omega

/-- A chain of parts is read in the same way before something fresh, if its parts are. -/
lemma parseChain_same (op : Junction) {part part' : Reader} (hp : SameExprs k k' n part part') (hr : Consumes part)
    (hts : ts.length ≤ n) (hb : (k.before ts).left < budget) (hb' : (k'.before ts).left < budget') :
    Same k k' (parseChain op part budget e (k.before ts)) (parseChain op part' budget' e (k'.before ts)) := by
  induction budget generalizing budget' e ts with
  | zero => cases hb
  | succ budget ih =>
    obtain ⟨budget', rfl⟩ := Nat.exists_eq_add_one_of_ne_zero (Nat.ne_zero_of_lt hb')
    refine .ite_iff (by rw [atPunct_same hk hk']) (fun hsign => ?_) (same_ok e ts)
    obtain ⟨t, us, rfl⟩ := cons_of_atPunct hk hsign
    refine (hp us hts).bind (fun _ _ => parseChain_onward op hr _) fun right vs hright => ?_
    have hlt := (hr _).length_le hright
    simp only [left_before, List.length_cons] at hb hb' hts
    exact ih (by omega) (by rw [left_before]; omega) (by rw [left_before]; omega)

/-- A conjunct is read in the same way before something fresh. -/
lemma parseConjunct_same (hn : SameExprs k k' n nested nested') (hr : Consumes nested) (hts : ts.length ≤ n) :
    Same k k' (parseConjunct nested (k.before ts)) (parseConjunct nested' (k'.before ts)) :=
  parseNegation_same hk hk' hn hr hts (Nat.lt_succ_self _)

/-- A conjunction is read in the same way before something fresh. -/
lemma parseConjunction_same (hn : SameExprs k k' n nested nested') (hr : Consumes nested) (hts : ts.length ≤ n) :
    Same k k' (parseConjunction nested (k.before ts)) (parseConjunction nested' (k'.before ts)) := by
  have hpart : SameExprs k k' n (parseConjunct nested) (parseConjunct nested') := fun us hus =>
    parseConjunct_same hk hk' hn hr (Nat.le_of_lt hus)
  have hon := parseConjunct_onward hr
  refine (parseConjunct_same hk hk' hn hr hts).bind (fun _ _ => parseChain_onward .and hon _) fun left us hleft => ?_
  have hle := (hon _).length_le hleft
  exact parseChain_same hk hk' .and hpart hon (by omega) (Nat.lt_succ_self _) (Nat.lt_succ_self _)

/-- A disjunction is read in the same way before something fresh. -/
lemma parseDisjunction_same (hn : SameExprs k k' n nested nested') (hr : Consumes nested) (hts : ts.length ≤ n) :
    Same k k' (parseDisjunction nested (k.before ts)) (parseDisjunction nested' (k'.before ts)) := by
  have hpart : SameExprs k k' n (parseConjunction nested) (parseConjunction nested') := fun us hus =>
    parseConjunction_same hk hk' hn hr (Nat.le_of_lt hus)
  have hon := parseConjunction_onward hr
  refine (parseConjunction_same hk hk' hn hr hts).bind (fun _ _ => parseChain_onward .or hon _) fun left us hleft => ?_
  have hle := (hon _).length_le hleft
  exact parseChain_same hk hk' .or hpart hon (by omega) (Nat.lt_succ_self _) (Nat.lt_succ_self _)

/-- An expression is read in the same way before something fresh, by induction on its tokens. -/
lemma parseWithin_same (hb : (k'.before ts).left < budget') :
    Same k k' (parseWithin budget (k.before ts)) (parseWithin budget' (k'.before ts)) := by
  induction budget generalizing budget' ts with
  | zero => exact same_error
  | succ budget ih =>
    obtain ⟨budget', rfl⟩ := Nat.exists_eq_add_one_of_ne_zero (Nat.ne_zero_of_lt hb)
    have hnested : SameExprs k k' ts.length (parseWithin budget) (parseWithin budget') := by
      intro us hus
      apply ih
      rw [left_before] at hb ⊢
      omega
    exact parseDisjunction_same hk hk' hnested (parseWithin_onward budget) (Nat.le_refl _)

/-- An expression is read in the same way before something fresh. -/
lemma parse_same (ts : List Token) : Same k k' (Expr.parse (k.before ts)) (Expr.parse (k'.before ts)) :=
  parseWithin_same hk hk' (Nat.lt_succ_self _)

/-- A single operand is read in the same way before something fresh. -/
lemma parseSingle_same (ts : List Token) : Same k k' (parseSingle (k.before ts)) (parseSingle (k'.before ts)) :=
  parseOperand_same hk hk' (fun us _ => parse_same hk hk' us) parse_onward (Nat.le_refl ts.length)

end Expr

namespace Stmt

variable {k k' : Cursor} {ts : List Token} {budget budget' n : Nat} {block block' : BlockReader}

/-- Two readers of blocks read fewer than so many tokens in the same way. -/
def SameBlocks (k k' : Cursor) (n : Nat) (block block' : BlockReader) : Prop :=
  ∀ ts, ts.length < n → Same k k' (block (k.before ts)) (block' (k'.before ts))

/-- No item starts with the word for all cards. -/
lemma atAll_of_fresh (hk : k.Fresh) : atAll k = false := by
  unfold atAll
  rcases hk.kind with hkind | hkind <;> simp [hkind]

variable (hk : k.Fresh) (hk' : k'.Fresh)

include hk hk'

/-- A condition is read in the same way before something fresh. -/
lemma parseCondition_same (ts : List Token) :
    Same k k' (parseCondition (k.before ts)) (parseCondition (k'.before ts)) := by
  refine same_punct (fun c => .weaken <| (Expr.parse_onward c).bind fun e _ => .weaken <|
    onward_punct fun _ => onward_here e) fun us _ => ?_
  refine (Expr.parse_same hk hk' us).bind (fun e _ => .weaken <| onward_punct fun _ => onward_here e) fun e vs _ => ?_
  exact same_punct (fun _ => onward_here e) fun ws _ => same_ok e ws

/-- A value to be returned is read in the same way before something fresh. -/
lemma parseValue_same (ts : List Token) : Same k k' (parseValue (k.before ts)) (parseValue (k'.before ts)) := by
  refine same_punct ?_ fun us _ => ?_
  · intro c
    refine .ite (fun _ => .of_advance (onward_here _)) fun _ => ?_
    exact .weaken <| (Expr.parse_onward c).bind fun _ _ => .weaken <| onward_punct fun _ => onward_here _
  refine .ite_iff (by rw [atPunct_same hk hk']) (fun hclose => ?_) ?_
  · obtain ⟨t, us, rfl⟩ := cons_of_atPunct hk hclose
    exact same_ok none us
  refine (Expr.parse_same hk hk' us).bind (fun _ _ => .weaken <| onward_punct fun _ => onward_here _) fun e vs _ => ?_
  exact same_punct (fun _ => onward_here _) fun ws _ => same_ok _ ws

/-- Whether the word for all cards is next does not depend on what follows afresh. -/
lemma atAll_same (ts : List Token) : atAll (k.before ts) = atAll (k'.before ts) := by
  cases ts with
  | nil => exact (atAll_of_fresh hk).trans (atAll_of_fresh hk').symm
  | cons t ts =>
    show (_ && _ && !(k.before ts).atPunct "(") = (_ && _ && !(k'.before ts).atPunct "(")
    rw [atPunct_same hk hk' ts]
    rfl

/-- Whether the next token is of a kind that starts no item does not depend on what follows afresh. -/
lemma kind_same (ts : List Token) {kind : TokenKind} (hne : kind ≠ .endOfInput) (hne' : kind ≠ .keyword) :
    (k.before ts).peek.kind = kind ↔ (k'.before ts).peek.kind = kind := by
  have hno : ∀ c : Cursor, c.Fresh → c.peek.kind ≠ kind := by
    intro c hc
    rcases hc.kind with hkind | hkind
    · exact hkind ▸ hne.symm
    · exact hkind ▸ hne'.symm
  cases ts with
  | nil => exact iff_of_false (hno k hk) (hno k' hk')
  | cons t ts => exact .rfl

/-- An amount, or none, is read in the same way before something fresh. -/
lemma parseAmount_same (ts : List Token) : Same k k' (parseAmount (k.before ts)) (parseAmount (k'.before ts)) := by
  refine .ite_iff (by rw [atAll_same hk hk']) (fun hall => ?_) ?_
  · cases ts with
    | nil => exact absurd hall (Bool.eq_false_iff.mp (atAll_of_fresh hk))
    | cons t ts => exact same_ok _ ts
  refine .ite_iff (kind_same hk hk' ts nofun nofun) (fun _ => ?_) ?_
  · exact (int_same _ ts).bind (fun _ _ => onward_here _) fun _ us _ => same_ok _ us
  refine .ite_iff (by rw [atPunct_same hk hk']) (fun hminus => ?_) (same_ok _ ts)
  obtain ⟨t, us, rfl⟩ := cons_of_atPunct hk hminus
  exact (Expr.parse_same hk hk' us).bind (fun _ _ => onward_here _) fun e vs _ => same_ok _ vs

/-- What follows the source of a transfer is read in the same way before something fresh. -/
lemma parseTransfer_same {source : Expr} {pos : Pos} (t : Token) (ts : List Token) :
    Same k k' (parseTransfer source pos (k.before (t :: ts))) (parseTransfer source pos (k'.before (t :: ts))) := by
  refine .ite same_error ?_
  refine (Expr.parseSingle_same hk hk' ts).bind ?_ fun target us _ => ?_
  · intro target c
    refine .ite (fun _ => onward_error) fun _ => ?_
    exact parseAmount_onward.bind fun _ _ => onward_here _
  refine .ite same_error ?_
  exact (parseAmount_same hk hk' us).bind (fun _ _ => onward_here _) fun amount vs _ => same_ok _ vs

/-- A statement that starts with an expression is read in the same way before something fresh. -/
lemma parseAction_same (ts : List Token) : Same k k' (parseAction (k.before ts)) (parseAction (k'.before ts)) := by
  cases ts with
  | nil => exact .of_onward parseAction_onward
  | cons t ts =>
    refine (Expr.parse_same hk hk' (t :: ts)).bind ?_ fun e us _ => ?_
    · intro e c
      refine .ite (fun _ => parseTransfer_onward) fun _ => ?_
      cases e with
      | call fn args pos => exact onward_here _
      | _ => exact onward_error
    refine .ite_iff (by rw [atPunct_same hk hk']) (fun hmoves => ?_) ?_
    · obtain ⟨t', vs, rfl⟩ := cons_of_atPunct hk hmoves
      exact parseTransfer_same hk hk' t' vs
    cases e with
    | call fn args pos => exact same_ok _ us
    | _ => exact same_error

/-- A statement is read in the same way before something fresh, if blocks with fewer tokens are. -/
lemma parse_same (hs : SameBlocks k k' n block block') (hr : ConsumesBlocks block) (hts : ts.length ≤ n) :
    Same k k' (Stmt.parse block (k.before ts)) (Stmt.parse block' (k'.before ts)) := by
  cases ts with
  | nil => exact .of_onward (parse_onward hr)
  | cons t ts =>
    refine .ite ?_ <| .ite ?_ <| .ite ?_ (parseAction_same hk hk' (t :: ts))
    · refine (parseCondition_same hk hk' ts).bind (fun _ c => .weaken <| (hr c).bind fun _ _ => onward_here _)
        fun e us he => ?_
      have hlt := parseCondition_onward.length_le he
      rw [List.length_cons] at hts
      exact (hs us (by omega)).bind (fun _ _ => onward_here _) fun body vs _ => same_ok _ vs
    · exact (parseCondition_same hk hk' ts).bind (fun _ _ => onward_here _) fun e us _ => same_ok _ us
    · exact (parseValue_same hk hk' ts).bind (fun _ _ => onward_here _) fun value us _ => same_ok _ us

/-- The statements up to a brace are read in the same way before something fresh, if blocks with fewer tokens are. -/
lemma parseUntilBrace_same (hs : SameBlocks k k' n block block') (hr : ConsumesBlocks block) (hts : ts.length ≤ n)
    (hb : (k'.before ts).left < budget') :
    Same k k' (parseUntilBrace block budget (k.before ts)) (parseUntilBrace block' budget' (k'.before ts)) := by
  induction budget generalizing budget' ts with
  | zero => exact same_error
  | succ budget ih =>
    obtain ⟨budget', rfl⟩ := Nat.exists_eq_add_one_of_ne_zero (Nat.ne_zero_of_lt hb)
    cases ts with
    | nil => exact .of_onward (parseUntilBrace_onward hr _)
    | cons t ts =>
      refine .ite (same_ok [] ts) <| .ite same_error ?_
      refine (parse_same hk hk' hs hr hts).bind (fun _ _ => .weaken <| (parseUntilBrace_onward hr _).bind
        fun _ _ => onward_here _) fun s us hs => ?_
      have hlt := (parse_onward hr).length_le hs
      rw [left_before] at hb
      refine (ih (by omega) (by rw [left_before]; omega)).bind (fun _ _ => onward_here _) fun ss vs _ => ?_
      exact same_ok _ vs

/-- A block is read in the same way before something fresh, by induction on its tokens. -/
lemma parseBlockWithin_same (hb : (k'.before ts).left < budget') :
    Same k k' (parseBlockWithin budget (k.before ts)) (parseBlockWithin budget' (k'.before ts)) := by
  induction budget generalizing budget' ts with
  | zero => exact same_error
  | succ budget ih =>
    obtain ⟨budget', rfl⟩ := Nat.exists_eq_add_one_of_ne_zero (Nat.ne_zero_of_lt hb)
    have hnested : SameBlocks k k' ts.length (parseBlockWithin budget) (parseBlockWithin budget') := by
      intro us hus
      apply ih
      rw [left_before] at hb ⊢
      omega
    have hr := parseBlockWithin_onward budget
    refine same_punct (fun _ => .weaken <| parseUntilBrace_onward hr _) fun us hus => ?_
    exact parseUntilBrace_same hk hk' hnested hr (Nat.le_of_lt hus) (Nat.lt_succ_self _)

/-- A block is read in the same way before something fresh. -/
lemma parseBlock_same (ts : List Token) : Same k k' (parseBlock (k.before ts)) (parseBlock (k'.before ts)) :=
  parseBlockWithin_same hk hk' (Nat.lt_succ_self _)

end Stmt

namespace Draft

variable {k k' : Cursor} {budget budget' : Nat}

/-- The declaration of a name is read in the same way. -/
lemma parseName_same (t : Token) (ts : List Token) :
    Same k k' (parseName {} (k.before (t :: ts))) (parseName {} (k'.before (t :: ts))) := by
  cases ts with
  | nil =>
    refine .of_onward (.ite (fun hk => ?_) fun _ => onward_error)
    rcases hk with hk | hk <;> exact onward_token hk nofun _
  | cons word ts => exact .ite (same_ok _ ts) same_error

/-- A positive number is read in the same way. -/
lemma parsePositive_same (what least : String) (ts : List Token) :
    Same k k' (parsePositive what least (k.before ts)) (parsePositive what least (k'.before ts)) :=
  (int_same what ts).bind (fun _ _ => .ite (fun _ => onward_error) fun _ => onward_here _)
    fun n us _ => .ite same_error (same_ok n us)

/-- The declaration of the players is read in the same way. -/
lemma parsePlayers_same (t : Token) (ts : List Token) :
    Same k k' (parsePlayers {} (k.before (t :: ts))) (parsePlayers {} (k'.before (t :: ts))) :=
  (parsePositive_same _ _ ts).bind (fun _ _ => onward_here _) fun _ us _ => same_ok _ us

/-- The declaration of the first player is read in the same way. -/
lemma parseFirstPlayer_same (t : Token) (ts : List Token) :
    Same k k' (parseFirstPlayer {} (k.before (t :: ts))) (parseFirstPlayer {} (k'.before (t :: ts))) :=
  (parsePositive_same _ _ ts).bind (fun _ _ => onward_here _) fun _ us _ => same_ok _ us

/-- The parameters of a function are read in the same way. -/
lemma parseParams_same {earlier : List String} {ts : List Token} (hb : (k'.before ts).left < budget') :
    Same k k' (parseParams budget earlier (k.before ts)) (parseParams budget' earlier (k'.before ts)) := by
  induction budget generalizing budget' earlier ts with
  | zero => exact same_error
  | succ budget ih =>
    obtain ⟨budget', rfl⟩ := Nat.exists_eq_add_one_of_ne_zero (Nat.ne_zero_of_lt hb)
    cases ts with
    | nil => exact .of_onward (parseParams_onward _ _)
    | cons t ts =>
      have hon : ∀ (param : Token) (c : Cursor), Onward 0 c (if earlier.contains param.text then
          .error { pos := param.pos, expected := "a distinct parameter name", found := param.describe }
          else parseParams budget (earlier ++ [param.text]) c) :=
        fun _ _ => .ite (fun _ => onward_error) fun _ => (parseParams_onward _ _).weaken
      rw [parseParams_succ, parseParams_succ]
      refine .ite (same_ok _ ts) ?_
      refine same_comma (fun _ => .weaken <| (ident_onward _).bind hon) fun us hus => ?_
      refine (ident_same _ us).bind hon fun param vs hparam => ?_
      have hlt := (ident_onward _).length_le hparam
      rw [left_before] at hb
      exact .ite same_error (ih (by rw [left_before]; omega))

variable (hk : k.Fresh) (hk' : k'.Fresh)

include hk hk'

/-- The declaration of a deck is read in the same way before something fresh. -/
lemma parseDeck_same (t : Token) (ts : List Token) :
    Same k k' (parseDeck {} (k.before (t :: ts))) (parseDeck {} (k'.before (t :: ts))) :=
  (Expr.parse_same hk hk' ts).bind (fun _ _ => onward_here _) fun _ us _ => same_ok _ us

/-- The declaration of a stack is read in the same way before something fresh. -/
lemma parseStack_same (t : Token) (ts : List Token) :
    Same k k' (parseStack {} (k.before (t :: ts))) (parseStack {} (k'.before (t :: ts))) := by
  refine (ident_same _ ts).bind ?_ fun name us _ => ?_
  · intro name c
    refine .ite (fun _ => ?_) fun _ => .after fun _ => onward_here _
    refine .ite (fun _ => onward_error) fun _ => .of_advance ?_
    refine .weaken <| (ident_onward _).bind fun name c => ?_
    exact .after fun _ => .ite (fun _ => onward_error) fun _ => onward_here _
  refine .ite_iff (by rw [atPunct_same hk hk']) (fun hcolon => ?_) (same_ok _ us)
  obtain ⟨t', vs, rfl⟩ := cons_of_atPunct hk hcolon
  refine .ite same_error ?_
  refine (ident_same _ vs).bind (fun _ _ => .after fun _ => .ite (fun _ => onward_error) fun _ => onward_here _)
    fun name ws _ => ?_
  exact .ite same_error (same_ok _ ws)

/-- A function is read in the same way before something fresh. -/
lemma parseFunction_same (t : Token) (ts : List Token) :
    Same k k' (parseFunction {} (k.before (t :: ts))) (parseFunction {} (k'.before (t :: ts))) := by
  refine (ident_same _ ts).bind ?_ fun name us _ => ?_
  · intro name c
    refine .ite (fun _ => onward_error) fun _ => .weaken <| onward_punct fun c => ?_
    refine .weaken <| (parseParams_onward _ []).bind fun params c => ?_
    exact .weaken <| (Stmt.parseBlock_onward c).bind fun _ _ => onward_here _
  refine .ite same_error ?_
  refine same_punct ?_ fun vs _ => ?_
  · intro c
    refine .weaken <| (parseParams_onward _ []).bind fun params c => ?_
    exact .weaken <| (Stmt.parseBlock_onward c).bind fun _ _ => onward_here _
  refine (parseParams_same (Nat.lt_succ_self _)).bind
    (fun _ c => .weaken <| (Stmt.parseBlock_onward c).bind fun _ _ => onward_here _) fun params ws _ => ?_
  exact (Stmt.parseBlock_same hk hk' ws).bind (fun _ _ => onward_here _) fun body rest _ => same_ok _ rest

/-- An item that is read up to what follows, and not into it, is read in the same way before something else. -/
lemma parseItem_same (ts : List Token) :
    Same k k' (parseItem {} (k.before ts)) (parseItem {} (k'.before ts)) := by
  cases ts with
  | nil => exact .of_onward parseItem_onward
  | cons t ts =>
    refine .ite (parseName_same t ts) ?_
    refine .ite (parseDeck_same hk hk' t ts) ?_
    refine .ite (parsePlayers_same t ts) ?_
    refine .ite (parseFirstPlayer_same t ts) ?_
    refine .ite (parseStack_same hk hk' t ts) ?_
    exact .ite (parseFunction_same hk hk' t ts) same_error

end Draft

end Croupier
