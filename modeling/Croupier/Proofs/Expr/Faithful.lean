import Croupier.Proofs.Expr.Parens

/-!
# When a printed expression is read back

An expression is printed with parentheses around junctions only. So it is read back as itself if and only if no operand
of a comparison and no base of a field in it is a comparison or a negation (`readsBack_iff`). If there is none,
the printed form is derived level by level. If the printed form is derived, it is cut where it was put together, since
the parts that the grammar cuts have as many tokens that are no parentheses as the parts that were printed; and then no
pair of parentheses is left for an operand that would need one.
-/

namespace Croupier

open Token (Alike Lexeme word number sign StartsSolid solids depth startsSolid_cons isSolid_of_isPunct
  isSolid_of_isKeyword)

namespace Expr

/-- An expression itself is printed with all parentheses that it needs. -/
def keepsParens : Expr → Bool
  | field base _ _ => !base.isLoose
  | compare left right _ _ => !left.isLoose && !right.isLoose
  | _ => true

/-- No operand of a comparison and no base of a field in the expression is a comparison or a negation. -/
def Faithful (e : Expr) : Prop := ∀ part ∈ e.parts, part.keepsParens = true

instance (e : Expr) : Decidable e.Faithful := inferInstanceAs (Decidable (∀ part ∈ e.parts, part.keepsParens = true))

mutual

/-- The printed tokens do not depend on positions. -/
lemma tokens_bare : ∀ e : Expr, e.bare.tokens = e.tokens
  | .name _ _ => rfl
  | .int _ _ => rfl
  | .field base _ _ => by simp only [bare, tokens, tokens_bare base]
  | .call _ args _ => by simp only [bare, tokens, argTokens_bares args]
  | .compare left right false _ => by simp only [bare, tokens, tokens_bare left, tokens_bare right]
  | .compare left right true _ => by simp only [bare, tokens, tokens_bare left, tokens_bare right]
  | .join _ left right _ => by simp only [bare, tokens, tokens_bare left, tokens_bare right]
  | .not operand _ => by simp only [bare, tokens, tokens_bare operand]

/-- The printed tokens of arguments do not depend on positions. -/
lemma argTokens_bares : ∀ es : List Expr, argTokens (bares es) = argTokens es
  | [] => rfl
  | e :: es => by simp only [bares, argTokens, tokens_bare e, furtherTokens_bares es]

/-- The printed tokens of further arguments do not depend on positions. -/
lemma furtherTokens_bares : ∀ es : List Expr, furtherTokens (bares es) = furtherTokens es
  | [] => rfl
  | e :: es => by simp only [bares, furtherTokens, tokens_bare e, furtherTokens_bares es]

end

section Derivation

/-- An operand may stand where a negation may. -/
lemma Derives.negation {ts : List Token} {e : Expr} (h : Derives ts (.operand e)) : Derives ts (.negation e) :=
  .positive (.single h)

/-- A negation may stand where any expression may. -/
lemma Derives.disjunction {ts : List Token} {e : Expr} (h : Derives ts (.negation e)) : Derives ts (.disjunction e) :=
  .disjunct (.conjunct h)

/-- What can be a name is not reserved. -/
lemma isKeyword_of_lexeme {s : String} (h : Lexeme .ident s.toList) : isKeyword s = false := by
  generalize hcs : s.toList = cs at h
  cases h with
  | ident _ _ hk =>
    rw [← hcs, String.ofList_toList] at hk
    exact hk

/-- The token of a name is not a keyword. -/
lemma kind_word {s : String} (h : Lexeme .ident s.toList) : (word s).kind = .ident := by
  unfold word
  rw [isKeyword_of_lexeme h]
  rfl

/-- A name is derived from its own token. -/
lemma derives_name {id : String} {pos : Pos} (h : (name id pos).Spelled) :
    Derives [word id] (.primary (.name id .nowhere)) := by
  rcases h with hw | hr
  · exact .ident (kind_word hw)
  · have hk : (word id).kind = .keyword := by
      unfold word
      rw [isKeyword_of_reserved hr]
      rfl
    exact .reserved hk hr

/-- A junction is derived with the parentheses that are printed around it. -/
lemma derives_junction (op : Junction) {ts us : List Token} {left right : Expr} (hl : Derives ts (.negation left))
    (hr : Derives us (.negation right)) :
    Derives (sign "(" :: (ts ++ sign op.sign :: (us ++ [sign ")"]))) (.operand (.join op left right .nowhere)) := by
  have hjoin : Derives (ts ++ sign op.sign :: us) (.disjunction (.join op left right .nowhere)) := by
    cases op with
    | and => exact .disjunct (.and (.conjunct hl) rfl hr)
    | or => exact .or hl.disjunction rfl (.conjunct hr)
  have hparens : Derives (sign "(" :: (ts ++ sign op.sign :: us) ++ [sign ")"])
      (.primary (.join op left right .nowhere)) :=
    .parens rfl hjoin rfl
  rw [List.cons_append, List.append_assoc] at hparens
  exact .bare (.plain hparens)

mutual

/-- What is printed faithfully is derived: as an operand, unless it is a comparison or a negation. -/
lemma derives_tokens : ∀ e : Expr, e.AllSpelled → e.Faithful →
    (e.isLoose = false → Derives e.tokens (.operand e.bare)) ∧ Derives e.tokens (.negation e.bare)
  | .name id pos, hs, _ => by
    have hid : (Expr.name id pos).Spelled := hs _ List.mem_cons_self
    have h : Derives [word id] (.operand (.name id .nowhere)) := .bare (.plain (derives_name hid))
    exact ⟨fun _ => h, h.negation⟩
  | .int value pos, hs, _ => by
    have hvalue : (Expr.int value pos).Spelled := hs _ List.mem_cons_self
    have hint : Derives [number value] (.primary (.int value .nowhere)) :=
      .int rfl (Numeral.denotes_toString value) hvalue.2
    have h : Derives [number value] (.operand (.int value .nowhere)) := .bare (.plain hint)
    exact ⟨fun _ => h, h.negation⟩
  | .field base key pos, hs, hf => by
    obtain ⟨hkey, hbase⟩ := List.forall_mem_cons.mp hs
    obtain ⟨hloose, hfaithful⟩ := List.forall_mem_cons.mp hf
    have hoperand := (derives_tokens base hbase hfaithful).1 (by simpa [keepsParens] using hloose)
    have h : Derives (base.tokens ++ [sign ":", word key]) (.operand (.field base.bare key .nowhere)) :=
      .field hoperand rfl (kind_word hkey)
    rw [tokens, bare]
    exact ⟨fun _ => h, h.negation⟩
  | .call fn args pos, hs, hf => by
    obtain ⟨hfn, hargs⟩ := List.forall_mem_cons.mp hs
    have hword : (Expr.name fn pos).Spelled := .inl hfn
    have hparts := derives_argTokens args hargs (List.forall_mem_cons.mp hf).2
    have h : Derives (word fn :: sign "(" :: (argTokens args ++ [sign ")"]))
        (.operand (.call fn (bares args) .nowhere)) :=
      .bare (.call (derives_name hword) (isKeyword_of_lexeme hfn) rfl hparts rfl)
    rw [tokens, bare]
    exact ⟨fun _ => h, h.negation⟩
  | .compare left right negate pos, hs, hf => by
    obtain ⟨hl, hr⟩ := List.forall_mem_append.mp (List.forall_mem_cons.mp hs).2
    obtain ⟨hloose, hfaithful⟩ := List.forall_mem_cons.mp hf
    obtain ⟨hfl, hfr⟩ := List.forall_mem_append.mp hfaithful
    simp only [keepsParens, Bool.and_eq_true, Bool.not_eq_true'] at hloose
    have hleft := (derives_tokens left hl hfl).1 hloose.1
    have hright := (derives_tokens right hr hfr).1 hloose.2
    -- a comparison is no operand without parentheses, and none are printed
    refine ⟨fun h => Bool.noConfusion h, .positive ?_⟩
    cases negate with
    | false =>
      rw [tokens, bare]
      exact .same hleft rfl hright
    | true =>
      rw [tokens, bare]
      exact .differ hleft rfl rfl hright
  | .join op left right pos, hs, hf => by
    obtain ⟨hl, hr⟩ := List.forall_mem_append.mp (List.forall_mem_cons.mp hs).2
    obtain ⟨hfl, hfr⟩ := List.forall_mem_append.mp (List.forall_mem_cons.mp hf).2
    have h := derives_junction op (derives_tokens left hl hfl).2 (derives_tokens right hr hfr).2
    rw [tokens, bare]
    exact ⟨fun _ => h, h.negation⟩
  | .not operand pos, hs, hf => by
    have h := (derives_tokens operand (List.forall_mem_cons.mp hs).2 (List.forall_mem_cons.mp hf).2).2
    rw [tokens, bare]
    exact ⟨fun h => Bool.noConfusion h, .not rfl h⟩

/-- Arguments that are printed faithfully are derived. -/
lemma derives_argTokens : ∀ es : List Expr, (∀ part ∈ partsAll es, part.Spelled) →
    (∀ part ∈ partsAll es, part.keepsParens = true) → Derives (argTokens es) (.arguments (bares es))
  | [], _, _ => .noArguments
  | e :: es, hs, hf => by
    obtain ⟨he, hes⟩ := List.forall_mem_append.mp hs
    obtain ⟨hfe, hfes⟩ := List.forall_mem_append.mp hf
    exact .arguments (derives_tokens e he hfe).2.disjunction (derives_furtherTokens es hes hfes)

/-- Further arguments that are printed faithfully are derived. -/
lemma derives_furtherTokens : ∀ es : List Expr, (∀ part ∈ partsAll es, part.Spelled) →
    (∀ part ∈ partsAll es, part.keepsParens = true) → Derives (furtherTokens es) (.furtherArguments (bares es))
  | [], _, _ => .lastArgument
  | e :: es, hs, hf => by
    obtain ⟨he, hes⟩ := List.forall_mem_append.mp hs
    obtain ⟨hfe, hfes⟩ := List.forall_mem_append.mp hf
    exact .furtherArgument rfl (derives_tokens e he hfe).2.disjunction (derives_furtherTokens es hes hfes)

end

end Derivation

section Cutting

variable {left right base operand e : Expr} {op : Junction} {fn key : String} {args es : List Expr} {negate : Bool}
  {pos : Pos} {pairs : Nat} {core : List Token}

/-- Tokens from which an expression is derived are like those that it is printed with. -/
lemma alike_of_derives {us : List Token} (h : Derives us (.disjunction e.bare)) : Alike us e.tokens := by
  have halike := h.alike
  rwa [Phrase.tokens, tokens_bare] at halike

/-- Tokens are cut after parentheses that open and a part with as many other tokens as the part that is cut there. -/
lemma cut_opens {front rest opens us rest' : List Token} (h : front ++ rest = opens ++ (us ++ rest'))
    (ho : ∀ t ∈ opens, t.isPunct "(" = true) (hs : solids front = solids us) (hrest : StartsSolid rest)
    (hrest' : StartsSolid rest') : front = opens ++ us ∧ rest = rest' ∧ depth front = opens.length + depth us := by
  have hopens : solids opens = 0 ∧ depth opens = opens.length := by
    clear h
    induction opens with
    | nil => exact ⟨rfl, rfl⟩
    | cons t opens ih =>
      obtain ⟨ht, ho⟩ := List.forall_mem_cons.mp ho
      obtain ⟨hsolids, hdepth⟩ := ih ho
      constructor
      · rw [Token.solids_cons, Token.isSolid_opens ht, hsolids]
        rfl
      · rw [Token.depth_cons, Token.depth_opens ht, hdepth, List.length_cons]
        omega
  rw [← List.append_assoc] at h
  have hsolids : solids front = solids (opens ++ us) := by rw [Token.solids_append, hopens.1, hs, Nat.zero_add]
  obtain ⟨rfl, rfl⟩ := Token.cut_unique h hsolids hrest hrest'
  refine ⟨rfl, rfl, ?_⟩
  rw [Token.depth_append, hopens.2]

/-- In front of the part that is cut no parenthesis is opened, if it is derived as it was printed. -/
lemma cut_part {rest opens us rest' : List Token} (h : e.tokens ++ rest = opens ++ (us ++ rest'))
    (ho : ∀ t ∈ opens, t.isPunct "(" = true) (hus : Derives us (.disjunction e.bare)) (hrest : StartsSolid rest)
    (hrest' : StartsSolid rest') : opens = [] ∧ us = e.tokens ∧ rest = rest' := by
  have halike := alike_of_derives hus
  obtain ⟨hfront, hrests, hdepth⟩ := cut_opens h ho halike.solids.symm hrest hrest'
  have hopens : opens = [] := by
    apply List.length_eq_zero_iff.mp
    have hsame := halike.depth
    omega
  rw [hopens] at hfront
  exact ⟨hopens, hfront.symm, hrests⟩

/-- No parentheses stand around tokens that are cut in them. -/
lemma cut_between {rest opens us rest' closes : List Token} (h : e.tokens ++ rest = opens ++ (us ++ rest' ++ closes))
    (ho : ∀ t ∈ opens, t.isPunct "(" = true) (hlength : closes.length = opens.length)
    (hus : Derives us (.disjunction e.bare)) (hrest : StartsSolid rest) (hrest' : StartsSolid (rest' ++ closes)) :
    opens = [] ∧ us = e.tokens ∧ rest = rest' := by
  rw [List.append_assoc] at h
  obtain ⟨rfl, hpart, hrests⟩ := cut_part h ho hus hrest hrest'
  rw [List.length_nil, List.length_eq_zero_iff] at hlength
  rw [hlength, List.append_nil] at hrests
  exact ⟨rfl, hpart, hrests⟩

/-- A field that is derived as it was printed has a base that is, as an operand. -/
lemma field_cut (h : Wrapped pairs core (field base key pos).tokens) (hm : (field base key pos).bare.Made core) :
    Derives base.tokens (.operand base.bare) := by
  obtain ⟨opens, closes, hts, _, _, ho, _⟩ := h
  rw [bare] at hm
  obtain ⟨us, t, k, rfl, ht, hus⟩ := hm
  rw [tokens, List.append_assoc] at hts
  obtain ⟨_, hfront, _⟩ := cut_part hts ho hus.negation.disjunction (startsSolid_cons rfl)
    (startsSolid_cons (isSolid_of_isPunct ht (by decide) (by decide)))
  rwa [hfront] at hus

/-- A comparison that is derived as it was printed has no parentheses around it, and its sides are derived as operands.
-/
lemma compare_cut (h : Wrapped pairs core (compare left right negate pos).tokens)
    (hm : (compare left right negate pos).bare.Made core) :
    pairs = 0 ∧ Derives left.tokens (.operand left.bare) ∧ Derives right.tokens (.operand right.bare) := by
  obtain ⟨opens, closes, hts, hopens, hcloses, ho, _⟩ := h
  rw [bare] at hm
  cases negate with
  | false =>
    obtain ⟨us, t, vs, rfl, ht, hus, hvs⟩ := hm
    rw [tokens] at hts
    obtain ⟨rfl, rfl, hrest⟩ := cut_between hts ho (hcloses.trans hopens.symm) hus.negation.disjunction
      (startsSolid_cons rfl) (startsSolid_cons (isSolid_of_isKeyword ht))
    cases hrest
    exact ⟨hopens.symm, hus, hvs⟩
  | true =>
    obtain ⟨us, t, no, vs, rfl, ht, hus, hvs⟩ := hm
    rw [tokens] at hts
    obtain ⟨rfl, rfl, hrest⟩ := cut_between hts ho (hcloses.trans hopens.symm) hus.negation.disjunction
      (startsSolid_cons rfl) (startsSolid_cons (isSolid_of_isKeyword ht))
    cases hrest
    exact ⟨hopens.symm, hus, hvs⟩

/-- Nothing that starts with a word is in parentheses. -/
lemma Wrapped.of_word {s : String} {ts : List Token} (h : Wrapped pairs core (word s :: ts)) :
    pairs = 0 ∧ core = word s :: ts := by
  obtain ⟨opens, closes, hts, rfl, hcloses, ho, _⟩ := h
  cases opens with
  | nil =>
    rw [List.length_nil, List.length_eq_zero_iff] at hcloses
    rw [hcloses, List.append_nil] at hts
    exact ⟨rfl, hts.symm⟩
  | cons t opens =>
    obtain ⟨rfl, _⟩ := List.cons.inj hts
    have hopens := Token.isSolid_opens (ho _ List.mem_cons_self)
    rw [isSolid_word] at hopens
    exact Bool.noConfusion hopens

/-- A negation that is derived as it was printed has no parentheses around it, and its operand is derived. -/
lemma not_cut (h : Wrapped pairs core (not operand pos).tokens) (hm : (not operand pos).bare.Made core) :
    pairs = 0 ∧ Derives operand.tokens (.disjunction operand.bare) := by
  rw [tokens] at h
  obtain ⟨hpairs, rfl⟩ := h.of_word
  rw [bare] at hm
  obtain ⟨t, us, hts, _, hus⟩ := hm
  obtain ⟨_, rfl⟩ := List.cons.inj hts
  exact ⟨hpairs, hus⟩

/-- A junction that is derived as it was printed has sides that are. -/
lemma join_cut (h : Wrapped pairs core (join op left right pos).tokens) (hm : (join op left right pos).bare.Made core) :
    Derives left.tokens (.disjunction left.bare) ∧ Derives right.tokens (.disjunction right.bare) := by
  obtain ⟨opens, closes, hts, hopens, hcloses, ho, _⟩ := h
  rw [bare] at hm
  obtain ⟨us, t, vs, rfl, ht, hus, hvs⟩ := hm
  have hsign : ∀ u : Token, u.isPunct op.sign = true → u.isSolid = true := by
    intro u hu
    cases op with
    | and => exact isSolid_of_isPunct hu (by decide) (by decide)
    | or => exact isSolid_of_isPunct hu (by decide) (by decide)
  have halike := alike_of_derives hus
  rw [tokens, List.append_assoc, ← List.cons_append] at hts
  obtain ⟨hfront, hrest, hdepth⟩ := cut_opens hts ho halike.solids.symm
    (startsSolid_cons (hsign _ (decide_eq_true rfl))) (startsSolid_cons (hsign t ht))
  -- one parenthesis more is opened in front of the first part than in it, so one pair stands around the junction
  have hpairs : opens.length = 1 := by
    have hsame := halike.depth
    have hopen : depth [sign "("] = 1 := Token.depth_opens rfl
    rw [Token.depth_cons] at hdepth
    omega
  obtain ⟨o, rfl⟩ := List.length_eq_one_iff.mp hpairs
  obtain ⟨_, rfl⟩ := List.cons.inj hfront
  have hclose : [sign ")"].length = closes.length := by
    rw [hcloses, ← hopens]
    rfl
  obtain ⟨rfl, _⟩ := List.append_inj' (List.cons.inj hrest).2 hclose
  exact ⟨hus, hvs⟩

/-- A call that is derived as it was printed has arguments that are. -/
lemma call_cut (h : Wrapped pairs core (call fn args pos).tokens) (hm : (call fn args pos).bare.Made core) :
    Derives (argTokens args) (.arguments (bares args)) := by
  rw [tokens] at h
  obtain ⟨_, rfl⟩ := h.of_word
  rw [bare] at hm
  obtain ⟨us, l, vs, r, hts, hname, hargs⟩ := hm
  obtain ⟨pairs', core', hw, hlength, _⟩ := hname.wraps
  have hus : us = [word fn] := by
    cases us with
    | nil =>
      obtain ⟨opens, closes, hnil, _⟩ := hw
      obtain ⟨hcore, _⟩ := List.append_eq_nil_iff.mp (List.append_eq_nil_iff.mp hnil.symm).2
      rw [hcore] at hlength
      cases hlength
    | cons u us =>
      obtain ⟨rfl, _⟩ := List.cons.inj hts
      obtain ⟨_, rfl⟩ := hw.of_word
      rw [List.length_eq_zero_iff.mp (Nat.succ.inj hlength)]
  rw [hus] at hts
  obtain ⟨hvs, _⟩ := List.append_inj' (List.cons.inj (List.cons.inj hts).2).2 rfl
  rw [hvs]
  exact hargs

/-- What is derived as an operand as it was printed is neither a comparison nor a negation. -/
lemma operand_tight (h : Derives e.tokens (.operand e.bare)) : e.isLoose = false := by
  obtain ⟨pairs, core, hw, hm, hloose⟩ := h.wraps
  cases e with
  | compare left right negate pos =>
    rw [bare] at hloose
    have hpos := hloose rfl
    rw [(compare_cut hw hm).1] at hpos
    exact absurd hpos (Nat.lt_irrefl 0)
  | not operand pos =>
    rw [bare] at hloose
    have hpos := hloose rfl
    rw [(not_cut hw hm).1] at hpos
    exact absurd hpos (Nat.lt_irrefl 0)
  | _ => rfl

/-- Further arguments are printed with a comma first. -/
lemma startsSolid_furtherTokens (es : List Expr) : StartsSolid (furtherTokens es) := by
  cases es with
  | nil => exact fun t ht => by cases ht
  | cons e es => exact startsSolid_cons rfl

/-- Further arguments are derived from tokens with a comma first. -/
lemma Derives.startsSolid {us : List Token} (h : Derives us (.furtherArguments es)) : StartsSolid us := by
  cases h with
  | lastArgument => exact fun t ht => by cases ht
  | furtherArgument ht _ _ => exact startsSolid_cons (isSolid_of_isPunct ht (by decide) (by decide))

/-- The first of some arguments is cut in front of the comma after it, or of their end. -/
lemma arguments_cut {us vs : List Token} (h : e.tokens ++ furtherTokens es = us ++ vs)
    (hus : Derives us (.disjunction e.bare)) (hvs : Derives vs (.furtherArguments (bares es))) :
    Derives e.tokens (.disjunction e.bare) ∧ Derives (furtherTokens es) (.furtherArguments (bares es)) := by
  obtain ⟨rfl, rfl⟩ := Token.cut_unique h (alike_of_derives hus).solids.symm (startsSolid_furtherTokens es)
    hvs.startsSolid
  exact ⟨hus, hvs⟩

mutual

/-- What is derived as it was printed is printed faithfully. -/
lemma faithful_of_derives : ∀ e : Expr, Derives e.tokens (.disjunction e.bare) → e.Faithful
  | .name _ _, _ => List.forall_mem_singleton.mpr rfl
  | .int _ _, _ => List.forall_mem_singleton.mpr rfl
  | .field base key pos, h => by
    obtain ⟨pairs, core, hw, hm⟩ := h.wraps
    have hbase := field_cut hw hm
    have hkeeps : (field base key pos).keepsParens = true := by rw [keepsParens, operand_tight hbase, Bool.not_false]
    exact List.forall_mem_cons.mpr ⟨hkeeps, faithful_of_derives base hbase.negation.disjunction⟩
  | .call fn args pos, h => by
    obtain ⟨pairs, core, hw, hm⟩ := h.wraps
    exact List.forall_mem_cons.mpr ⟨rfl, faithful_of_arguments args (call_cut hw hm)⟩
  | .compare left right negate pos, h => by
    obtain ⟨pairs, core, hw, hm⟩ := h.wraps
    obtain ⟨_, hleft, hright⟩ := compare_cut hw hm
    have hkeeps : (compare left right negate pos).keepsParens = true := by
      rw [keepsParens, operand_tight hleft, operand_tight hright]
      rfl
    have hl := faithful_of_derives left hleft.negation.disjunction
    have hr := faithful_of_derives right hright.negation.disjunction
    exact List.forall_mem_cons.mpr ⟨hkeeps, List.forall_mem_append.mpr ⟨hl, hr⟩⟩
  | .join op left right pos, h => by
    obtain ⟨pairs, core, hw, hm⟩ := h.wraps
    obtain ⟨hleft, hright⟩ := join_cut hw hm
    have hparts := List.forall_mem_append.mpr ⟨faithful_of_derives left hleft, faithful_of_derives right hright⟩
    exact List.forall_mem_cons.mpr ⟨rfl, hparts⟩
  | .not operand pos, h => by
    obtain ⟨pairs, core, hw, hm⟩ := h.wraps
    exact List.forall_mem_cons.mpr ⟨rfl, faithful_of_derives operand (not_cut hw hm).2⟩

/-- Arguments that are derived as they were printed are printed faithfully. -/
lemma faithful_of_arguments : ∀ es : List Expr, Derives (argTokens es) (.arguments (bares es)) →
    ∀ part ∈ partsAll es, part.keepsParens = true
  | [], _ => List.forall_mem_nil _
  | e :: es, h => by
    rw [argTokens, bares] at h
    generalize hts : e.tokens ++ furtherTokens es = ts at h
    cases h with
    | arguments hus hvs =>
      obtain ⟨he, hes⟩ := arguments_cut hts hus hvs
      exact List.forall_mem_append.mpr ⟨faithful_of_derives e he, faithful_of_further es hes⟩

/-- Further arguments that are derived as they were printed are printed faithfully. -/
lemma faithful_of_further : ∀ es : List Expr, Derives (furtherTokens es) (.furtherArguments (bares es)) →
    ∀ part ∈ partsAll es, part.keepsParens = true
  | [], _ => List.forall_mem_nil _
  | e :: es, h => by
    rw [furtherTokens, bares] at h
    generalize hts : sign "," :: (e.tokens ++ furtherTokens es) = ts at h
    cases h with
    | furtherArgument _ hus hvs =>
      obtain ⟨he, hes⟩ := arguments_cut (List.cons.inj hts).2 hus hvs
      exact List.forall_mem_append.mpr ⟨faithful_of_derives e he, faithful_of_further es hes⟩

end

end Cutting

/-- The printed form of an expression is derived if and only if it is printed faithfully. -/
lemma derives_iff_faithful {e : Expr} (h : e.AllSpelled) : Derives e.tokens (.disjunction e.bare) ↔ e.Faithful :=
  ⟨faithful_of_derives e, fun hf => (derives_tokens e h hf).2.disjunction⟩

/-- The printed form of an expression is read to its end as the expression, up to positions. -/
def ReadsBack (e : Expr) : Prop :=
  ∃ tokens e' c', Token.ofSource e.text.toList = .ok tokens ∧ parse (Cursor.ofTokens tokens) = .ok (e', c') ∧
    c'.atEnd = true ∧ e'.bare = e.bare

/-- An expression is read off its printed tokens, up to positions, if and only if they derive it. -/
lemma parse_iff_derives_tokens {e : Expr} {c : Cursor} (hc : c.bare = ⟨e.tokens, .nowhere⟩) :
    (∃ e' c', parse c = .ok (e', c') ∧ c'.atEnd = true ∧ e'.bare = e.bare) ↔
      Derives e.tokens (.disjunction e.bare) := by
  have hblind := parse_blind c
  rw [hc] at hblind
  constructor
  · rintro ⟨e', c', hparse, hend, hbare⟩
    rw [hparse] at hblind
    obtain ⟨ts, hspan, hd⟩ := parseWithin_reads _ hblind
    have hrest : e.tokens = ts ++ c'.bare.rest := hspan.rest_eq
    have hnil : c'.bare.rest = [] := by
      rw [← List.isEmpty_iff]
      exact (Cursor.atEnd_bare c').trans hend
    rw [hnil, List.append_nil] at hrest
    rw [hrest, ← hbare]
    exact hd
  · intro hd
    have hends : (Cursor.mk [] .nowhere).EndsExpr := ⟨⟨⟨⟨rfl⟩, rfl, rfl⟩, rfl⟩, rfl⟩
    have hlt : e.tokens.length < (Cursor.mk e.tokens .nowhere).left + 1 := Nat.lt_succ_self _
    have hread := parseWithin_before hd.readBefore hlt hends
    rw [Cursor.before, List.append_nil] at hread
    rw [parse, hread] at hblind
    cases hparse : parse c with
    | error err =>
      rw [hparse] at hblind
      cases hblind
    | ok result =>
      obtain ⟨e', c'⟩ := result
      rw [hparse] at hblind
      obtain ⟨hbare, hrest⟩ := Prod.mk.inj (Except.ok.inj hblind)
      refine ⟨e', c', rfl, ?_, hbare.symm⟩
      rw [← Cursor.atEnd_bare, ← hrest]
      rfl

/-- An expression whose names and numbers can be spelled is read back if and only if it is printed faithfully. -/
lemma readsBack_iff_faithful {e : Expr} (h : e.AllSpelled) : e.ReadsBack ↔ e.Faithful := by
  obtain ⟨tokens, htokens, hbare⟩ := ofSource_text h
  rw [← derives_iff_faithful h, ← parse_iff_derives_tokens hbare]
  constructor
  · rintro ⟨tokens', e', c', htokens', hread⟩
    rw [htokens] at htokens'
    cases htokens'
    exact ⟨e', c', hread⟩
  · rintro ⟨e', c', hread⟩
    exact ⟨tokens, e', c', htokens, hread⟩

/-- What holds of the parts in two lists holds of the parts in both together. -/
lemma subset_append_of_mem {part : Expr} {es es' : List Expr} (hl : part ∈ es → part.parts ⊆ es)
    (hr : part ∈ es' → part.parts ⊆ es') (h : part ∈ es ++ es') : part.parts ⊆ es ++ es' := by
  rcases List.mem_append.mp h with h | h
  · exact List.subset_append_of_subset_left _ (hl h)
  · exact List.subset_append_of_subset_right _ (hr h)

/-- An expression and what is in its list have their parts in the list. -/
lemma subset_cons_of_mem {part e : Expr} {es : List Expr} (he : e.parts = e :: es) (hes : part ∈ es → part.parts ⊆ es)
    (h : part ∈ e :: es) : part.parts ⊆ e :: es := by
  rcases List.mem_cons.mp h with rfl | h
  · rw [he]
    exact List.Subset.refl _
  · exact List.subset_cons_of_subset _ (hes h)

mutual

/-- The parts of a part of an expression are parts of the expression. -/
lemma parts_subset : ∀ (e : Expr) {part : Expr}, part ∈ e.parts → part.parts ⊆ e.parts
  | .name _ _, _, h => subset_cons_of_mem rfl (absurd · List.not_mem_nil) h
  | .int _ _, _, h => subset_cons_of_mem rfl (absurd · List.not_mem_nil) h
  | .field base _ _, _, h => subset_cons_of_mem rfl (parts_subset base) h
  | .call _ args _, _, h => subset_cons_of_mem rfl (partsAll_subset args) h
  | .compare left right _ _, _, h =>
    subset_cons_of_mem rfl (subset_append_of_mem (parts_subset left) (parts_subset right)) h
  | .join _ left right _, _, h =>
    subset_cons_of_mem rfl (subset_append_of_mem (parts_subset left) (parts_subset right)) h
  | .not operand _, _, h => subset_cons_of_mem rfl (parts_subset operand) h

/-- The parts of a part of some expressions are parts of these. -/
lemma partsAll_subset : ∀ (es : List Expr) {part : Expr}, part ∈ partsAll es → part.parts ⊆ partsAll es
  | [], _, h => absurd h List.not_mem_nil
  | e :: es, _, h => subset_append_of_mem (parts_subset e) (partsAll_subset es) h

end

end Expr

namespace Program

/-- The expressions in an expression of a program are expressions of the program. -/
lemma parts_subset_exprs {p : Program} {e : Expr} (h : e ∈ p.exprs) : e.parts ⊆ p.exprs := by
  rcases List.mem_append.mp h with h | h
  · exact List.subset_append_of_subset_left _ (Expr.parts_subset _ h)
  · obtain ⟨s, hs, h⟩ := List.mem_flatMap.mp h
    obtain ⟨root, hroot, h⟩ := List.mem_flatMap.mp h
    apply List.subset_append_of_subset_right
    intro part hpart
    exact List.mem_flatMap.mpr ⟨s, hs, List.mem_flatMap.mpr ⟨root, hroot, Expr.parts_subset root h hpart⟩⟩

/-- An expression of a program that was read is read back from its printed form, to the end and up to positions, if and
only if no operand of a comparison and no base of a field in it is a comparison or a negation. -/
theorem readsBack_iff {source : List Char} {p : Program} (hp : ofSource source = .ok p) {e : Expr} (he : e ∈ p.exprs) :
    e.ReadsBack ↔ e.Faithful := by
  apply Expr.readsBack_iff_faithful
  intro part hpart
  exact (spelled_of_source hp).2 part (parts_subset_exprs he hpart)

/-- A program with an expression that keeps its parentheses and one that loses them. -/
def hedge : String := "name hedge deck StandardDeck players 2 stack player:hand
  .(keeps them) def strict(card)\x7b return((not pick(deck, 3):hand is card:rank | card is not 7):hand) \x7d
  .(loses them) def lax(card)\x7b return((not card):hand is 1) \x7d"

/-- One expression of `hedge` is read back, and the other is printed as something else. -/
theorem hedge_readsBack : ∃ p e e', ofSource hedge.toList = .ok p ∧ e ∈ p.exprs ∧ e' ∈ p.exprs ∧
    e.text = "(not pick(deck, 3):hand is card:rank | card is not 7):hand" ∧ e.ReadsBack ∧
    e'.text = "not card:hand is 1" ∧ ¬ e'.ReadsBack := by
  have hread : (ofSource hedge.toList).toOption.any (fun p =>
      (p.exprs.any fun e => e.text = "(not pick(deck, 3):hand is card:rank | card is not 7):hand" ∧ e.Faithful) ∧
      p.exprs.any fun e => e.text = "not card:hand is 1" ∧ ¬ e.Faithful) = true := by
    rw [hedge, String.toList_ofList]
    decide +kernel
  obtain ⟨p, hp, hread⟩ := exists_of_any hread
  obtain ⟨hkept, hlost⟩ := of_decide_eq_true hread
  obtain ⟨e, he, hkept⟩ := List.any_eq_true.mp hkept
  obtain ⟨e', he', hlost⟩ := List.any_eq_true.mp hlost
  obtain ⟨htext, hfaithful⟩ := of_decide_eq_true hkept
  obtain ⟨htext', hunfaithful⟩ := of_decide_eq_true hlost
  refine ⟨p, e, e', hp, he, he', htext, (readsBack_iff hp he).mpr hfaithful, htext', ?_⟩
  rw [readsBack_iff hp he']
  exact hunfaithful

end Program

end Croupier
