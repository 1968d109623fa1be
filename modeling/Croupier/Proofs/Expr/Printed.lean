import Croupier.Proofs.Program.Bare
import Croupier.Proofs.Program.Spelling

/-!
# The tokens of a printed expression

A printed expression is laid out as its tokens (`Expr.tokens`), wherever it stands (`Spells`): whatever follows it, if
that does not make its last word longer (`spells_text`). So the source that is the printed expression and nothing else
is read as those tokens, up to positions (`ofSource_text`).
-/

namespace Croupier

open Token (Lexes Lexeme Maximal Gap isWordStart isWordChar isSign)

/-- A text is laid out as some tokens, up to positions, wherever it starts. -/
def Spells (cs : List Char) (ts : List Token) : Prop :=
  ∀ pos, ∃ tokens, Lexes pos cs tokens ∧ tokens.map Token.bare = ts

/-- A text does not make a word or a number that stands before it longer. -/
def Apart (cs : List Char) : Prop := ∀ c ∈ cs.head?, isWordChar c = false

/-- A word, reserved or not. -/
def IsName (s : String) : Prop := ∃ c cs, s.toList = c :: cs ∧ isWordStart c = true ∧ ∀ x ∈ cs, isWordChar x = true

namespace Token

/-- The token of a word. -/
def word (s : String) : Token := ⟨if Croupier.isKeyword s then .keyword else .ident, s, .nowhere⟩

/-- The token of a number. -/
def number (n : Int) : Token := ⟨.int, toString n, .nowhere⟩

/-- The token of a sign. -/
def sign (s : String) : Token := ⟨.punct, s, .nowhere⟩

end Token

open Token (word number sign)

/-- A text that starts with a character that no word has stands apart. -/
lemma apart_cons {c : Char} (hc : isWordChar c = false) (cs : List Char) : Apart (c :: cs) := by
  intro d hd
  cases hd
  exact hc

/-- The word `is` is a word. -/
lemma isName_is : IsName "is" := ⟨_, _, rfl, by decide, List.all_eq_true.mp (by decide)⟩

/-- The word `not` is a word. -/
lemma isName_not : IsName "not" := ⟨_, _, rfl, by decide, List.all_eq_true.mp (by decide)⟩

/-- What can be a name is a word. -/
lemma isName_of_lexeme {s : String} (h : Lexeme .ident s.toList) : IsName s := by
  generalize hcs : s.toList = cs at h
  cases h with
  | ident hfirst hrest _ => exact ⟨_, _, hcs, hfirst, hrest⟩

/-- What is reserved and yet names something is a word. -/
lemma isName_of_reserved {s : String} (h : s ∈ Expr.reservedNames) : IsName s := by
  simp only [Expr.reservedNames, List.mem_cons, List.not_mem_nil, or_false] at h
  rcases h with rfl | rfl | rfl
  all_goals exact ⟨_, _, rfl, by decide, List.all_eq_true.mp (by decide)⟩

/-- No lexeme is an end of input. -/
lemma kind_ne_endOfInput {kind : TokenKind} {cs : List Char} (h : Lexeme kind cs) : kind ≠ .endOfInput := by
  rintro rfl
  cases h

/-- A word is a lexeme, of names or of keywords. -/
lemma lexeme_word {s : String} (h : IsName s) : Lexeme (word s).kind s.toList := by
  obtain ⟨c, cs, hs, hfirst, hrest⟩ := h
  have hof : String.ofList (c :: cs) = s := by rw [← hs, String.ofList_toList]
  unfold word
  rw [hs]
  cases hk : isKeyword s with
  | true => exact .keyword hfirst hrest (by rw [hof, hk])
  | false => exact .ident hfirst hrest (by rw [hof, hk])

namespace Spells

variable {cs : List Char} {ts : List Token}

/-- Nothing is laid out as the end of input alone. -/
lemma nil : Spells [] [Token.endAt .nowhere] := fun _ => ⟨_, .stop .nil, rfl⟩

/-- A blank in front of a text does not count. -/
lemma space (h : Spells cs ts) : Spells (' ' :: cs) ts := by
  intro pos
  obtain ⟨tokens, hl, hts⟩ := h (pos.after ' ')
  have hgap : Gap [' '] := .space rfl .nil
  exact ⟨tokens, hl.gap hgap, hts⟩

/-- A lexeme in front of a text is one token more, if the text does not make it longer. -/
lemma token {kind : TokenKind} {w : List Char} (hw : Lexeme kind w) (hm : Maximal kind cs) (h : Spells cs ts) :
    Spells (w ++ cs) (⟨kind, String.ofList w, .nowhere⟩ :: ts) := by
  intro pos
  obtain ⟨tokens, hl, rfl⟩ := h (pos.afterAll w)
  exact ⟨_, .token .nil hw hm hl, rfl⟩

/-- A sign in front of a text is one token more. -/
lemma sign {c : Char} (hc : isSign c = true) (h : Spells cs ts) :
    Spells (c :: cs) (sign (String.ofList [c]) :: ts) :=
  h.token (.punct hc) fun _ _ => rfl

/-- A word in front of a text that stands apart is one token more. -/
lemma word {s : String} (hs : IsName s) (hcs : Apart cs) (h : Spells cs ts) :
    Spells (s.toList ++ cs) (word s :: ts) := by
  have hm : Maximal (Token.word s).kind cs := by
    intro c hc
    unfold Token.word
    cases isKeyword s with
    | true => exact hcs c hc
    | false => exact hcs c hc
  have hspell := h.token (lexeme_word hs) hm
  rwa [String.ofList_toList] at hspell

/-- A number that is not negative, in front of a text that stands apart, is one token more. -/
lemma number {n : Int} (hn : 0 ≤ n) (hcs : Apart cs) (h : Spells cs ts) :
    Spells ((toString n).toList ++ cs) (number n :: ts) := by
  have hdigits : Numeral.IsDigits (toString n).toList := by
    rw [Int.toString_eq_repr, Int.repr_eq_if, if_pos hn]
    exact Numeral.isDigits_repr _
  have hm : Maximal .int cs := by
    intro c hc
    have hword := hcs c hc
    unfold isWordChar Char.isAlphanum at hword
    exact (Bool.or_eq_false_iff.mp (Bool.or_eq_false_iff.mp hword).1).2
  have hspell := h.token (.int hdigits) hm
  rwa [String.ofList_toList] at hspell

end Spells

namespace Expr

mutual

/-- The tokens of a printed expression. -/
def tokens : Expr → List Token
  | name id _ => [word id]
  | int value _ => [number value]
  | field base key _ => tokens base ++ [sign ":", word key]
  | call fn args _ => word fn :: sign "(" :: (argTokens args ++ [sign ")"])
  | compare left right false _ => tokens left ++ word "is" :: tokens right
  | compare left right true _ => tokens left ++ word "is" :: word "not" :: tokens right
  | join op left right _ => sign "(" :: (tokens left ++ sign op.sign :: (tokens right ++ [sign ")"]))
  | not operand _ => word "not" :: tokens operand

/-- The tokens of printed arguments. -/
def argTokens : List Expr → List Token
  | [] => []
  | e :: es => tokens e ++ furtherTokens es

/-- The tokens of printed arguments after another. -/
def furtherTokens : List Expr → List Token
  | [] => []
  | e :: es => sign "," :: (tokens e ++ furtherTokens es)

end

/-- Printed arguments after another. -/
def furtherText (es : List Expr) : List Char := es.flatMap fun e => ',' :: ' ' :: e.text.toList

/-- Expressions are printed one by one. -/
lemma texts_eq_map (es : List Expr) : texts es = es.map text := by
  induction es with
  | nil => rfl
  | cons e es ih => rw [texts, ih, List.map_cons]

/-- The first argument is printed plainly, and every other after a comma. -/
lemma toList_intercalate_texts (e : Expr) (es : List Expr) :
    (", ".intercalate (texts (e :: es))).toList = e.text.toList ++ furtherText es := by
  rw [texts_eq_map, String.toList_intercalate]
  induction es generalizing e with
  | nil => simp [furtherText]
  | cons e' es ih =>
    have hnext := ih e'
    rw [List.map_cons, List.map_cons] at hnext
    rw [List.map_cons, List.map_cons, List.map_cons, List.map_cons, List.intercalate_cons_cons, hnext]
    simp [furtherText]

/-- Further arguments stand apart, if what follows them does. -/
lemma apart_further (es : List Expr) {cs : List Char} (hcs : Apart cs) : Apart (furtherText es ++ cs) := by
  cases es with
  | nil => exact hcs
  | cons e es => exact apart_cons rfl _

mutual

/-- A printed expression is laid out as its tokens, whatever follows it. -/
lemma spells_text : ∀ (e : Expr) {cs : List Char} {ts : List Token}, e.AllSpelled → Apart cs → Spells cs ts →
    Spells (e.text.toList ++ cs) (e.tokens ++ ts)
  | .name id pos, cs, ts, hs, hcs, h => by
    rw [text, tokens]
    have hid : (Expr.name id pos).Spelled := hs _ List.mem_cons_self
    exact h.word (hid.elim isName_of_lexeme isName_of_reserved) hcs
  | .int value pos, cs, ts, hs, hcs, h => by
    rw [text, tokens]
    have hvalue : (Expr.int value pos).Spelled := hs _ List.mem_cons_self
    exact h.number hvalue.1 hcs
  | .field base key pos, cs, ts, hs, hcs, h => by
    rw [text, tokens]
    obtain ⟨hkey, hbase⟩ := List.forall_mem_cons.mp hs
    have hrest := (h.word (isName_of_lexeme hkey) hcs).sign (c := ':') rfl
    have hall := spells_text base hbase (apart_cons rfl _) hrest
    simpa using hall
  | .call fn [] pos, cs, ts, hs, hcs, h => by
    rw [text, tokens, argTokens]
    have hfn : (Expr.call fn [] pos).Spelled := hs _ List.mem_cons_self
    have hall := ((h.sign (c := ')') rfl).sign (c := '(') rfl).word (isName_of_lexeme hfn) (apart_cons rfl _)
    simpa [texts] using hall
  | .call fn (e :: es) pos, cs, ts, hs, hcs, h => by
    rw [text, tokens, argTokens]
    obtain ⟨hfn, hargs⟩ := List.forall_mem_cons.mp hs
    obtain ⟨he, hes⟩ := List.forall_mem_append.mp hargs
    -- the text is built from its end: what follows a part must be laid out first
    have hclose := h.sign (c := ')') rfl
    have hfurther := spells_further es hes (apart_cons rfl _) hclose
    have hfirst := spells_text e he (apart_further es (apart_cons rfl _)) hfurther
    have hall := (hfirst.sign (c := '(') rfl).word (isName_of_lexeme hfn) (apart_cons rfl _)
    rw [String.toList_append, String.toList_append, String.toList_append, toList_intercalate_texts]
    simpa using hall
  | .compare left right false pos, cs, ts, hs, hcs, h => by
    rw [text, tokens]
    obtain ⟨hl, hr⟩ := List.forall_mem_append.mp (List.forall_mem_cons.mp hs).2
    have hright := spells_text right hr hcs h
    have his := (hright.space.word isName_is (apart_cons rfl _)).space
    have hall := spells_text left hl (apart_cons rfl _) his
    simpa [compareWord] using hall
  | .compare left right true pos, cs, ts, hs, hcs, h => by
    rw [text, tokens]
    obtain ⟨hl, hr⟩ := List.forall_mem_append.mp (List.forall_mem_cons.mp hs).2
    have hright := spells_text right hr hcs h
    have hnot := hright.space.word isName_not (apart_cons rfl _)
    have his := (hnot.space.word isName_is (apart_cons rfl _)).space
    have hall := spells_text left hl (apart_cons rfl _) his
    simpa [compareWord] using hall
  | .join op left right pos, cs, ts, hs, hcs, h => by
    rw [text, tokens]
    obtain ⟨hl, hr⟩ := List.forall_mem_append.mp (List.forall_mem_cons.mp hs).2
    have hright := (spells_text right hr (apart_cons rfl _) (h.sign (c := ')') rfl)).space
    cases op with
    | and =>
      have hleft := spells_text left hl (apart_cons rfl _) (hright.sign (c := '&') rfl).space
      have hall := hleft.sign (c := '(') rfl
      simpa [Junction.sign] using hall
    | or =>
      have hleft := spells_text left hl (apart_cons rfl _) (hright.sign (c := '|') rfl).space
      have hall := hleft.sign (c := '(') rfl
      simpa [Junction.sign] using hall
  | .not operand pos, cs, ts, hs, hcs, h => by
    rw [text, tokens]
    have hoperand := spells_text operand (List.forall_mem_cons.mp hs).2 hcs h
    have hall := hoperand.space.word isName_not (apart_cons rfl _)
    simpa using hall

/-- Printed arguments after another are laid out as their tokens. -/
lemma spells_further : ∀ (es : List Expr) {cs : List Char} {ts : List Token}, (∀ part ∈ partsAll es, part.Spelled) →
    Apart cs → Spells cs ts → Spells (furtherText es ++ cs) (furtherTokens es ++ ts)
  | [], cs, ts, hs, hcs, h => h
  | e :: es, cs, ts, hs, hcs, h => by
    obtain ⟨he, hes⟩ := List.forall_mem_append.mp hs
    have hrest := spells_text e he (apart_further es hcs) (spells_further es hes hcs h)
    have hall := hrest.space.sign (c := ',') rfl
    simpa [furtherText, furtherTokens] using hall

end

/-- A printed expression is read as its tokens, up to positions. -/
lemma ofSource_text {e : Expr} (h : e.AllSpelled) :
    ∃ tokens, Token.ofSource e.text.toList = .ok tokens ∧ (Cursor.ofTokens tokens).bare = ⟨e.tokens, .nowhere⟩ := by
  have hnil : Apart [] := fun _ hc => by cases hc
  obtain ⟨tokens, hlexes, hbare⟩ := spells_text e h hnil Spells.nil .start
  rw [List.append_nil] at hlexes
  refine ⟨tokens, Token.ofSource_eq_ok_iff.mpr hlexes, ?_⟩
  obtain ⟨front, rfl, hfront⟩ := hlexes.places
  rw [List.map_append] at hbare
  have hfront' : front.map Token.bare = e.tokens := (List.append_inj' hbare rfl).1
  have hsolid : ∀ t ∈ front, (!decide (t.kind = .endOfInput)) = true := by
    intro t ht
    simpa using kind_ne_endOfInput (hfront t ht).1
  have hrest : (Cursor.ofTokens (front ++ [Token.endAt (Pos.start.afterAll e.text.toList)])).rest = front := by
    refine (List.takeWhile_append_of_pos hsolid).trans ?_
    exact List.append_nil front
  unfold Cursor.bare
  rw [hrest, hfront']

end Expr

end Croupier
