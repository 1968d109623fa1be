import Mathlib.Data.List.Induction
import Croupier.Proofs.Token.Layout

/-!
# Tokens stand where they say

A position tells a line and a column of the source. What stands there is read off the lines of the source (`textAt`),
without going through what comes before. A token that is read off a source starts at its position with its own text, and
the tokens come one after the other without overlapping (`tokens_stand_in_source`).
-/

namespace Croupier

namespace Pos

variable {p q r : Pos}

/-- A position is not behind another. -/
def UpTo (p q : Pos) : Prop := p.line < q.line ∨ p.line = q.line ∧ p.col ≤ q.col

/-- A position is not behind itself. -/
lemma UpTo.refl : p.UpTo p := .inr ⟨rfl, Int.le_refl _⟩

/-- A position that is not behind a second one is not behind any that the second is not behind. -/
lemma UpTo.trans (h : p.UpTo q) (h' : q.UpTo r) : p.UpTo r := by
  unfold UpTo at *
  omega

/-- A character does not lead back. -/
lemma upTo_after (p : Pos) (c : Char) : p.UpTo (p.after c) := by
  unfold UpTo after
  split
  · exact .inl (Int.lt_succ _)
  · exact .inr ⟨rfl, Int.le_add_one (Int.le_refl _)⟩

/-- A text does not lead back. -/
lemma upTo_afterAll (p : Pos) (cs : List Char) : p.UpTo (p.afterAll cs) := by
  induction cs generalizing p with
  | nil => exact .refl
  | cons c cs ih => exact (upTo_after p c).trans (ih _)

/-- Without a line break only the column moves on. -/
lemma afterAll_of_one_line {cs : List Char} (h : '\n' ∉ cs) : p.afterAll cs = ⟨p.line, p.col + cs.length⟩ := by
  induction cs generalizing p with
  | nil => simp
  | cons c cs ih =>
    obtain ⟨hc, hcs⟩ := not_or.mp (mt List.mem_cons.mpr h)
    have hafter : p.after c = ⟨p.line, p.col + 1⟩ := if_neg (Ne.symm hc)
    rw [afterAll_cons, ih hcs, hafter, List.length_cons]
    congr 1
    push_cast
    omega

end Pos

/-- What stands in a source from a position to the end of its line. -/
def textAt (source : List Char) (p : Pos) : List Char :=
  ((source.splitOn '\n').getD (p.line - 1).toNat []).drop (p.col - 1).toNat

/-- A line break starts a new line, and any other character belongs to the first line. -/
lemma splitOn_cons (c : Char) (cs : List Char) :
    (c :: cs).splitOn '\n' = if c = '\n' then [] :: cs.splitOn '\n' else (cs.splitOn '\n').modifyHead (c :: ·) := by
  rw [List.splitOn_eq_splitOnP, List.splitOnP_cons_eq_if_modifyHead]
  simp only [beq_iff_eq]
  rfl

/-- Behind some text the lines of a source are those of the rest, after what stands in front of it on the same line. -/
lemma lines_from (before rest : List Char) : ∃ line : List Char,
    ((before ++ rest).splitOn '\n').drop ((Pos.start.afterAll before).line - 1).toNat =
      (rest.splitOn '\n').modifyHead (line ++ ·) ∧
    1 ≤ (Pos.start.afterAll before).line ∧ (Pos.start.afterAll before).col = line.length + 1 := by
  -- the text in front grows at its end: a line break starts a new line, any other character goes on with the last one
  induction before using List.reverseRecOn generalizing rest with
  | nil =>
    refine ⟨[], ?_, Int.le_refl _, rfl⟩
    cases hrest : rest.splitOn '\n' with
    | nil => exact absurd hrest (List.splitOn_ne_nil _ _)
    | cons l ls => exact hrest
  | append_singleton before c ih =>
    obtain ⟨line, hlines, hline, hcol⟩ := ih (c :: rest)
    rw [List.append_assoc, List.singleton_append, Pos.afterAll_append]
    generalize Pos.start.afterAll before = p at *
    rw [splitOn_cons] at hlines
    by_cases hc : c = '\n'
    · have hafter : p.afterAll [c] = ⟨p.line + 1, 1⟩ := if_pos hc
      rw [if_pos hc, List.modifyHead_cons] at hlines
      refine ⟨[], ?_, ?_, ?_⟩
      · have hnext : (p.line + 1 - 1).toNat = (p.line - 1).toNat + 1 := by omega
        rw [hafter, hnext, ← List.drop_drop, hlines]
        cases hrest : rest.splitOn '\n' with
        | nil => rfl
        | cons l ls => rfl
      · rw [hafter]
        show 1 ≤ p.line + 1
        omega
      · rw [hafter]
        rfl
    · have hafter : p.afterAll [c] = ⟨p.line, p.col + 1⟩ := if_neg hc
      rw [if_neg hc, List.modifyHead_modifyHead] at hlines
      refine ⟨line ++ [c], ?_, ?_, ?_⟩
      · rw [hafter, hlines]
        cases hrest : rest.splitOn '\n' with
        | nil => rfl
        | cons l ls => simp
      · rw [hafter]
        exact hline
      · rw [hafter, List.length_append, List.length_singleton]
        show p.col + 1 = _
        rw [hcol]
        push_cast
        rfl

/-- A text on one line that follows some text stands at the position behind it. -/
lemma prefix_textAt {before word rest : List Char} (hw : '\n' ∉ word) :
    word <+: textAt (before ++ (word ++ rest)) (Pos.start.afterAll before) := by
  obtain ⟨line, hlines, hline, hcol⟩ := lines_from before (word ++ rest)
  have hfirst : ∃ l ls, (word ++ rest).splitOn '\n' = (word ++ l) :: ls := by
    clear hlines
    induction word with
    | nil =>
      cases hrest : rest.splitOn '\n' with
      | nil => exact absurd hrest (List.splitOn_ne_nil _ _)
      | cons l ls => exact ⟨l, ls, hrest⟩
    | cons c word ih =>
      obtain ⟨hc, hword⟩ := not_or.mp (mt List.mem_cons.mpr hw)
      obtain ⟨l, ls, hsplit⟩ := ih hword
      refine ⟨l, ls, ?_⟩
      rw [List.cons_append, splitOn_cons, if_neg (Ne.symm hc), hsplit]
      rfl
  obtain ⟨l, ls, hsplit⟩ := hfirst
  generalize Pos.start.afterAll before = p at *
  rw [hsplit, List.modifyHead_cons] at hlines
  have hcolumn : (p.col - 1).toNat = line.length := by omega
  have hget := congrArg List.head? hlines
  rw [List.head?_drop, List.head?_cons] at hget
  unfold textAt
  rw [List.getD_eq_getElem?_getD, hget, Option.getD_some, hcolumn, List.drop_left]
  exact List.prefix_append word l

namespace Token

/-- A token starts behind the end of another. -/
def Precedes (t t' : Token) : Prop :=
  t.pos.line < t'.pos.line ∨
    t.pos.line = t'.pos.line ∧ t.pos.col < t'.pos.col ∧ t.pos.col + t.text.length ≤ t'.pos.col

variable {pos : Pos} {cs : List Char} {tokens : List Token}

/-- No lexeme goes over a line break. -/
lemma Lexeme.one_line {kind : TokenKind} {word : List Char} (h : Lexeme kind word) : '\n' ∉ word :=
  fun hn => absurd (h.solid _ hn).1 (by decide)

/-- A word is a keyword if and only if it is reserved. -/
lemma Lexeme.keyword_iff {kind : TokenKind} {word : List Char} (h : Lexeme kind word)
    (hk : kind = .ident ∨ kind = .keyword) : kind = .keyword ↔ Croupier.isKeyword (String.ofList word) = true := by
  cases h with
  | ident _ _ hr =>
    rw [hr]
    exact ⟨nofun, nofun⟩
  | keyword _ _ hr => exact ⟨fun _ => hr, fun _ => rfl⟩
  | int _ => simp at hk
  | punct _ => simp at hk

/-- Every token of a layout but the last is a lexeme of the text and stands where the lexeme does; the last is the end
of the text. -/
lemma Lexes.places (h : Lexes pos cs tokens) : ∃ front, tokens = front ++ [endAt (pos.afterAll cs)] ∧
    ∀ t ∈ front, Lexeme t.kind t.text.toList ∧
      ∃ before after, cs = before ++ (t.text.toList ++ after) ∧ t.pos = pos.afterAll before := by
  induction h with
  | stop hg => exact ⟨[], rfl, nofun⟩
  | @token pos kind gap word rest tokens hg hl hm h ih =>
    obtain ⟨front, rfl, hfront⟩ := ih
    refine ⟨⟨kind, String.ofList word, pos.afterAll gap⟩ :: front, by simp, List.forall_mem_cons.mpr ⟨?_, ?_⟩⟩
    · simp only [String.toList_ofList]
      exact ⟨hl, gap, rest, rfl, rfl⟩
    · intro t ht
      obtain ⟨hl', before, after, rfl, hpos⟩ := hfront t ht
      exact ⟨hl', gap ++ word ++ before, after, by simp, by simpa using hpos⟩

/-- The tokens of a layout do not stand in front of it. -/
lemma Lexes.upTo (h : Lexes pos cs tokens) : ∀ t ∈ tokens, pos.UpTo t.pos := by
  induction h with
  | stop hg => exact List.forall_mem_singleton.mpr (Pos.upTo_afterAll _ _)
  | token hg hl hm h ih =>
    refine List.forall_mem_cons.mpr ⟨Pos.upTo_afterAll _ _, fun t ht => ?_⟩
    exact (Pos.upTo_afterAll _ _).trans (ih t ht)

/-- The tokens of a layout come one after the other. -/
lemma Lexes.pairwise (h : Lexes pos cs tokens) : tokens.Pairwise Precedes := by
  induction h with
  | stop hg => exact List.pairwise_singleton _ _
  | @token pos kind gap word rest tokens hg hl hm h ih =>
    refine List.pairwise_cons.mpr ⟨fun t ht => ?_, ih⟩
    have hbehind := h.upTo t ht
    rw [Pos.afterAll_append, Pos.afterAll_of_one_line hl.one_line] at hbehind
    have hlength : 0 < word.length := List.length_pos_iff.mpr hl.ne_nil
    unfold Precedes
    rw [String.length_ofList]
    rcases hbehind with hline | ⟨hline, hcol⟩
    · exact .inl hline
    · refine .inr ⟨hline, ?_, hcol⟩
      dsimp only at hcol ⊢
      omega

/-- Reading tokens loses nothing, and every token stands where it says. The source is laid out as its tokens, with
nothing but white space and comments between them, and words and numbers are as long as they can be. At its line and
column every token has its own text; words are keywords if and only if they are reserved; each token ends before the
next one starts; and the one end of input is the last token and stands at the end of the source. -/
theorem tokens_stand_in_source {source : List Char} (h : ofSource source = .ok tokens) :
    Lexes .start source tokens ∧
    (∃ front, tokens = front ++ [endAt (Pos.start.afterAll source)] ∧
      ∀ t ∈ front, t.kind ≠ .endOfInput ∧ 1 ≤ t.pos.line ∧ 1 ≤ t.pos.col ∧ t.text ≠ "" ∧
        t.text.toList <+: textAt source t.pos ∧
        (t.kind = .ident ∨ t.kind = .keyword → (t.kind = .keyword ↔ Croupier.isKeyword t.text = true))) ∧
    tokens.Pairwise Precedes := by
  have hlexes := ofSource_eq_ok_iff.mp h
  refine ⟨hlexes, ?_, hlexes.pairwise⟩
  obtain ⟨front, rfl, hfront⟩ := hlexes.places
  refine ⟨front, rfl, fun t ht => ?_⟩
  obtain ⟨hl, before, after, rfl, hpos⟩ := hfront t ht
  obtain ⟨line, _, hline, hcol⟩ := lines_from before (t.text.toList ++ after)
  rw [← hpos] at hline hcol
  refine ⟨?_, hline, by omega, ?_, ?_, ?_⟩
  · intro hk
    rw [hk] at hl
    cases hl
  · intro he
    rw [he] at hl
    exact hl.ne_nil rfl
  · rw [hpos]
    exact prefix_textAt hl.one_line
  · intro hword
    have hreserved := hl.keyword_iff hword
    rwa [String.ofList_toList] at hreserved

/-- A source with a comment in it that goes over a line break. -/
def cutTwice : String := "deck.( cut ( twice
) é )> x_1\n"

/-- The tokens of `cutTwice` are cut around its comment, each with its own text at its position. -/
theorem cutTwice_tokens_stand :
    let tokens : List Token :=
      [⟨.keyword, "deck", ⟨1, 1⟩⟩, ⟨.punct, ">", ⟨2, 6⟩⟩, ⟨.ident, "x_1", ⟨2, 8⟩⟩, endAt ⟨3, 1⟩]
    ofSource cutTwice.toList = .ok tokens ∧ Lexes .start cutTwice.toList tokens ∧ tokens.Pairwise Precedes ∧
      "x_1".toList <+: textAt cutTwice.toList ⟨2, 8⟩ := by
  intro tokens
  have htokens : ofSource cutTwice.toList = .ok tokens := by
    rw [cutTwice, String.toList_ofList]
    decide +kernel
  obtain ⟨hlexes, ⟨front, hfront, hplaces⟩, hpairwise⟩ := tokens_stand_in_source htokens
  have hmem : (⟨.ident, "x_1", ⟨2, 8⟩⟩ : Token) ∈ front := by
    have hdrop := congrArg List.dropLast hfront
    rw [List.dropLast_concat] at hdrop
    rw [← hdrop]
    simp [tokens]
  exact ⟨htokens, hlexes, hpairwise, (hplaces _ hmem).2.2.2.2.1⟩

end Token

end Croupier
