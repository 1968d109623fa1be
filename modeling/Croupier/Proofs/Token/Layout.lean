import Mathlib.Data.List.TakeWhile
import Croupier.Proofs.Except
import Croupier.Proofs.Numeral
import Croupier.Token.Lexer

/-!
# How a source is laid out

A source is a row of lexemes with gaps between them, before the first and after the last (`Lexes`). A gap is white space
and comments, and a comment goes from its dot to the parenthesis that closes it. A lexeme is as long as it can be, and
its token stands where its first character does. The tokens that are read off a source are exactly those of its layout
(`ofSource_eq_ok_iff`): although the reader blanks the comments first, the layout is that of the source itself.
-/

namespace Croupier

namespace Pos

/-- Behind no text the position is the same. -/
@[simp]
lemma afterAll_nil (p : Pos) : p.afterAll [] = p := rfl

/-- The position behind a text is found character by character. -/
@[simp]
lemma afterAll_cons (p : Pos) (c : Char) (cs : List Char) : p.afterAll (c :: cs) = (p.after c).afterAll cs := rfl

/-- The position behind two texts is that behind the second, from behind the first on. -/
@[simp]
lemma afterAll_append (p : Pos) (cs ds : List Char) : p.afterAll (cs ++ ds) = (p.afterAll cs).afterAll ds :=
  List.foldl_append

end Pos

namespace Token

/-- The parentheses of a text are balanced. -/
inductive Balanced : List Char → Prop where
  | nil : Balanced []
  | char {c : Char} {cs : List Char} : c ≠ '(' → c ≠ ')' → Balanced cs → Balanced (c :: cs)
  | parens {inner cs : List Char} : Balanced inner → Balanced cs → Balanced ('(' :: (inner ++ ')' :: cs))

/-- A text of white space and comments. -/
inductive Gap : List Char → Prop where
  | nil : Gap []
  | space {c : Char} {cs : List Char} : isSpace c = true → Gap cs → Gap (c :: cs)
  | comment {inner cs : List Char} : Balanced inner → Gap cs → Gap ('.' :: '(' :: (inner ++ ')' :: cs))

/-- The characters are a token of a kind. -/
inductive Lexeme : TokenKind → List Char → Prop where
  | ident {c : Char} {cs : List Char} : isWordStart c = true → (∀ x ∈ cs, isWordChar x = true) →
    Croupier.isKeyword (String.ofList (c :: cs)) = false → Lexeme .ident (c :: cs)
  | keyword {c : Char} {cs : List Char} : isWordStart c = true → (∀ x ∈ cs, isWordChar x = true) →
    Croupier.isKeyword (String.ofList (c :: cs)) = true → Lexeme .keyword (c :: cs)
  | int {cs : List Char} : Numeral.IsDigits cs → Lexeme .int cs
  | punct {c : Char} : isSign c = true → Lexeme .punct [c]

/-- The characters that make a token of a kind longer. -/
def continues : TokenKind → Char → Bool
  | .ident, c | .keyword, c => isWordChar c
  | .int, c => c.isDigit
  | _, _ => false

/-- What follows a token does not make it longer. -/
def Maximal (kind : TokenKind) (rest : List Char) : Prop := ∀ c ∈ rest.head?, continues kind c = false

/-- A text that starts at a position is laid out as some tokens, the end of input last. -/
inductive Lexes : Pos → List Char → List Token → Prop where
  | stop {pos : Pos} {gap : List Char} : Gap gap → Lexes pos gap [endAt (pos.afterAll gap)]
  | token {pos : Pos} {kind : TokenKind} {gap word rest : List Char} {tokens : List Token} :
    Gap gap → Lexeme kind word → Maximal kind rest → Lexes (pos.afterAll (gap ++ word)) rest tokens →
    Lexes pos (gap ++ (word ++ rest)) (⟨kind, String.ofList word, pos.afterAll gap⟩ :: tokens)

/-- One gap after another is a gap. -/
lemma Gap.append {gap gap' : List Char} (h : Gap gap) (h' : Gap gap') : Gap (gap ++ gap') := by
  induction h with
  | nil => exact h'
  | space hc _ ih => exact .space hc ih
  | comment hb _ ih =>
    rw [List.cons_append, List.cons_append, List.append_assoc, List.cons_append]
    exact .comment hb ih

/-- A gap in front of a text belongs to its layout. -/
lemma Lexes.gap {pos : Pos} {gap cs : List Char} {tokens : List Token} (hg : Gap gap)
    (h : Lexes (pos.afterAll gap) cs tokens) : Lexes pos (gap ++ cs) tokens := by
  cases h with
  | stop hg' =>
    rw [← Pos.afterAll_append]
    exact .stop (hg.append hg')
  | token hg' hl hm h =>
    rw [← List.append_assoc, ← Pos.afterAll_append]
    rw [← Pos.afterAll_append, ← List.append_assoc] at h
    exact .token (hg.append hg') hl hm h

section Blanks

/-- What a character of a comment is turned into. -/
def blank (c : Char) : Char := if c = '\n' then '\n' else ' '

/-- What a character of a comment is turned into is white space. -/
lemma isSpace_blank (c : Char) : isSpace (blank c) = true := by
  unfold blank
  split <;> rfl

/-- To blank a character does not move what follows it. -/
lemma after_blank (pos : Pos) (c : Char) : pos.after (blank c) = pos.after c := by
  unfold Pos.after blank
  split <;> simp

/-- To blank a text does not move what follows it. -/
lemma afterAll_map_blank (pos : Pos) (cs : List Char) : pos.afterAll (cs.map blank) = pos.afterAll cs := by
  induction cs generalizing pos with
  | nil => rfl
  | cons c cs ih => rw [List.map_cons, Pos.afterAll_cons, Pos.afterAll_cons, after_blank, ih]

/-- The text closes so many parentheses, and nothing follows the last of them. -/
inductive Closes : Nat → List Char → Prop where
  | done : Closes 0 []
  | close {depth : Nat} {inner cs : List Char} : Balanced inner → Closes depth cs →
    Closes (depth + 1) (inner ++ ')' :: cs)

namespace Closes

variable {depth : Nat} {cs : List Char}

/-- A character that is no parenthesis closes nothing. -/
lemma char {c : Char} (ho : c ≠ '(') (hc : c ≠ ')') (h : Closes (depth + 1) cs) : Closes (depth + 1) (c :: cs) := by
  cases h with
  | close hb h => exact .close (.char ho hc hb) h

/-- A parenthesis that opens has to be closed as well. -/
lemma opened (h : Closes (depth + 1 + 1) cs) : Closes (depth + 1) ('(' :: cs) := by
  cases h with
  | @close _ inner _ hb h =>
    cases h with
    | @close _ inner' cs hb' h =>
      have hparens : Balanced ('(' :: (inner ++ ')' :: inner')) := .parens hb hb'
      have hclose := Closes.close hparens h
      simpa using hclose

/-- A parenthesis that closes is one more that is closed. -/
lemma closed (h : Closes depth cs) : Closes (depth + 1) (')' :: cs) := .close .nil h

/-- The comment that has been opened by one parenthesis is a balanced text and the parenthesis that closes it. -/
lemma of_one (h : Closes 1 cs) : ∃ inner, Balanced inner ∧ cs = inner ++ [')'] := by
  cases h with
  | close hb h =>
    cases h
    exact ⟨_, hb, rfl⟩

end Closes

/-- The parenthesis that closes the comment leads back to the program. -/
lemma inside_last (opened : Pos) : Zone.inside opened 1 ')' = .program := rfl

/-- A parenthesis that closes another one inside the comment leaves the comment open. -/
lemma inside_close (opened : Pos) (depth : Nat) :
    Zone.inside opened (depth + 1 + 1) ')' = .comment opened (depth + 1) := by
  simp [Zone.inside]

/-- A character that is no parenthesis leaves the comment as deep as it was. -/
lemma inside_char (opened : Pos) (depth : Nat) {c : Char} (ho : c ≠ '(') (hc : c ≠ ')') :
    Zone.inside opened depth c = .comment opened depth := by
  simp [Zone.inside, ho, hc]

variable {pos opened : Pos} {depth : Nat} {cs text : List Char}

/-- A character inside a comment is blanked, and the rest after it. -/
lemma blankComments_inside {c : Char} (h : blankComments (Zone.inside opened depth c) (pos.after c) cs = .ok text) :
    blankComments (.comment opened depth) pos (c :: cs) = .ok (blank c :: text) := by
  rw [blankComments, h]
  rfl

/-- A comment that is blanked is closed, and what follows it is blanked on its own. -/
lemma blankComments_comment_ok (h : blankComments (.comment opened (depth + 1)) pos cs = .ok text) :
    ∃ closing rest text', Closes (depth + 1) closing ∧ cs = closing ++ rest ∧ text = closing.map blank ++ text' ∧
      blankComments .program (pos.afterAll closing) rest = .ok text' := by
  induction cs generalizing pos depth text with
  | nil => cases h
  | cons c cs ih =>
    rw [blankComments] at h
    obtain ⟨text₁, hblank, ht⟩ := bind_eq_ok.mp h
    cases ht
    by_cases ho : c = '('
    · subst ho
      obtain ⟨closing, rest, text', hcl, rfl, rfl, hrest⟩ := ih hblank
      exact ⟨'(' :: closing, rest, text', hcl.opened, rfl, rfl, hrest⟩
    by_cases hc : c = ')'
    · subst hc
      cases depth with
      | zero => exact ⟨[')'], cs, text₁, Closes.done.closed, rfl, rfl, hblank⟩
      | succ depth =>
        rw [inside_close] at hblank
        obtain ⟨closing, rest, text', hcl, rfl, rfl, hrest⟩ := ih hblank
        exact ⟨')' :: closing, rest, text', hcl.closed, rfl, rfl, hrest⟩
    · rw [inside_char opened _ ho hc] at hblank
      obtain ⟨closing, rest, text', hcl, rfl, rfl, hrest⟩ := ih hblank
      exact ⟨c :: closing, rest, text', hcl.char ho hc, rfl, rfl, hrest⟩

/-- A balanced text inside a comment leaves it as deep as it was. -/
lemma blankComments_balanced {inner : List Char} (hb : Balanced inner)
    (h : blankComments (.comment opened (depth + 1)) (pos.afterAll inner) cs = .ok text) :
    blankComments (.comment opened (depth + 1)) pos (inner ++ cs) = .ok (inner.map blank ++ text) := by
  induction hb generalizing depth pos cs text with
  | nil => exact h
  | char ho hc _ ih =>
    apply blankComments_inside
    rw [inside_char opened _ ho hc]
    exact ih h
  | @parens inner cs' _ _ ih ih' =>
    have hrest : blankComments (.comment opened (depth + 1)) ((pos.afterAll ('(' :: inner)).after ')') (cs' ++ cs) =
        .ok (cs'.map blank ++ text) := ih' (by simpa using h)
    have hclose : blankComments (.comment opened (depth + 1 + 1)) (pos.afterAll ('(' :: inner)) (')' :: (cs' ++ cs)) =
        .ok (blank ')' :: (cs'.map blank ++ text)) := by
      apply blankComments_inside
      rw [inside_close]
      exact hrest
    have hopen := ih hclose
    rw [List.cons_append, List.append_assoc, List.cons_append, List.map_cons, List.map_append, List.cons_append,
      List.append_assoc]
    exact blankComments_inside hopen

/-- Outside comments a character that opens none stays. -/
lemma blankComments_char {c : Char} (hc : c ≠ '.') (h : blankComments .program (pos.after c) cs = .ok text) :
    blankComments .program pos (c :: cs) = .ok (c :: text) := by
  rw [blankComments, h]
  · rfl
  · exact fun _ he _ => hc he

/-- What is blanked is nothing, or starts with a comment, or with a character that stays. -/
lemma blankComments_program_ok (h : blankComments .program pos cs = .ok text) :
    (cs = [] ∧ text = []) ∨
    (∃ inner rest text', Balanced inner ∧ cs = '.' :: '(' :: (inner ++ ')' :: rest) ∧
      text = ' ' :: ' ' :: ((inner ++ [')']).map blank ++ text') ∧
      blankComments .program (pos.afterAll ('.' :: '(' :: (inner ++ [')']))) rest = .ok text') ∨
    ∃ c rest text', cs = c :: rest ∧ text = c :: text' ∧ blankComments .program (pos.after c) rest = .ok text' := by
  unfold blankComments at h
  split at h
  · cases h
    exact .inl ⟨rfl, rfl⟩
  · cases h
  · obtain ⟨text₁, hblank, ht⟩ := bind_eq_ok.mp h
    cases ht
    obtain ⟨closing, rest, text', hcl, rfl, rfl, hrest⟩ := blankComments_comment_ok hblank
    obtain ⟨inner, hb, rfl⟩ := hcl.of_one
    exact .inr (.inl ⟨inner, rest, text', hb, by simp, rfl, hrest⟩)
  · next pos c cs _ _ =>
    obtain ⟨text₁, hblank, ht⟩ := bind_eq_ok.mp h
    cases ht
    exact .inr (.inr ⟨c, cs, text₁, rfl, rfl, hblank⟩)
  · next heq => cases heq

/-- White space is no dot. -/
lemma isSpace_ne_dot {c : Char} (h : isSpace c = true) : c ≠ '.' := by
  rintro rfl
  cases h

/-- A gap is blanked on its own: nothing but white space is left of it, and it ends where it did. -/
lemma blankComments_gap {gap : List Char} (hg : Gap gap)
    (h : blankComments .program (pos.afterAll gap) cs = .ok text) :
    ∃ blanks, (∀ c ∈ blanks, isSpace c = true) ∧ (∀ p : Pos, p.afterAll blanks = p.afterAll gap) ∧
      blankComments .program pos (gap ++ cs) = .ok (blanks ++ text) := by
  induction hg generalizing pos with
  | nil => exact ⟨[], nofun, fun _ => rfl, h⟩
  | @space c gap hc _ ih =>
    obtain ⟨blanks, hs, hp, hb⟩ := ih h
    refine ⟨c :: blanks, List.forall_mem_cons.mpr ⟨hc, hs⟩, fun p => hp (p.after c), ?_⟩
    exact blankComments_char (isSpace_ne_dot hc) hb
  | @comment inner gap hinner _ ih =>
    have hgap : blankComments .program ((pos.afterAll ('.' :: '(' :: (inner ++ [')']))).afterAll gap) cs =
        .ok text := by simpa using h
    obtain ⟨blanks, hs, hp, hb⟩ := ih hgap
    have hclose : blankComments (.comment pos 1) (pos.afterAll ('.' :: '(' :: inner)) (')' :: (gap ++ cs)) =
        .ok (blank ')' :: (blanks ++ text)) := by
      apply blankComments_inside
      simpa [inside_last] using hb
    have hopen : blankComments (.comment pos 1) ((pos.after '.').after '(') (inner ++ ')' :: (gap ++ cs)) =
        .ok (inner.map blank ++ blank ')' :: (blanks ++ text)) := blankComments_balanced hinner hclose
    refine ⟨['.', '('].map blank ++ (inner ++ [')']).map blank ++ blanks, ?_, fun p => ?_, ?_⟩
    · simp only [← List.map_append, List.mem_append, List.mem_map]
      rintro c (⟨c, _, rfl⟩ | hc)
      · exact isSpace_blank c
      · exact hs c hc
    · rw [Pos.afterAll_append, Pos.afterAll_append, afterAll_map_blank, afterAll_map_blank, hp]
      simp
    · have hread : blankComments .program pos ('.' :: '(' :: (inner ++ ')' :: (gap ++ cs))) =
          .ok (' ' :: ' ' :: (inner.map blank ++ blank ')' :: (blanks ++ text))) := by
        rw [blankComments, hopen]
        rfl
      simpa [show blank '.' = ' ' from rfl, show blank '(' = ' ' from rfl] using hread

end Blanks

section Lexemes

variable {c : Char} {kind : TokenKind} {cs word rest text : List Char} {pos : Pos} {tokens : List Token}

/-- No word starts with a digit. -/
lemma isWordStart_of_isDigit (h : c.isDigit = true) : isWordStart c = false := by
  have hc : c ≠ '_' := by
    rintro rfl
    cases h
  unfold isWordStart
  delta Char.isAlpha Char.isUpper Char.isLower Char.isDigit at *
  simp only [Bool.or_eq_false_iff]
  grind

/-- A sign starts no word and no number. -/
lemma isWordStart_of_isSign (h : isSign c = true) : isWordStart c = false ∧ c.isDigit = false := by
  simp only [isSign, List.contains_iff_mem, List.mem_cons, List.not_mem_nil, or_false] at h
  rcases h with rfl | rfl | rfl | rfl | rfl | rfl | rfl | rfl | rfl | rfl <;> decide

/-- Neither white space nor a dot is part of a token. -/
lemma not_in_lexeme (h : isSpace c = true ∨ c = '.') : isWordChar c = false ∧ c.isDigit = false ∧ isSign c = false := by
  simp only [isSpace, Bool.or_eq_true, beq_iff_eq] at h
  rcases h with (((((rfl | rfl) | rfl) | rfl) | rfl) | rfl) <;> decide

/-- Neither white space nor a dot makes a token longer. -/
lemma not_continues (h : isSpace c = true ∨ c = '.') : continues kind c = false := by
  obtain ⟨hw, hd, _⟩ := not_in_lexeme h
  cases kind with
  | ident => exact hw
  | keyword => exact hw
  | int => exact hd
  | _ => rfl

/-- A character that starts a word may also stand inside one. -/
lemma isWordChar_of_isWordStart (h : isWordStart c = true) : isWordChar c = true := by
  unfold isWordStart at h
  unfold isWordChar Char.isAlphanum
  rcases Bool.or_eq_true_iff.mp h with h | h
  · rw [h]
    rfl
  · rw [h, Bool.or_true]

/-- No lexeme is empty. -/
lemma Lexeme.ne_nil (h : Lexeme kind word) : word ≠ [] := by
  cases h with
  | int hd => exact hd.ne_nil
  | _ => exact List.cons_ne_nil _ _

/-- A lexeme consists of the characters of words, of digits and of signs. -/
lemma Lexeme.chars (h : Lexeme kind word) :
    ∀ c ∈ word, isWordChar c = true ∨ c.isDigit = true ∨ isSign c = true := by
  cases h with
  | ident hs hw _ => exact List.forall_mem_cons.mpr ⟨.inl (isWordChar_of_isWordStart hs), fun c hc => .inl (hw c hc)⟩
  | keyword hs hw _ => exact List.forall_mem_cons.mpr ⟨.inl (isWordChar_of_isWordStart hs), fun c hc => .inl (hw c hc)⟩
  | int hd => exact fun c hc => .inr (.inl (hd.isDigit c hc))
  | punct hs => exact List.forall_mem_singleton.mpr (.inr (.inr hs))

/-- There is no white space and no dot in a lexeme. -/
lemma Lexeme.solid (h : Lexeme kind word) : ∀ c ∈ word, isSpace c = false ∧ c ≠ '.' := by
  intro c hc
  have hin := h.chars c hc
  have hout : ¬ (isSpace c = true ∨ c = '.') := by
    intro hn
    obtain ⟨hw, hd, hs⟩ := not_in_lexeme hn
    simp [hw, hd, hs] at hin
  exact ⟨eq_false_of_ne_true fun hs => hout (.inl hs), fun hdot => hout (.inr hdot)⟩

/-- A list is split at the first item that does not fit, and in no other way. -/
lemma span_iff {α : Type} {p : α → Bool} {xs ys zs : List α} :
    (xs.takeWhile p = ys ∧ xs.dropWhile p = zs) ↔
      (xs = ys ++ zs ∧ (∀ x ∈ ys, p x = true) ∧ ∀ z ∈ zs.head?, p z = false) := by
  constructor
  · rintro ⟨rfl, rfl⟩
    refine ⟨List.takeWhile_append_dropWhile.symm, fun x hx => List.mem_takeWhile_imp hx, fun z hz => ?_⟩
    have hhead := List.head?_dropWhile_not p xs
    rw [hz] at hhead
    exact hhead
  · rintro ⟨rfl, hys, hzs⟩
    rw [List.takeWhile_append_of_pos hys, List.dropWhile_append_of_pos hys]
    cases zs with
    | nil => simp
    | cons z zs =>
      have hz := hzs z rfl
      simp [hz]

/-- What is cut off a text is a lexeme, as long as it can be. -/
lemma lexeme_of_lexeme? (h : lexeme? c cs = some (kind, word, rest)) :
    Lexeme kind word ∧ Maximal kind rest ∧ c :: cs = word ++ rest := by
  have hspan (p : Char → Bool) : cs = cs.takeWhile p ++ cs.dropWhile p ∧ (∀ x ∈ cs.takeWhile p, p x = true) ∧
      ∀ z ∈ (cs.dropWhile p).head?, p z = false := span_iff.mp ⟨rfl, rfl⟩
  unfold lexeme? at h
  split at h
  · next hs =>
    obtain ⟨happ, hword, hrest⟩ := hspan isWordChar
    simp only [Option.some.injEq, Prod.mk.injEq] at h
    obtain ⟨hkind, rfl, rfl⟩ := h
    split at hkind
    · next hk =>
      subst hkind
      exact ⟨.keyword hs hword hk, hrest, congrArg (c :: ·) happ⟩
    · next hk =>
      subst hkind
      exact ⟨.ident hs hword (eq_false_of_ne_true hk), hrest, congrArg (c :: ·) happ⟩
  split at h
  · next hd =>
    obtain ⟨happ, hword, hrest⟩ := hspan Char.isDigit
    simp only [Option.some.injEq, Prod.mk.injEq] at h
    obtain ⟨rfl, rfl, rfl⟩ := h
    exact ⟨.int ⟨List.cons_ne_nil _ _, List.forall_mem_cons.mpr ⟨hd, hword⟩⟩, hrest, congrArg (c :: ·) happ⟩
  split at h
  · next hs =>
    cases h
    exact ⟨.punct hs, fun _ _ => rfl, rfl⟩
  · cases h

/-- A lexeme that could not be longer is cut off. -/
lemma lexeme?_of_lexeme (hl : Lexeme kind (c :: cs)) (hm : Maximal kind rest) :
    lexeme? c (cs ++ rest) = some (kind, c :: cs, rest) := by
  unfold lexeme?
  cases hl with
  | ident hs hw hk =>
    obtain ⟨ht, hd⟩ := span_iff.mpr ⟨rfl, hw, hm⟩
    simp only [if_pos hs, ht, hd, hk, Bool.false_eq_true, if_false]
  | keyword hs hw hk =>
    obtain ⟨ht, hd⟩ := span_iff.mpr ⟨rfl, hw, hm⟩
    simp only [if_pos hs, ht, hd, hk, if_true]
  | int hds =>
    obtain ⟨hc, hds⟩ := List.forall_mem_cons.mp hds.isDigit
    obtain ⟨ht, hd⟩ := span_iff.mpr ⟨rfl, hds, hm⟩
    simp [ht, hd, hc, isWordStart_of_isDigit hc]
  | punct hs =>
    obtain ⟨hw, hd⟩ := isWordStart_of_isSign hs
    simp [hs, hw, hd]

/-- White space in front of a text is skipped. -/
lemma scan_space (h : isSpace c = true) : scan pos (c :: cs) = scan (pos.after c) cs := by
  rw [scan, if_pos h]

/-- All white space in front of a text is skipped. -/
lemma scan_blanks {blanks : List Char} (h : ∀ c ∈ blanks, isSpace c = true) :
    scan pos (blanks ++ cs) = scan (pos.afterAll blanks) cs := by
  induction blanks generalizing pos with
  | nil => rfl
  | cons c blanks ih =>
    obtain ⟨hc, h⟩ := List.forall_mem_cons.mp h
    rw [List.cons_append, scan_space hc, ih h, Pos.afterAll_cons]

/-- A lexeme in front of a text is read as its token. -/
lemma scan_lexeme (hl : Lexeme kind word) (hm : Maximal kind rest)
    (h : scan (pos.afterAll word) rest = .ok tokens) :
    scan pos (word ++ rest) = .ok (⟨kind, String.ofList word, pos⟩ :: tokens) := by
  cases word with
  | nil => exact absurd rfl hl.ne_nil
  | cons c ds =>
    have hread : lexeme? c (ds ++ rest) = some (kind, c :: ds, rest) := lexeme?_of_lexeme hl hm
    have hc : isSpace c = false := (hl.solid c (List.mem_cons_self ..)).1
    rw [List.cons_append, scan, if_neg (by simp [hc])]
    split
    · next hnone =>
      rw [hread] at hnone
      cases hnone
    · next hsome =>
      rw [hread] at hsome
      cases hsome
      rw [h]
      rfl

/-- A text without comments is empty, or starts with white space, or with a lexeme. -/
lemma scan_ok (h : scan pos text = .ok tokens) :
    (text = [] ∧ tokens = [endAt pos]) ∨
    (∃ c rest, text = c :: rest ∧ isSpace c = true ∧ scan (pos.after c) rest = .ok tokens) ∨
    ∃ kind word rest tokens', Lexeme kind word ∧ Maximal kind rest ∧ text = word ++ rest ∧
      tokens = ⟨kind, String.ofList word, pos⟩ :: tokens' ∧ scan (pos.afterAll word) rest = .ok tokens' := by
  cases text with
  | nil =>
    rw [scan] at h
    cases h
    exact .inl ⟨rfl, rfl⟩
  | cons c cs =>
    by_cases hc : isSpace c = true
    · rw [scan_space hc] at h
      exact .inr (.inl ⟨c, cs, rfl, hc, h⟩)
    · rw [scan, if_neg hc] at h
      split at h
      · cases h
      · next kind word rest hread =>
        obtain ⟨tokens', hscan, ht⟩ := bind_eq_ok.mp h
        cases ht
        obtain ⟨hl, hm, happ⟩ := lexeme_of_lexeme? hread
        exact .inr (.inr ⟨kind, word, rest, tokens', hl, hm, happ, rfl, hscan⟩)

end Lexemes

section Reading

variable {kind : TokenKind} {pos : Pos} {cs text word : List Char} {tokens : List Token}

/-- The characters of a lexeme stay where they are when comments are blanked. -/
lemma blankComments_solid (hw : ∀ c ∈ word, isSpace c = false ∧ c ≠ '.')
    (h : blankComments .program (pos.afterAll word) cs = .ok text) :
    blankComments .program pos (word ++ cs) = .ok (word ++ text) := by
  induction word generalizing pos with
  | nil => exact h
  | cons c word ih =>
    obtain ⟨hc, hw⟩ := List.forall_mem_cons.mp hw
    exact blankComments_char hc.2 (ih hw h)

/-- What is left of a source where comments are blanked, and is not white space, stands in the source. -/
lemma solid_of_blankComments (hw : ∀ c ∈ word, isSpace c = false ∧ c ≠ '.')
    (h : blankComments .program pos cs = .ok (word ++ text)) :
    ∃ rest, cs = word ++ rest ∧ blankComments .program (pos.afterAll word) rest = .ok text := by
  induction word generalizing pos cs with
  | nil => exact ⟨cs, rfl, h⟩
  | cons c word ih =>
    obtain ⟨hc, hw⟩ := List.forall_mem_cons.mp hw
    rcases blankComments_program_ok h with
      ⟨_, hnil⟩ | ⟨inner, rest, text', _, _, htext, _⟩ | ⟨c', rest, text', rfl, he, hr⟩
    · cases hnil
    · obtain ⟨rfl, _⟩ := List.cons.inj htext
      exact absurd hc.1 (by decide)
    · obtain ⟨rfl, rfl⟩ := List.cons.inj he
      obtain ⟨rest, rfl, hrest⟩ := ih hw hr
      exact ⟨rest, rfl, hrest⟩

/-- Whether a token could be longer does not depend on the comments. -/
lemma maximal_blankComments (h : blankComments .program pos cs = .ok text) : Maximal kind text ↔ Maximal kind cs := by
  rcases blankComments_program_ok h with
    ⟨rfl, rfl⟩ | ⟨inner, rest, text', _, rfl, rfl, _⟩ | ⟨c, rest, text', rfl, rfl, _⟩
  · exact Iff.rfl
  -- A comment starts with a dot and is blanked to a space, and neither continues a token.
  · have hblank : Maximal kind (' ' :: ' ' :: ((inner ++ [')']).map blank ++ text')) := by
      rintro c hc
      cases hc
      exact not_continues (.inl rfl)
    have hcomment : Maximal kind ('.' :: '(' :: (inner ++ ')' :: rest)) := by
      rintro c hc
      cases hc
      exact not_continues (.inr rfl)
    exact ⟨fun _ => hcomment, fun _ => hblank⟩
  · exact Iff.rfl

/-- A text is read as it is laid out. -/
lemma Lexes.read (h : Lexes pos cs tokens) :
    ∃ text, blankComments .program pos cs = .ok text ∧ scan pos text = .ok tokens := by
  induction h with
  | @stop pos gap hg =>
    have hnil : blankComments .program (pos.afterAll gap) [] = .ok [] := by rw [blankComments]
    obtain ⟨blanks, hs, hp, hb⟩ := blankComments_gap hg hnil
    rw [List.append_nil] at hb
    refine ⟨blanks ++ [], hb, ?_⟩
    rw [scan_blanks hs, scan, hp]
  | @token pos kind gap word rest tokens hg hl hm h ih =>
    obtain ⟨text, hb, hscan⟩ := ih
    rw [Pos.afterAll_append] at hb hscan
    obtain ⟨blanks, hs, hp, hb'⟩ := blankComments_gap hg (blankComments_solid hl.solid hb)
    refine ⟨blanks ++ (word ++ text), hb', ?_⟩
    rw [scan_blanks hs, hp]
    exact scan_lexeme hl ((maximal_blankComments hb).mpr hm) hscan

/-- What is read is the layout of the text. -/
lemma lexes_of_scan {cs : List Char} {pos : Pos} {text : List Char} {tokens : List Token}
    (hb : blankComments .program pos cs = .ok text) (hs : scan pos text = .ok tokens) : Lexes pos cs tokens := by
  rcases blankComments_program_ok hb with
    ⟨rfl, rfl⟩ | ⟨inner, rest, text', hi, rfl, rfl, hrest⟩ | ⟨c, rest, text', rfl, rfl, hrest⟩
  · rw [scan] at hs
    cases hs
    exact .stop .nil
  · have hblanks : ∀ c ∈ [' ', ' '] ++ (inner ++ [')']).map blank, isSpace c = true := by
      simp only [List.mem_append, List.mem_map]
      rintro c (hc | ⟨c, _, rfl⟩)
      · simp only [List.mem_cons, List.not_mem_nil, or_false, or_self] at hc
        rw [hc]
        rfl
      · exact isSpace_blank c
    have hskip : scan (pos.afterAll ('.' :: '(' :: (inner ++ [')']))) text' = .ok tokens := by
      have hscan : scan pos ([' ', ' '] ++ (inner ++ [')']).map blank ++ text') = _ := scan_blanks hblanks
      rw [List.append_assoc, Pos.afterAll_append, afterAll_map_blank] at hscan
      exact hscan.symm.trans hs
    have hgap : Gap ('.' :: '(' :: (inner ++ [')'])) := .comment hi .nil
    have hlexes := (lexes_of_scan hrest hskip).gap hgap
    simpa using hlexes
  · rcases scan_ok hs with ⟨hnil, _⟩ | ⟨d, r, he, hd, hscan⟩ | ⟨kind, word, r, tokens', hl, hm, happ, rfl, hscan⟩
    · cases hnil
    · obtain ⟨rfl, rfl⟩ := List.cons.inj he
      have hgap : Gap [c] := .space hd .nil
      exact (lexes_of_scan hrest hscan).gap hgap
    · rw [happ] at hb
      -- The lexeme is cut off the source, which goes on with what the rest of the text was blanked from.
      obtain ⟨cs', hcs, hb'⟩ := solid_of_blankComments hl.solid hb
      have hlength : cs'.length < (c :: rest).length := by
        rw [hcs, List.length_append]
        have := List.length_pos_iff.mpr hl.ne_nil
        omega
      rw [hcs]
      exact .token .nil hl ((maximal_blankComments hb').mp hm) (lexes_of_scan hb' hscan)
  termination_by cs.length

/-- The tokens of a source are those of its layout. -/
lemma ofSource_eq_ok_iff {source : List Char} : ofSource source = .ok tokens ↔ Lexes .start source tokens := by
  constructor
  · intro h
    obtain ⟨text, hb, hs⟩ := bind_eq_ok.mp h
    exact lexes_of_scan hb hs
  · intro h
    obtain ⟨text, hb, hs⟩ := h.read
    exact bind_eq_ok.mpr ⟨text, hb, hs⟩

end Reading

end Token

end Croupier
