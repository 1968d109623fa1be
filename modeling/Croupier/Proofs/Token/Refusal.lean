import Mathlib.Data.List.DropRight
import Croupier.Proofs.Text.Utf8
import Croupier.Proofs.Token.Layout

/-!
# What cannot be cut into tokens

A source is refused for one of two reasons: a comment is never closed, or outside comments there is a character that no
token and no white space has. Both are said of the source itself (`Unclosed`, `Stray`), by way of what stands outside
comments (`Outside`). Every text is taken apart into characters, whole comments and at most one comment that is not
closed (`Commented`); along these parts the blanked text is compared with the source. The first reason wins wherever
the comment stands; of stray characters the first one is reported (`refused_iff`).
-/

namespace Croupier

namespace Pos

/-- The position behind some text: its line breaks are counted, and the characters after the last of them. -/
def behind (before : List Char) : Pos :=
  ⟨before.count '\n' + 1, (before.rtakeWhile (· ≠ '\n')).length + 1⟩

/-- The position behind some text, found character by character, is where its lines and its last column say. -/
lemma afterAll_start (before : List Char) : start.afterAll before = behind before := by
  induction before using List.reverseRecOn with
  | nil => rfl
  | append_singleton before c ih =>
    rw [afterAll_append, ih]
    show (behind before).after c = _
    unfold behind after
    by_cases hc : c = '\n'
    · subst hc
      rw [if_pos rfl, List.rtakeWhile_concat_neg _ _ _ (by simp), List.count_append]
      simp
    · rw [if_neg hc, List.rtakeWhile_concat_pos _ _ _ (by simpa using hc), List.count_append]
      simp [hc]

end Pos

namespace Token

/-- The characters of tokens and white space. -/
def InAlphabet (c : Char) : Prop :=
  c.isAlphanum = true ∨
    c ∈ ['_', '>', '-', ':', '(', ')', '\x7b', '\x7d', ',', '&', '|', '\t', '\n', '\x0c', '\r', ' ']

/-- A comment opens at the start of a text. -/
def OpensComment (cs : List Char) : Prop := ['.', '('] <+: cs

/-- No parenthesis in the text closes the comment that has been opened in front of it. -/
def NeverCloses (cs : List Char) : Prop := ∀ inner rest, Balanced inner → cs ≠ inner ++ ')' :: rest

/-- Through the first part of a text one comes to the rest of it and is then outside comments. -/
inductive Outside : List Char → List Char → List Char → Prop where
  | here {cs : List Char} : Outside cs [] cs
  | char {c : Char} {cs before rest : List Char} :
    ¬ OpensComment (c :: cs) → Outside cs before rest → Outside (c :: cs) (c :: before) rest
  | comment {inner cs before rest : List Char} : Balanced inner → Outside cs before rest →
    Outside ('.' :: '(' :: (inner ++ ')' :: cs)) ('.' :: '(' :: (inner ++ ')' :: before)) rest

/-- Behind the first part of a source a comment opens that is not inside another one and is never closed. -/
def Unclosed (source before : List Char) : Prop :=
  ∃ body, Outside source before ('.' :: '(' :: body) ∧ NeverCloses body

/-- Behind the first part of a source, outside comments, stands a character that belongs to nothing. -/
def Stray (source before : List Char) (c : Char) : Prop :=
  ∃ rest, Outside source before (c :: rest) ∧ ¬ OpensComment (c :: rest) ∧ ¬ InAlphabet c

/-- A text as a row of characters and comments. -/
inductive Commented : List Char → Prop where
  | nil : Commented []
  | char {c : Char} {cs : List Char} : ¬ OpensComment (c :: cs) → Commented cs → Commented (c :: cs)
  | comment {inner cs : List Char} : Balanced inner → Commented cs → Commented ('.' :: '(' :: (inner ++ ')' :: cs))
  | unclosed {cs : List Char} : NeverCloses cs → Commented ('.' :: '(' :: cs)

section Comments

variable {depth : Nat} {c : Char} {cs inner before rest : List Char}

/-- What is come through and what is come to are the whole text. -/
lemma Outside.append (h : Outside cs before rest) : cs = before ++ rest := by
  induction h with
  | here => rfl
  | char _ _ ih => rw [ih, List.cons_append]
  | comment _ _ ih =>
    rw [ih]
    simp

/-- Behind a parenthesis that opens, one more has to be closed. -/
lemma closes_open_iff : Closes (depth + 1) ('(' :: cs) ↔ Closes (depth + 1 + 1) cs := by
  refine ⟨fun h => ?_, Closes.opened⟩
  generalize htext : '(' :: cs = text at h
  cases h with
  | @close _ inner rest hb h =>
    cases hb with
    | nil => cases htext
    | char ho _ _ => exact absurd (List.cons.inj htext).1.symm ho
    | @parens inner inner' hb hb' =>
      obtain ⟨_, rfl⟩ := List.cons.inj htext
      have hcloses := Closes.close hb (.close hb' h)
      simpa using hcloses

/-- Behind a parenthesis that closes, one less has to be closed. -/
lemma closes_close_iff : Closes (depth + 1) (')' :: cs) ↔ Closes depth cs := by
  refine ⟨fun h => ?_, Closes.closed⟩
  generalize htext : ')' :: cs = text at h
  cases h with
  | @close _ inner rest hb h =>
    cases hb with
    | nil =>
      obtain ⟨_, rfl⟩ := List.cons.inj htext
      exact h
    | char _ hc _ => exact absurd (List.cons.inj htext).1.symm hc
    | parens _ _ => cases htext

/-- Behind a character that is no parenthesis, as many have to be closed. -/
lemma closes_char_iff (ho : c ≠ '(') (hc : c ≠ ')') : Closes (depth + 1) (c :: cs) ↔ Closes (depth + 1) cs := by
  refine ⟨fun h => ?_, Closes.char ho hc⟩
  generalize htext : c :: cs = text at h
  cases h with
  | @close _ inner rest hb h =>
    cases hb with
    | nil => exact absurd (List.cons.inj htext).1 hc
    | char _ _ hb =>
      obtain ⟨_, rfl⟩ := List.cons.inj htext
      exact .close hb h
    | parens _ _ => exact absurd (List.cons.inj htext).1 ho

/-- An empty text closes nothing. -/
lemma closes_succ_ne_nil : ¬ Closes (depth + 1) [] := by
  intro h
  generalize htext : [] = text at h
  cases h with
  | close _ _ => simp at htext

/-- Where so many parentheses are closed does not depend on what follows. -/
lemma Closes.unique {xs ys rest' : List Char} (hx : Closes depth xs) (hy : Closes depth ys)
    (h : xs ++ rest = ys ++ rest') : xs = ys := by
  induction xs generalizing depth ys with
  | nil =>
    cases depth with
    | zero =>
      cases hy
      rfl
    | succ depth => exact absurd hx closes_succ_ne_nil
  | cons c xs ih =>
    cases depth with
    | zero => cases hx
    | succ depth =>
      cases ys with
      | nil => exact absurd hy closes_succ_ne_nil
      | cons c' ys =>
        obtain ⟨rfl, htail⟩ := List.cons.inj h
        congr 1
        by_cases ho : c = '('
        · subst ho
          exact ih (closes_open_iff.mp hx) (closes_open_iff.mp hy) htail
        by_cases hc : c = ')'
        · subst hc
          exact ih (closes_close_iff.mp hx) (closes_close_iff.mp hy) htail
        · exact ih ((closes_char_iff ho hc).mp hx) ((closes_char_iff ho hc).mp hy) htail

/-- A comment has one end. -/
lemma Balanced.unique {inner' rest' : List Char} (hb : Balanced inner) (hb' : Balanced inner')
    (h : inner ++ ')' :: rest = inner' ++ ')' :: rest') : inner = inner' ∧ rest = rest' := by
  have htext : inner ++ [')'] ++ rest = inner' ++ [')'] ++ rest' := by simpa using h
  have hsame : inner ++ [')'] = inner' ++ [')'] := Closes.unique (.close hb .done) (.close hb' .done) htext
  obtain rfl := List.append_cancel_right hsame
  exact ⟨rfl, (List.cons.inj (List.append_cancel_left h)).2⟩

/-- A comment opens where a dot stands before a parenthesis. -/
lemma opensComment_iff : OpensComment cs ↔ ∃ body, cs = '.' :: '(' :: body :=
  ⟨fun ⟨body, h⟩ => ⟨body, h.symm⟩, fun ⟨body, h⟩ => ⟨body, h.symm⟩⟩

/-- Every text is a row of characters and comments. -/
lemma commented (cs : List Char) : Commented cs := by
  match cs with
  | [] => exact .nil
  | c :: cs =>
    by_cases ho : OpensComment (c :: cs)
    · obtain ⟨body, hbody⟩ := opensComment_iff.mp ho
      by_cases hn : NeverCloses body
      · rw [hbody]
        exact .unclosed hn
      · simp only [NeverCloses, not_forall, not_not] at hn
        obtain ⟨inner, rest, hb, hrest⟩ := hn
        have hlength : rest.length < (c :: cs).length := by
          rw [hbody, hrest]
          simp only [List.length_cons, List.length_append]
          omega
        rw [hbody, hrest]
        exact .comment hb (commented rest)
    · exact .char ho (commented cs)
  termination_by cs.length
  decreasing_by
    · exact hlength
    · exact Nat.lt_succ_self _

/-- Past a character that opens no comment one comes by going over it. -/
lemma outside_char_iff (ho : ¬ OpensComment (c :: cs)) : Outside (c :: cs) before rest ↔
    before = [] ∧ rest = c :: cs ∨ ∃ before', before = c :: before' ∧ Outside cs before' rest := by
  constructor
  · intro h
    cases h with
    | here => exact .inl ⟨rfl, rfl⟩
    | char _ h => exact .inr ⟨_, rfl, h⟩
    | comment _ _ => exact absurd (opensComment_iff.mpr ⟨_, rfl⟩) ho
  · rintro (⟨rfl, rfl⟩ | ⟨before', rfl, h⟩)
    · exact .here
    · exact .char ho h

/-- Past a comment one comes by going over all of it. -/
lemma outside_comment_iff (hb : Balanced inner) : Outside ('.' :: '(' :: (inner ++ ')' :: cs)) before rest ↔
    before = [] ∧ rest = '.' :: '(' :: (inner ++ ')' :: cs) ∨
      ∃ before', before = '.' :: '(' :: (inner ++ ')' :: before') ∧ Outside cs before' rest := by
  constructor
  · intro h
    generalize htext : '.' :: '(' :: (inner ++ ')' :: cs) = text at h
    cases h with
    | here => exact .inl ⟨rfl, rfl⟩
    | char ho _ => exact absurd (opensComment_iff.mpr ⟨_, htext.symm⟩) ho
    | @comment inner' cs' before' _ hb' h =>
      obtain ⟨rfl, rfl⟩ := hb.unique hb' (List.cons.inj (List.cons.inj htext).2).2
      exact .inr ⟨before', rfl, h⟩
  · rintro (⟨rfl, rfl⟩ | ⟨before', rfl, h⟩)
    · exact .here
    · exact .comment hb h

/-- Nothing behind a comment that is never closed is outside comments. -/
lemma outside_unclosed_iff (hn : NeverCloses cs) :
    Outside ('.' :: '(' :: cs) before rest ↔ before = [] ∧ rest = '.' :: '(' :: cs := by
  constructor
  · intro h
    generalize htext : '.' :: '(' :: cs = text at h
    cases h with
    | here => exact ⟨rfl, rfl⟩
    | char ho _ => exact absurd (opensComment_iff.mpr ⟨_, htext.symm⟩) ho
    | comment hb _ => exact absurd (List.cons.inj (List.cons.inj htext).2).2 (hn _ _ hb)
  · rintro ⟨rfl, rfl⟩
    exact .here

end Comments

section Blanking

variable {pos opened : Pos} {depth : Nat} {c : Char} {cs inner before text : List Char}

/-- Two things that are done to a text one after the other are one thing that is done to it. -/
lemma then_then {x : Except LexError (List Char)} {f g : List Char → List Char} :
    ((x >>= fun text => .ok (f text)) >>= fun text => .ok (g text)) = x >>= fun text => .ok (g (f text)) := by
  cases x <;> rfl

/-- What is done to a text does not change the error. -/
lemma then_eq_error {x : Except LexError (List Char)} {f : List Char → List Char} {e : LexError} :
    (x >>= fun text => .ok (f text)) = .error e ↔ x = .error e := by
  cases x with
  | error e' => exact ⟨fun h => by cases h; rfl, fun h => by cases h; rfl⟩
  | ok text => exact ⟨nofun, nofun⟩

/-- A character that opens no comment stays, and the rest is blanked on its own. -/
lemma blankComments_char_eq (ho : ¬ OpensComment (c :: cs)) : blankComments .program pos (c :: cs) =
    blankComments .program (pos.after c) cs >>= fun text => .ok (c :: text) := by
  rw [blankComments]
  rintro cs' rfl rfl
  exact ho (opensComment_iff.mpr ⟨cs', rfl⟩)

/-- A character inside a comment is blanked, and the rest is as the comment goes on. -/
lemma blankComments_inside_eq : blankComments (.comment opened depth) pos (c :: cs) =
    blankComments (Zone.inside opened depth c) (pos.after c) cs >>= fun text => .ok (blank c :: text) := by
  rw [blankComments]
  rfl

/-- Unless the comment ends with this character, it goes on at some depth, and so does what closes it. -/
lemma inside_cases (opened : Pos) (depth : Nat) (c : Char) : (c = ')' ∧ depth = 0) ∨
    ∃ d, Zone.inside opened (depth + 1) c = .comment opened (d + 1) ∧
      ∀ cs, Closes (depth + 1) (c :: cs) ↔ Closes (d + 1) cs := by
  by_cases ho : c = '('
  · subst ho
    exact .inr ⟨depth + 1, rfl, fun _ => closes_open_iff⟩
  by_cases hc : c = ')'
  · subst hc
    cases depth with
    | zero => exact .inl ⟨rfl, rfl⟩
    | succ depth => exact .inr ⟨depth, inside_close opened depth, fun _ => closes_close_iff⟩
  · exact .inr ⟨depth, inside_char opened _ ho hc, fun _ => closes_char_iff ho hc⟩

/-- In a comment the text is blanked up to where the comment closes. -/
lemma blankComments_closes {closing : List Char} (hcl : Closes (depth + 1) closing) :
    blankComments (.comment opened (depth + 1)) pos (closing ++ cs) =
      blankComments .program (pos.afterAll closing) cs >>= fun text => .ok (closing.map blank ++ text) := by
  induction closing generalizing depth pos with
  | nil => exact absurd hcl closes_succ_ne_nil
  | cons c closing ih =>
    rw [List.cons_append, blankComments_inside_eq]
    rcases inside_cases opened depth c with ⟨rfl, rfl⟩ | ⟨d, hz, hd⟩
    · cases closes_close_iff.mp hcl
      rfl
    · rw [hz, ih ((hd _).mp hcl), then_then]
      rfl

/-- A comment that does not close is refused where it opened. -/
lemma blankComments_never (hn : ∀ closing rest, Closes (depth + 1) closing → cs ≠ closing ++ rest) :
    blankComments (.comment opened (depth + 1)) pos cs = .error ⟨opened, '.'⟩ := by
  induction cs generalizing depth pos with
  | nil => rw [blankComments]
  | cons c cs ih =>
    rw [blankComments_inside_eq]
    rcases inside_cases opened depth c with ⟨rfl, rfl⟩ | ⟨d, hz, hd⟩
    · exact absurd rfl (hn [')'] cs Closes.done.closed)
    · rw [hz, ih fun closing rest hcl htext => hn (c :: closing) rest ((hd _).mpr hcl) (congrArg (c :: ·) htext)]
      rfl

/-- A comment is blanked as a whole, and the rest on its own. -/
lemma blankComments_comment_eq (hb : Balanced inner) :
    blankComments .program pos ('.' :: '(' :: (inner ++ ')' :: cs)) =
      blankComments .program (pos.afterAll ('.' :: '(' :: (inner ++ [')']))) cs >>= fun text =>
        .ok (('.' :: '(' :: (inner ++ [')'])).map blank ++ text) := by
  have hends : Closes 1 (inner ++ [')']) := .close hb .done
  rw [blankComments, List.append_cons, blankComments_closes hends, then_then]
  rfl

/-- A comment that is never closed is refused at its dot. -/
lemma blankComments_unclosed (hn : NeverCloses cs) :
    blankComments .program pos ('.' :: '(' :: cs) = .error ⟨pos, '.'⟩ := by
  rw [blankComments, blankComments_never]
  · rfl
  · intro closing rest hcl happ
    obtain ⟨inner, hb, rfl⟩ := hcl.of_one
    rw [List.append_assoc] at happ
    exact hn inner rest hb happ

/-- Behind a character that opens no comment, the same comment is never closed. -/
lemma unclosed_char_iff (ho : ¬ OpensComment (c :: cs)) :
    Unclosed (c :: cs) before ↔ ∃ before', before = c :: before' ∧ Unclosed cs before' := by
  constructor
  · rintro ⟨body, h, hn⟩
    rcases (outside_char_iff ho).mp h with ⟨_, hbody⟩ | ⟨before', rfl, hrest⟩
    · exact absurd (opensComment_iff.mpr ⟨body, hbody.symm⟩) ho
    · exact ⟨before', rfl, body, hrest, hn⟩
  · rintro ⟨before', rfl, body, h, hn⟩
    exact ⟨body, .char ho h, hn⟩

/-- Behind a comment that is closed, the same comment is never closed. -/
lemma unclosed_comment_iff (hb : Balanced inner) : Unclosed ('.' :: '(' :: (inner ++ ')' :: cs)) before ↔
    ∃ before', before = '.' :: '(' :: (inner ++ ')' :: before') ∧ Unclosed cs before' := by
  constructor
  · rintro ⟨body, h, hn⟩
    rcases (outside_comment_iff hb).mp h with ⟨_, hbody⟩ | ⟨before', rfl, hrest⟩
    · exact absurd (List.cons.inj (List.cons.inj hbody).2).2 (hn _ _ hb)
    · exact ⟨before', rfl, body, hrest, hn⟩
  · rintro ⟨before', rfl, body, h, hn⟩
    exact ⟨body, .comment hb h, hn⟩

/-- In a comment that is never closed, none but this one counts. -/
lemma unclosed_iff (hn : NeverCloses cs) : Unclosed ('.' :: '(' :: cs) before ↔ before = [] := by
  constructor
  · rintro ⟨_, h, _⟩
    exact ((outside_unclosed_iff hn).mp h).1
  · rintro rfl
    exact ⟨cs, .here, hn⟩

/-- Comments are blanked unless one of them is not closed. -/
lemma blankComments_eq_error_iff {e : LexError} : blankComments .program pos cs = .error e ↔
    ∃ before, Unclosed cs before ∧ e = ⟨pos.afterAll before, '.'⟩ := by
  induction commented cs generalizing pos with
  | nil =>
    rw [blankComments]
    constructor
    · intro h
      cases h
    · rintro ⟨_, ⟨_, h, _⟩, _⟩
      cases h
  | char ho _ ih =>
    rw [blankComments_char_eq ho, then_eq_error, ih]
    simp only [unclosed_char_iff ho]
    constructor
    · rintro ⟨before, h, rfl⟩
      exact ⟨_, ⟨before, rfl, h⟩, rfl⟩
    · rintro ⟨_, ⟨before, rfl, h⟩, rfl⟩
      exact ⟨before, h, rfl⟩
  | comment hb _ ih =>
    rw [blankComments_comment_eq hb, then_eq_error, ih]
    simp only [unclosed_comment_iff hb]
    constructor
    · rintro ⟨before, h, rfl⟩
      exact ⟨_, ⟨before, rfl, h⟩, by simp⟩
    · rintro ⟨_, ⟨before, rfl, h⟩, rfl⟩
      exact ⟨before, h, by simp⟩
  | unclosed hn =>
    rw [blankComments_unclosed hn]
    simp only [unclosed_iff hn]
    constructor
    · intro h
      cases h
      exact ⟨[], rfl, rfl⟩
    · rintro ⟨_, rfl, rfl⟩
      rfl

end Blanking

section Strays

variable {pos : Pos} {c x : Char} {cs inner before text : List Char} {e : LexError}

/-- The alphabet is white space, the characters of words, and signs. -/
lemma inAlphabet_iff : InAlphabet c ↔ isSpace c = true ∨ isWordChar c = true ∨ isSign c = true := by
  simp only [InAlphabet, isSpace, isWordChar, isSign, Bool.or_eq_true, beq_iff_eq, List.contains_iff_mem, List.mem_cons,
    List.not_mem_nil, or_false]
  tauto

/-- Blanked characters are in the alphabet. -/
lemma inAlphabet_blank (c : Char) : InAlphabet (blank c) := inAlphabet_iff.mpr (.inl (isSpace_blank c))

/-- Lexemes are written in the alphabet. -/
lemma Lexeme.inAlphabet {kind : TokenKind} {word : List Char} (h : Lexeme kind word) : ∀ c ∈ word, InAlphabet c := by
  intro c hc
  rcases h.chars c hc with hword | hdigit | hsign
  · exact inAlphabet_iff.mpr (.inr (.inl hword))
  · left
    rw [Char.isAlphanum, hdigit, Bool.or_true]
  · exact inAlphabet_iff.mpr (.inr (.inr hsign))

/-- A character from which no lexeme can be cut is not in the alphabet. -/
lemma not_inAlphabet_of_lexeme? (hs : isSpace c ≠ true) (h : lexeme? c cs = none) : ¬ InAlphabet c := by
  unfold lexeme? at h
  split at h
  · cases h
  split at h
  · cases h
  split at h
  · cases h
  next hword hdigit hsign =>
  rw [inAlphabet_iff]
  rintro (hspace | hchar | hsign')
  · exact hs hspace
  · simp only [isWordStart, isWordChar, Char.isAlphanum, Bool.or_eq_true] at hword hchar
    tauto
  · exact hsign hsign'

/-- A text without comments is refused at its first character that is not in the alphabet. -/
lemma scan_error (h : scan pos text = .error e) : ∃ before c rest, text = before ++ c :: rest ∧
    (∀ x ∈ before, InAlphabet x) ∧ ¬ InAlphabet c ∧ e = ⟨pos.afterAll before, c⟩ := by
  fun_induction scan pos text with
  | case1 => cases h
  | case2 pos c cs hc ih =>
    obtain ⟨before, x, rest, rfl, hbefore, hx, he⟩ := ih h
    exact ⟨c :: before, x, rest, rfl, List.forall_mem_cons.mpr ⟨inAlphabet_iff.mpr (.inl hc), hbefore⟩, hx, he⟩
  | case3 pos c cs hc hread =>
    cases h
    exact ⟨[], c, cs, rfl, nofun, not_inAlphabet_of_lexeme? hc hread, rfl⟩
  | case4 pos c cs hc kind word rest hread ih =>
    obtain ⟨hl, _, happ⟩ := lexeme_of_lexeme? hread
    rcases bind_eq_error.mp h with h | ⟨_, _, h⟩
    · obtain ⟨before, x, rest', rfl, hbefore, hx, he⟩ := ih h
      refine ⟨word ++ before, x, rest', by rw [happ, List.append_assoc], ?_, hx, ?_⟩
      · exact List.forall_mem_append.mpr ⟨hl.inAlphabet, hbefore⟩
      · rw [he, Pos.afterAll_append]
    · cases h

/-- A text without comments that is cut into tokens is written in the alphabet. -/
lemma scan_inAlphabet {tokens : List Token} (h : scan pos text = .ok tokens) : ∀ x ∈ text, InAlphabet x := by
  fun_induction scan pos text generalizing tokens with
  | case1 => exact List.forall_mem_nil _
  | case2 pos c cs hc ih => exact List.forall_mem_cons.mpr ⟨inAlphabet_iff.mpr (.inl hc), ih h⟩
  | case3 => cases h
  | case4 pos c cs hc kind word rest hread ih =>
    obtain ⟨hl, _, happ⟩ := lexeme_of_lexeme? hread
    obtain ⟨tokens', hscan, _⟩ := bind_eq_ok.mp h
    rw [happ]
    exact List.forall_mem_append.mpr ⟨hl.inAlphabet, ih hscan⟩

/-- A stray character stands in the blanked text where it stands in the source. -/
lemma Stray.in_text (hb : blankComments .program pos cs = .ok text) (h : Stray cs before x) :
    ∃ before' rest, text = before' ++ x :: rest ∧ before'.length = before.length := by
  obtain ⟨rest, h, ho, _⟩ := h
  generalize hrest : x :: rest = xs at h
  induction h generalizing pos text with
  | here =>
    subst hrest
    rw [blankComments_char_eq ho] at hb
    obtain ⟨text', _, ht⟩ := bind_eq_ok.mp hb
    cases ht
    exact ⟨[], text', rfl, rfl⟩
  | char ho' _ ih =>
    rw [blankComments_char_eq ho'] at hb
    obtain ⟨text', hb', ht⟩ := bind_eq_ok.mp hb
    cases ht
    obtain ⟨before', rest', rfl, hlength⟩ := ih hb' hrest
    exact ⟨_ :: before', rest', rfl, congrArg (· + 1) hlength⟩
  | @comment inner cs before _ hbal _ ih =>
    rw [blankComments_comment_eq hbal] at hb
    obtain ⟨text', hb', ht⟩ := bind_eq_ok.mp hb
    cases ht
    obtain ⟨before', rest', rfl, hlength⟩ := ih hb' hrest
    refine ⟨('.' :: '(' :: (inner ++ [')'])).map blank ++ before', rest', by simp, ?_⟩
    simp only [List.length_append, List.length_map, List.length_cons, List.length_nil, hlength]
    omega

/-- A character that is not in the first part of a text stands behind it. -/
lemma append_of_notMem {xs ys rest : List Char} (hx : x ∉ xs) (h : xs ++ ys = before ++ x :: rest) :
    ∃ before', before = xs ++ before' ∧ ys = before' ++ x :: rest := by
  rcases List.append_eq_append_iff.mp h with hafter | ⟨within, hxs, hrest⟩
  · exact hafter
  · cases within with
    | nil =>
      rw [List.append_nil] at hxs
      exact ⟨[], by rw [hxs, List.append_nil], hrest.symm⟩
    | cons c within =>
      obtain ⟨rfl, _⟩ := List.cons.inj hrest
      exact absurd (hxs ▸ List.mem_append_right _ List.mem_cons_self) hx

/-- What is not in the alphabet and yet stands in the blanked text is a stray character of the source. -/
lemma stray_of_text {rest : List Char} (hx : ¬ InAlphabet x)
    (hb : blankComments .program pos cs = .ok (before ++ x :: rest)) :
    ∃ before', Stray cs before' x ∧ before'.length = before.length ∧
      ∀ p : Pos, p.afterAll before' = p.afterAll before := by
  induction commented cs generalizing pos before with
  | nil =>
    rw [blankComments] at hb
    simp at hb
  | @char c cs ho _ ih =>
    rw [blankComments_char_eq ho] at hb
    obtain ⟨text', hb', ht⟩ := bind_eq_ok.mp hb
    cases before with
    | nil =>
      cases ht
      exact ⟨[], ⟨cs, .here, ho, hx⟩, rfl, fun _ => rfl⟩
    | cons c' before =>
      cases ht
      obtain ⟨before', ⟨rest', hout, hstray⟩, hlength, hpos⟩ := ih hb'
      exact ⟨c :: before', ⟨rest', .char ho hout, hstray⟩, congrArg (· + 1) hlength, fun p => hpos (p.after c)⟩
  | @comment inner cs hbal _ ih =>
    rw [blankComments_comment_eq hbal] at hb
    obtain ⟨text', hb', ht⟩ := bind_eq_ok.mp hb
    have hblank : x ∉ ('.' :: '(' :: (inner ++ [')'])).map blank := by
      intro hmem
      obtain ⟨c, _, rfl⟩ := List.mem_map.mp hmem
      exact hx (inAlphabet_blank c)
    obtain ⟨before, rfl, rfl⟩ := append_of_notMem hblank (Except.ok.inj ht)
    obtain ⟨before', ⟨rest', hout, hstray⟩, hlength, hpos⟩ := ih hb'
    refine ⟨_, ⟨rest', .comment hbal hout, hstray⟩, ?_, fun p => ?_⟩
    · simp only [List.length_append, List.length_map, List.length_cons, List.length_nil, hlength]
      omega
    · rw [Pos.afterAll_append, afterAll_map_blank, ← hpos]
      simp
  | unclosed hn =>
    rw [blankComments_unclosed hn] at hb
    cases hb

end Strays

section Refusal

variable {pos : Pos} {cs : List Char}

/-- Where no comment opens, nothing is blanked. -/
lemma blankComments_of_no_comment (h : ¬ ['.', '('] <:+: cs) : blankComments .program pos cs = .ok cs := by
  induction cs generalizing pos with
  | nil => rw [blankComments]
  | cons c cs ih =>
    obtain ⟨hopen, hinside⟩ := not_or.mp (mt List.infix_cons_iff.mpr h)
    rw [blankComments_char_eq hopen, ih hinside]
    rfl

/-- Two first strays are one. -/
lemma Stray.unique {source before before' : List Char} {c c' : Char} (h : Stray source before c)
    (h' : Stray source before' c') (hlength : before.length = before'.length) : before = before' ∧ c = c' := by
  obtain ⟨rest, hout, _⟩ := h
  obtain ⟨rest', hout', _⟩ := h'
  obtain ⟨hbefore, hrest⟩ := List.append_inj (hout.append.symm.trans hout'.append) hlength
  exact ⟨hbefore, (List.cons.inj hrest).1⟩

/-- What is reported once comments are blanked is the first stray character. -/
lemma first_stray {source text : List Char} {e : LexError} (hb : blankComments .program .start source = .ok text)
    (hs : scan .start text = .error e) : ∃ before c, Stray source before c ∧
      (∀ before' c', Stray source before' c' → before.length ≤ before'.length) ∧ e = ⟨.behind before, c⟩ := by
  obtain ⟨front, c, rest, rfl, hfront, hc, rfl⟩ := scan_error hs
  obtain ⟨before, hstray, hlength, hpos⟩ := stray_of_text hc hb
  refine ⟨before, c, hstray, fun before' c' hstray' => ?_, by rw [← hpos, Pos.afterAll_start]⟩
  -- another stray character is not in the front part, which has characters of the alphabet only
  obtain ⟨front', rest', htext, hlength'⟩ := hstray'.in_text hb
  obtain ⟨_, _, _, hc'⟩ := hstray'
  obtain ⟨between, rfl, _⟩ := append_of_notMem (fun hmem => hc' (hfront c' hmem)) htext
  rw [hlength, ← hlength', List.length_append]
  exact Nat.le_add_right _ _

/-- All comments are closed if and only if the source can be freed of them. -/
lemma no_unclosed_iff {source : List Char} :
    (∀ before, ¬ Unclosed source before) ↔ ∃ text, blankComments .program .start source = .ok text := by
  constructor
  · intro hno
    cases hb : blankComments .program .start source with
    | error e =>
      obtain ⟨before, h, _⟩ := blankComments_eq_error_iff.mp hb
      exact absurd h (hno before)
    | ok text => exact ⟨text, rfl⟩
  · rintro ⟨text, hb⟩ before h
    have herror : blankComments .program .start source = .error ⟨Pos.afterAll .start before, '.'⟩ :=
      blankComments_eq_error_iff.mpr ⟨before, h, rfl⟩
    rw [hb] at herror
    cases herror

/-- Bytes are cut into tokens unless one of two things is wrong with the text that they are read as. A comment that
opens outside any other is never closed: its dot is reported. Or all comments are closed, and outside them there is a
character that is not in the alphabet: the first of these is reported. Either is reported with its line and its column,
which counts characters. If no comment can open, since no dot is followed by a parenthesis in the bytes, the text is cut
into tokens as it is. -/
theorem refused_iff (bytes : List UInt8) :
    Text.Decodes bytes (Text.decode bytes) ∧
    (∀ e, ofSource (Text.decode bytes) = .error e ↔
      (∃ before, Unclosed (Text.decode bytes) before ∧ e = ⟨.behind before, '.'⟩) ∨
      (∀ before, ¬ Unclosed (Text.decode bytes) before) ∧ ∃ before c, Stray (Text.decode bytes) before c ∧
        (∀ before' c', Stray (Text.decode bytes) before' c' → before.length ≤ before'.length) ∧
        e = ⟨.behind before, c⟩) ∧
    (¬ [0x2E, 0x28] <:+: bytes → ofSource (Text.decode bytes) = scan .start (Text.decode bytes)) := by
  have hdecodes := Text.decodes_decode bytes
  generalize Text.decode bytes = source at hdecodes ⊢
  refine ⟨hdecodes, fun e => ?_, fun hno => ?_⟩
  · have hunclosed := @blankComments_eq_error_iff .start source
    simp only [Pos.afterAll_start] at hunclosed
    refine bind_eq_error.trans (or_congr hunclosed ?_)
    rw [no_unclosed_iff]
    constructor
    · rintro ⟨text, hb, hs⟩
      exact ⟨⟨text, hb⟩, first_stray hb hs⟩
    · rintro ⟨⟨text, hb⟩, before, c, hstray, hfirst, rfl⟩
      refine ⟨text, hb, ?_⟩
      cases hs : scan .start text with
      | ok tokens =>
        obtain ⟨front, rest, rfl, _⟩ := hstray.in_text hb
        obtain ⟨_, _, _, hc⟩ := hstray
        exact absurd (scan_inAlphabet hs c (by simp)) hc
      | error e =>
        obtain ⟨before', c', hstray', hfirst', rfl⟩ := first_stray hb hs
        have hlength := Nat.le_antisymm (hfirst _ _ hstray') (hfirst' _ _ hstray)
        obtain ⟨rfl, rfl⟩ := hstray.unique hstray' hlength
        rfl
  · have hascii : ∀ c ∈ ['.', '('], c.toNat < 0x80 :=
      List.forall_mem_cons.mpr ⟨by decide, List.forall_mem_singleton.mpr (by decide)⟩
    have hsource : ¬ ['.', '('] <:+: source := fun h => hno (hdecodes.ascii_infix hascii h)
    show blankComments .program .start source >>= scan .start = _
    rw [blankComments_of_no_comment hsource]
    rfl

/-- A comment over two lines, with a parenthesis nested in it, and behind it a byte that is no character. -/
def brokenByte : List UInt8 := [0x61, 0x2E, 0x28, 0xC3, 0xA9, 0x0A, 0x28, 0x29, 0x29, 0x20, 0xFF, 0x2E]

/-- A character that belongs to nothing, and behind it a comment of which one parenthesis is closed. -/
def brokenComment : List UInt8 := [0x3F, 0x0A, 0x20, 0x2E, 0x28, 0x28, 0x29]

/-- In `brokenByte` the byte that is no character is reported, and in `brokenComment` the comment. -/
theorem broken_refused :
    ofSource (Text.decode brokenByte) = .error ⟨⟨2, 5⟩, Text.replacement⟩ ∧
    (∃ before, Stray (Text.decode brokenByte) before Text.replacement ∧ Pos.behind before = ⟨2, 5⟩) ∧
    ofSource (Text.decode brokenComment) = .error ⟨⟨2, 2⟩, '.'⟩ ∧
    ∃ before, Unclosed (Text.decode brokenComment) before ∧ Pos.behind before = ⟨2, 2⟩ := by
  have hbyte : ofSource (Text.decode brokenByte) = .error ⟨⟨2, 5⟩, Text.replacement⟩ := by decide +kernel
  have hblank : blankComments .program .start (Text.decode brokenComment) = .error ⟨⟨2, 2⟩, '.'⟩ := by decide +kernel
  have hcomment : ofSource (Text.decode brokenComment) = .error ⟨⟨2, 2⟩, '.'⟩ := bind_eq_error.mpr (.inl hblank)
  refine ⟨hbyte, ?_, hcomment, ?_⟩
  · rcases ((refused_iff brokenByte).2.1 _).mp hbyte with ⟨_, _, he⟩ | ⟨_, before, c, hstray, _, he⟩
    · have hdot : Text.replacement = '.' := congrArg LexError.char he
      exact absurd hdot (by decide)
    · obtain ⟨hpos, rfl⟩ := (LexError.mk.injEq ..).mp he
      exact ⟨before, hstray, hpos.symm⟩
  · rcases ((refused_iff brokenComment).2.1 _).mp hcomment with ⟨before, h, he⟩ | ⟨hclosed, _⟩
    · exact ⟨before, h, (congrArg LexError.pos he).symm⟩
    · obtain ⟨before, h, _⟩ := blankComments_eq_error_iff.mp hblank
      exact absurd h (hclosed before)

end Refusal

end Token

end Croupier
