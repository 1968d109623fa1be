import Mathlib.Data.List.Basic
import Croupier.Token.Cursor
import Croupier.Proofs.Except

/-!
# Walks over a list of tokens

A cursor holds the tokens that are still to be read, and past the last of them it sees an end of input. A walk reads the
list itself, by position: it looks at the token at its position and goes on by one, but not past an end of input. So it
can leave the list (`Halt.outside`), and with the fuel that it is given it can fail to finish (`Halt.unfinished`).

On a list with an end of input in it (`Tape`), a walk follows a reader of cursors if it reads the same and comes to the
same place, or is refused with the same error (`Follows`); then it neither leaves the list nor fails to finish.
-/

namespace Croupier

/-- Why a walk comes to nothing. -/
inductive Halt where
  | refused (error : ParseError)
  | outside
  | unfinished
  deriving DecidableEq, Repr

/-- A walk over a list of tokens, from a position to what it reads and the position after that. -/
abbrev Walk := StateT Nat (Except Halt)

namespace Walk

variable {α : Type}

/-- Refuses with an error. -/
def refuse (error : ParseError) : Walk α := fun _ => .error (.refused error)

/-- Comes to no end, since there is no fuel left. -/
def giveUp : Walk α := fun _ => .error .unfinished

/-- Goes no further and takes a result as it is. -/
def ofResult : Except ParseError α → Walk α
  | .ok a => pure a
  | .error e => refuse e

section Tokens

variable (tokens : List Token)

/-- The token at the position. -/
def look : Walk Token := fun i =>
  match tokens[i]? with
  | some t => .ok (t, i)
  | none => .error .outside

/-- The token after the one at the position, or the last one if there is none. -/
def lookAhead : Walk Token := fun i =>
  match tokens[min (i + 1) (tokens.length - 1)]? with
  | some t => .ok (t, i)
  | none => .error .outside

/-- Goes on by one token, but not past an end of input. -/
def next : Walk Unit := do
  let t ← look tokens
  if t.kind = .endOfInput then pure () else fun i => .ok ((), i + 1)

/-- Refuses what is at the position in place of something expected. -/
def unexpected (expected : String) : Walk α := do
  let t ← look tokens
  refuse { pos := t.pos, expected := expected, found := t.describe }

/-- Tells whether a sign is at the position. -/
def atPunct (sign : String) : Walk Bool := do
  let t ← look tokens
  pure (t.isPunct sign)

/-- Tells whether a keyword is at the position. -/
def atKeyword (word : String) : Walk Bool := do
  let t ← look tokens
  pure (t.isKeyword word)

/-- Reads a given sign. -/
def punct (sign : String) : Walk Unit := do
  let here ← atPunct tokens sign
  if here then next tokens else unexpected tokens (Text.quote sign)

/-- Reads a word that is not reserved. -/
def ident (what : String) : Walk Token := do
  let t ← look tokens
  if t.kind = .ident then do
    next tokens
    pure t
  else unexpected tokens what

/-- Reads a number. -/
def int (what : String) : Walk Int := do
  let t ← look tokens
  if t.kind = .int then do
    next tokens
    match Numeral.readInt? t.text with
    | some n => pure n
    | none => refuse { pos := t.pos, expected := what, found := t.describe }
  else unexpected tokens what

end Tokens

end Walk

/-- A list of tokens with an end of input in it: what stands before the first one, that end, and what follows it. -/
structure Tape where
  front : List Token
  last : Token
  beyond : List Token
  front_ne : ∀ t ∈ front, t.kind ≠ .endOfInput
  last_eq : last.kind = .endOfInput

namespace Tape

/-- All tokens of a tape. -/
def tokens (tape : Tape) : List Token := tape.front ++ tape.last :: tape.beyond

/-- A cursor stands in front of what is at a position. -/
structure Stands (tape : Tape) (i : Nat) (c : Cursor) : Prop where
  le : i ≤ tape.front.length
  rest : c.rest = tape.front.drop i
  stop : c.stop = tape.last.pos

end Tape

/-- One token can be taken for another: ends of input may be spelled in any way. -/
structure Token.Resembles (t t' : Token) : Prop where
  kind : t.kind = t'.kind
  pos : t.pos = t'.pos
  text : t.kind ≠ .endOfInput → t.text = t'.text

namespace Token.Resembles

variable {t t' : Token}

/-- A token that can be taken for one that is no end of input is that one. -/
lemma eq_of_kind (h : t.Resembles t') (hk : t'.kind ≠ .endOfInput) : t = t' := by
  obtain ⟨kind, text, pos⟩ := t
  obtain ⟨kind', text', pos'⟩ := t'
  obtain rfl : kind = kind' := h.kind
  obtain rfl : text = text' := h.text hk
  obtain rfl : pos = pos' := h.pos
  rfl

/-- Tokens that can be taken for each other are the same, or both are ends of input. -/
lemma eq_or_end (h : t.Resembles t') : t = t' ∨ t.kind = .endOfInput ∧ t'.kind = .endOfInput := by
  by_cases hk : t'.kind = .endOfInput
  · exact .inr ⟨h.kind.trans hk, hk⟩
  · exact .inl (h.eq_of_kind hk)

/-- Tokens that can be taken for each other are described alike. -/
lemma describe_eq (h : t.Resembles t') : t.describe = t'.describe := by
  rcases h.eq_or_end with rfl | ⟨hk, hk'⟩
  · rfl
  · unfold describe
    rw [hk, hk']

/-- Tokens that can be taken for each other are the same sign or none. -/
lemma isPunct_eq (h : t.Resembles t') (sign : String) : t.isPunct sign = t'.isPunct sign := by
  rcases h.eq_or_end with rfl | ⟨hk, hk'⟩
  · rfl
  · simp [isPunct, hk, hk']

/-- Tokens that can be taken for each other are the same keyword or none. -/
lemma isKeyword_eq (h : t.Resembles t') (word : String) : t.isKeyword word = t'.isKeyword word := by
  rcases h.eq_or_end with rfl | ⟨hk, hk'⟩
  · rfl
  · simp [isKeyword, hk, hk']

end Token.Resembles

namespace Tape

variable {tape : Tape} {i : Nat} {c : Cursor}

/-- At the position of a cursor there is a token, and the cursor sees it. -/
lemma Stands.look (h : tape.Stands i c) : ∃ t, Walk.look tape.tokens i = .ok (t, i) ∧ t.Resembles c.peek := by
  obtain ⟨rest, stop⟩ := c
  obtain ⟨hle, rfl, rfl⟩ := h
  unfold Walk.look tokens Cursor.peek
  rcases Nat.lt_or_eq_of_le hle with hlt | rfl
  · rw [List.getElem?_append_left hlt, List.getElem?_eq_getElem hlt, List.drop_eq_getElem_cons hlt]
    exact ⟨_, rfl, rfl, rfl, fun _ => rfl⟩
  · rw [List.getElem?_append_right (Nat.le_refl _), Nat.sub_self, List.drop_length]
    exact ⟨_, rfl, tape.last_eq, rfl, fun hk => absurd tape.last_eq hk⟩

/-- A cursor sees an end of input at the first one only. -/
lemma Stands.lt_iff (h : tape.Stands i c) : i < tape.front.length ↔ c.peek.kind ≠ .endOfInput := by
  obtain ⟨rest, stop⟩ := c
  obtain ⟨hle, rfl, rfl⟩ := h
  unfold Cursor.peek
  constructor
  · intro hlt
    rw [List.drop_eq_getElem_cons hlt]
    exact tape.front_ne _ (List.getElem_mem hlt)
  · intro hk
    refine Nat.lt_of_le_of_ne hle ?_
    rintro rfl
    rw [List.drop_length] at hk
    exact hk rfl

/-- A cursor is at the end if it sees an end of input. -/
lemma Stands.atEnd_iff (h : tape.Stands i c) : c.atEnd = true ↔ c.peek.kind = .endOfInput := by
  rw [← not_iff_not, ← ne_eq (c.peek.kind), ← h.lt_iff, Cursor.atEnd, h.rest, List.isEmpty_iff, List.drop_eq_nil_iff,
    Nat.not_le]

/-- A cursor that sees an end of input has nothing left to read. -/
lemma Stands.eq_of_end (h : tape.Stands i c) (hend : c.peek.kind = .endOfInput) : c = ⟨[], tape.last.pos⟩ := by
  have hempty := h.atEnd_iff.mpr hend
  obtain ⟨rest, stop⟩ := c
  obtain rfl : stop = tape.last.pos := h.stop
  obtain rfl : rest = [] := List.isEmpty_iff.mp hempty
  rfl

/-- Before the end both go on by one token. -/
lemma Stands.advance (h : tape.Stands i c) (hlt : i < tape.front.length) : tape.Stands (i + 1) c.advance where
  le := hlt
  rest := by
    unfold Cursor.advance
    rw [h.rest, List.tail_drop]
  stop := h.stop

/-- At the end the cursor stays where it is. -/
lemma Stands.advance_end (h : tape.Stands i c) (hend : ¬ i < tape.front.length) : c.advance = c := by
  obtain ⟨rest, stop⟩ := c
  obtain rfl : i = tape.front.length := Nat.le_antisymm h.le (Nat.le_of_not_lt hend)
  obtain rfl : rest = [] := h.rest.trans List.drop_length
  rfl

/-- A token that is not an end of input is followed by another, which the cursor sees after it. -/
lemma Stands.lookAhead (h : tape.Stands i c) (hk : c.peek.kind ≠ .endOfInput) :
    ∃ t, Walk.lookAhead tape.tokens i = .ok (t, i) ∧ t.Resembles c.advance.peek := by
  have hlt := h.lt_iff.mpr hk
  obtain ⟨t, ht, hsees⟩ := (h.advance hlt).look
  have hmin : min (i + 1) (tape.tokens.length - 1) = i + 1 := by
    simp only [tokens, List.length_append, List.length_cons]
    omega
  refine ⟨t, ?_, hsees⟩
  unfold Walk.lookAhead
  rw [hmin]
  unfold Walk.look at ht
  split at ht
  · cases ht
    rfl
  · cases ht

/-- A walk goes on where the cursor does. -/
lemma Stands.next (h : tape.Stands i c) : ∃ j, Walk.next tape.tokens i = .ok ((), j) ∧ tape.Stands j c.advance := by
  obtain ⟨t, ht, hsees⟩ := h.look
  have hnext : Walk.next tape.tokens i =
      (if t.kind = .endOfInput then pure () else fun i => .ok ((), i + 1) : Walk Unit) i := by
    show Walk.look tape.tokens i >>= _ = _
    rw [ht]
    rfl
  rw [hnext, hsees.kind]
  by_cases hlt : i < tape.front.length
  · rw [if_neg (h.lt_iff.mp hlt)]
    exact ⟨i + 1, rfl, h.advance hlt⟩
  · rw [if_pos (not_not.mp (mt h.lt_iff.mpr hlt)), h.advance_end hlt]
    exact ⟨i, rfl, h⟩

end Tape

section Following

variable {α β : Type} {tape : Tape} {i j : Nat} {c : Cursor} {x y : Except ParseError (β × Cursor)}

/-- A walk reads what a reader of cursors reads and comes to the same place, or is refused with the same error. -/
inductive Follows {α : Type} (tape : Tape) : Except Halt (α × Nat) → Except ParseError (α × Cursor) → Prop where
  | ok {a : α} {i : Nat} {c : Cursor} : tape.Stands i c → Follows tape (.ok (a, i)) (.ok (a, c))
  | error {e : ParseError} : Follows tape (.error (.refused e)) (.error e)

/-- A walk in two parts follows a reader in two parts, if each part follows its own. -/
lemma Follows.bind {w : Walk α} {k : α → Walk β} {x : Except ParseError (α × Cursor)}
    {f : α × Cursor → Except ParseError (β × Cursor)} (hw : Follows tape (w i) x)
    (hk : ∀ a j c, x = .ok (a, c) → tape.Stands j c → Follows tape (k a j) (f (a, c))) :
    Follows tape ((w >>= k) i) (x >>= f) := by
  show Follows tape (w i >>= fun r => k r.1 r.2) (x >>= f)
  generalize w i = r at hw
  cases hw with
  | ok h => exact hk _ _ _ rfl h
  | error => exact .error

/-- A walk that follows a reader gives what the reader gives, or is refused as it is. -/
lemma Follows.map_eq {w : Except Halt (α × Nat)} {y : Except ParseError α}
    (h : Follows tape w (y >>= fun a => .ok (a, c))) : w.map (·.1) = y.mapError .refused := by
  cases y with
  | ok a =>
    have hok : Follows tape w (.ok (a, c)) := h
    cases hok with
    | ok _ => rfl
  | error e =>
    have herror : Follows tape w (.error e) := h
    cases herror with
    | error => rfl

/-- A test is followed by another one that comes out alike. -/
lemma Follows.ite_iff {p q : Prop} [Decidable p] [Decidable q] {w w' : Walk β} (hpq : p ↔ q)
    (hx : q → Follows tape (w i) x) (hy : ¬ q → Follows tape (w' i) y) :
    Follows tape ((if p then w else w') i) (if q then x else y) := by
  by_cases hq : q
  · rw [if_pos (hpq.mpr hq), if_pos hq]
    exact hx hq
  · rw [if_neg (mt hpq.mp hq), if_neg hq]
    exact hy hq

/-- A test is followed by the same test. -/
lemma Follows.ite {p : Prop} [Decidable p] {w w' : Walk β} (hx : p → Follows tape (w i) x)
    (hy : ¬ p → Follows tape (w' i) y) : Follows tape ((if p then w else w') i) (if p then x else y) :=
  .ite_iff .rfl hx hy

/-- What a walk sees can be taken for what the cursor sees. -/
lemma follows_look {k : Token → Walk β} (h : tape.Stands i c)
    (hk : ∀ t, t.Resembles c.peek → Follows tape (k t i) x) :
    Follows tape ((Walk.look tape.tokens >>= k) i) x := by
  obtain ⟨t, ht, hsees⟩ := h.look
  show Follows tape (Walk.look tape.tokens i >>= fun r => k r.1 r.2) x
  rw [ht]
  exact hk t hsees

/-- What a walk sees one token ahead can be taken for what the cursor sees after it has gone on. -/
lemma follows_lookAhead {k : Token → Walk β} (h : tape.Stands i c) (hne : c.peek.kind ≠ .endOfInput)
    (hk : ∀ t, t.Resembles c.advance.peek → Follows tape (k t i) x) :
    Follows tape ((Walk.lookAhead tape.tokens >>= k) i) x := by
  obtain ⟨t, ht, hsees⟩ := h.lookAhead hne
  show Follows tape (Walk.lookAhead tape.tokens i >>= fun r => k r.1 r.2) x
  rw [ht]
  exact hk t hsees

/-- A walk that has gone on stands where the cursor does after it has. -/
lemma follows_next {k : Unit → Walk β} (h : tape.Stands i c)
    (hk : ∀ j, tape.Stands j c.advance → Follows tape (k () j) x) :
    Follows tape ((Walk.next tape.tokens >>= k) i) x := by
  obtain ⟨j, hj, hadvance⟩ := h.next
  show Follows tape (Walk.next tape.tokens i >>= fun r => k r.1 r.2) x
  rw [hj]
  exact hk j hadvance

/-- A walk reports what the cursor finds in place of something expected. -/
lemma follows_unexpected (h : tape.Stands i c) (expected : String) :
    Follows tape ((Walk.unexpected tape.tokens expected : Walk α) i) (.error (c.unexpected expected)) := by
  refine follows_look h fun t ht => ?_
  unfold Cursor.unexpected
  rw [← ht.pos, ← ht.describe_eq]
  exact .error

/-- A walk sees a sign if the cursor does. -/
lemma follows_atPunct {k : Bool → Walk β} {sign : String} (h : tape.Stands i c)
    (hk : Follows tape (k (c.atPunct sign) i) x) :
    Follows tape ((Walk.atPunct tape.tokens sign >>= k) i) x := by
  unfold Walk.atPunct
  rw [bind_assoc]
  refine follows_look h fun t ht => ?_
  rw [pure_bind, ht.isPunct_eq]
  exact hk

/-- A walk sees a keyword if the cursor does. -/
lemma follows_atKeyword {k : Bool → Walk β} {word : String} (h : tape.Stands i c)
    (hk : Follows tape (k (c.atKeyword word) i) x) :
    Follows tape ((Walk.atKeyword tape.tokens word >>= k) i) x := by
  unfold Walk.atKeyword
  rw [bind_assoc]
  refine follows_look h fun t ht => ?_
  rw [pure_bind, ht.isKeyword_eq]
  exact hk

/-- A walk reads a sign if the cursor does, and goes on from the same place. -/
lemma follows_punct {sign : String} {k : Unit → Walk β} {f : Cursor → Except ParseError (β × Cursor)}
    (h : tape.Stands i c)
    (hk : ∀ j c', c.punct sign = .ok c' → tape.Stands j c' → Follows tape (k () j) (f c')) :
    Follows tape ((Walk.punct tape.tokens sign >>= k) i) (c.punct sign >>= f) := by
  unfold Walk.punct
  rw [bind_assoc]
  refine follows_atPunct h ?_
  unfold Cursor.punct at hk ⊢
  split
  · next hs =>
    rw [if_pos hs] at hk
    exact follows_next h fun j hj => hk j _ rfl hj
  · exact (follows_unexpected h _).bind (f := fun r => f r.2) (by rintro _ _ _ ⟨⟩)

/-- A walk reads the name that the cursor reads. -/
lemma ident_follows (h : tape.Stands i c) (what : String) :
    Follows tape (Walk.ident tape.tokens what i) (c.ident what) := by
  refine follows_look h fun t ht => ?_
  unfold Cursor.ident
  rw [ht.kind]
  refine .ite (fun hk => ?_) fun _ => follows_unexpected h _
  have hne : c.peek.kind ≠ .endOfInput := by
    rw [hk]
    exact nofun
  obtain rfl := ht.eq_of_kind hne
  exact follows_next h fun j hj => .ok hj

/-- A walk reads the number that the cursor reads. -/
lemma int_follows (h : tape.Stands i c) (what : String) :
    Follows tape (Walk.int tape.tokens what i) (c.int what) := by
  refine follows_look h fun t ht => ?_
  unfold Cursor.int
  rw [ht.kind]
  refine .ite (fun hk => ?_) fun _ => follows_unexpected h _
  have hne : c.peek.kind ≠ .endOfInput := by
    rw [hk]
    exact nofun
  obtain rfl := ht.eq_of_kind hne
  refine follows_next h fun j hj => ?_
  cases Numeral.readInt? c.peek.text with
  | some n => exact .ok hj
  | none => exact .error

end Following

end Croupier
