import Croupier.Token

/-!
# Reading tokens

A program is read in two passes. The first turns every comment into blanks, so that no position changes; comments open
with a dot and a parenthesis and nest by parentheses. The second cuts the rest into words, numbers and signs, each as
long as possible, and drops white space.
-/

namespace Croupier

/-- A character that no token can start with, and where it stands. A comment that is not closed is reported by its dot. -/
structure LexError where
  pos : Pos
  char : Char
  deriving DecidableEq, Repr

/-- The text of an error. -/
def LexError.message (e : LexError) : String :=
  "lex error at " ++ e.pos.text ++ ": unexpected character " ++ Text.quoteChar e.char

namespace Token

/-- White space between tokens. -/
def isSpace (c : Char) : Bool := c == ' ' || c == '\t' || c == '\n' || c == '\x0c' || c == '\r'

/-- The characters that start a word. -/
def isWordStart (c : Char) : Bool := c.isAlpha || c == '_'

/-- The characters that continue a word. -/
def isWordChar (c : Char) : Bool := c.isAlphanum || c == '_'

/-- The signs. -/
def isSign (c : Char) : Bool := [':', '>', '-', '(', ')', '\x7b', '\x7d', ',', '&', '|'].contains c

/-- Where a reader of comments stands: in the program, or in a comment with some parentheses open. -/
inductive Zone where
  | program
  | comment (opened : Pos) (depth : Nat)
  deriving DecidableEq, Repr

/-- The zone after a character of a comment. The last parenthesis to close leads back into the program. -/
def Zone.inside (opened : Pos) (depth : Nat) (c : Char) : Zone :=
  if c = '(' then .comment opened (depth + 1)
  else if c = ')' then (if depth ≤ 1 then .program else .comment opened (depth - 1))
  else .comment opened depth

/-- Turns comments into blanks; line breaks stay. -/
def blankComments : Zone → Pos → List Char → Except LexError (List Char)
  | .program, _, [] => .ok []
  | .comment opened _, _, [] => .error ⟨opened, '.'⟩
  | .program, pos, '.' :: '(' :: cs => do
    let rest ← blankComments (.comment pos 1) ((pos.after '.').after '(') cs
    .ok (' ' :: ' ' :: rest)
  | .program, pos, c :: cs => do
    let rest ← blankComments .program (pos.after c) cs
    .ok (c :: rest)
  | .comment opened depth, pos, c :: cs => do
    let rest ← blankComments (Zone.inside opened depth c) (pos.after c) cs
    .ok ((if c = '\n' then '\n' else ' ') :: rest)

/-- The token that starts with a character: its kind, its text, and what follows. -/
def lexeme? (c : Char) (cs : List Char) : Option (TokenKind × List Char × List Char) :=
  if isWordStart c then
    let word := c :: cs.takeWhile isWordChar
    some (if Croupier.isKeyword (String.ofList word) then .keyword else .ident, word, cs.dropWhile isWordChar)
  else if c.isDigit then some (.int, c :: cs.takeWhile Char.isDigit, cs.dropWhile Char.isDigit)
  else if isSign c then some (.punct, [c], cs)
  else none

/-- What follows a token is not longer than what follows its first character. -/
theorem length_le_of_lexeme? {c : Char} {cs word rest : List Char} {kind : TokenKind}
    (h : lexeme? c cs = some (kind, word, rest)) : rest.length ≤ cs.length := by
  have len : ∀ p : Char → Bool, (cs.dropWhile p).length ≤ cs.length :=
    fun p => (List.dropWhile_suffix p).length_le
  unfold lexeme? at h
  split at h
  · simp only [Option.some.injEq, Prod.mk.injEq] at h
    exact h.2.2 ▸ len isWordChar
  · split at h
    · simp only [Option.some.injEq, Prod.mk.injEq] at h
      exact h.2.2 ▸ len Char.isDigit
    · split at h
      · simp only [Option.some.injEq, Prod.mk.injEq] at h
        exact h.2.2 ▸ Nat.le_refl _
      · cases h

/-- Cuts a text without comments into tokens. -/
def scan (pos : Pos) : List Char → Except LexError (List Token)
  | [] => .ok [endAt pos]
  | c :: cs =>
    if isSpace c then scan (pos.after c) cs
    else match _h : lexeme? c cs with
      | none => .error ⟨pos, c⟩
      | some (kind, word, rest) => do
        let tokens ← scan (pos.afterAll word) rest
        .ok (⟨kind, String.ofList word, pos⟩ :: tokens)
  termination_by cs => cs.length
  decreasing_by
    · simp
    · have := length_le_of_lexeme? _h
      simp only [List.length_cons]
      omega

/-- The tokens of a program, the end of input last. -/
def ofSource (source : List Char) : Except LexError (List Token) := do
  let text ← blankComments .program .start source
  scan .start text

end Token

end Croupier
