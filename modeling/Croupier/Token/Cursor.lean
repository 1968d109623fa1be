import Croupier.Number
import Croupier.Program.Error

/-!
# Cursors

A cursor stands in front of the tokens that are still to be read. Past the last of them it sees the end of input, where
it stays. A reader takes a cursor and gives what it has read and the cursor after it, or an error at the token in front
of it.
-/

namespace Croupier

/-- The tokens to be read and the position of the end of input. -/
structure Cursor where
  rest : List Token
  stop : Pos
  deriving DecidableEq, Repr

namespace Cursor

/-- A cursor at the start of a list of tokens, which ends at its first end of input. -/
def ofTokens (tokens : List Token) : Cursor :=
  let isEnd := fun t : Token => t.kind = .endOfInput
  { rest := tokens.takeWhile fun t => !isEnd t
    stop := (tokens.find? fun t => isEnd t).elim ⟨0, 0⟩ (·.pos) }

/-- The token in front of the cursor. -/
def peek (c : Cursor) : Token := c.rest.headD (Token.endAt c.stop)

/-- The cursor after the next token. -/
def advance (c : Cursor) : Cursor := { c with rest := c.rest.tail }

/-- Tells whether the cursor is at the end of input. -/
def atEnd (c : Cursor) : Bool := c.rest.isEmpty

/-- The number of tokens to be read. -/
def left (c : Cursor) : Nat := c.rest.length

/-- Tells whether a given sign is next. -/
def atPunct (c : Cursor) (sign : String) : Bool := c.peek.isPunct sign

/-- Tells whether a given keyword is next. -/
def atKeyword (c : Cursor) (word : String) : Bool := c.peek.isKeyword word

/-- The error that the next token is not what was expected. -/
def unexpected (c : Cursor) (expected : String) : ParseError :=
  { pos := c.peek.pos, expected := expected, found := c.peek.describe }

/-- Reads a given sign. -/
def punct (sign : String) (c : Cursor) : Except ParseError Cursor :=
  if c.atPunct sign then .ok c.advance else .error (c.unexpected (Text.quote sign))

/-- Reads a word that is not reserved. -/
def ident (what : String) (c : Cursor) : Except ParseError (Token × Cursor) :=
  if c.peek.kind = .ident then .ok (c.peek, c.advance) else .error (c.unexpected what)

/-- Reads a number. -/
def int (what : String) (c : Cursor) : Except ParseError (Int × Cursor) :=
  if c.peek.kind = .int then
    match Numeral.readInt? c.peek.text with
    | some n => .ok (n, c.advance)
    | none => .error (c.unexpected what)
  else .error (c.unexpected what)

end Cursor

end Croupier
