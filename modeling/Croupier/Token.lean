import Croupier.Text.Quoted

/-!
# Tokens

A token is a word, a number or a sign of a program together with its position. Words that the language reserves are
keywords. Positions count lines and columns from one; a column is a character.
-/

namespace Croupier

/-- A position in a program. -/
structure Pos where
  line : Int
  col : Int
  deriving DecidableEq, Repr, Inhabited

namespace Pos

/-- The position of the first character. -/
def start : Pos := ⟨1, 1⟩

/-- The position after a character. -/
def after (p : Pos) (c : Char) : Pos := if c = '\n' then ⟨p.line + 1, 1⟩ else ⟨p.line, p.col + 1⟩

/-- The position after some characters. -/
def afterAll (p : Pos) (cs : List Char) : Pos := cs.foldl after p

/-- The text of a position. -/
def text (p : Pos) : String := toString p.line ++ ":" ++ toString p.col

end Pos

/-- The kinds of token. The last case holds the numbers that are no kind. -/
inductive TokenKind where
  | endOfInput
  | ident
  | keyword
  | int
  | punct
  | other (code : Int)
  deriving DecidableEq, Repr

namespace TokenKind

/-- The kind with a given number. -/
def ofCode (n : Int) : TokenKind :=
  if n = 0 then .endOfInput
  else if n = 1 then .ident
  else if n = 2 then .keyword
  else if n = 3 then .int
  else if n = 4 then .punct
  else .other n

/-- The name of a kind. -/
def name : TokenKind → String
  | endOfInput => "EOF"
  | ident => "IDENT"
  | keyword => "KEYWORD"
  | int => "INT"
  | punct => "PUNCT"
  | other n => "TOKEN_" ++ toString n

end TokenKind

/-- The reserved words. -/
def keywords : List String :=
  ["name", "deck", "players", "current_player", "stack", "def", "return", "check", "if", "is", "not"]

/-- Tells whether a word is reserved. -/
def isKeyword (word : String) : Bool := keywords.contains word

/-- A token. -/
structure Token where
  kind : TokenKind
  text : String
  pos : Pos
  deriving DecidableEq, Repr

namespace Token

/-- The end of a program. -/
def endAt (pos : Pos) : Token := ⟨.endOfInput, "", pos⟩

/-- A token as an error speaks of it. -/
def describe (t : Token) : String :=
  match t.kind with
  | .endOfInput => "end of input"
  | _ => Text.quote t.text

/-- Tells whether the token is a given sign. -/
def isPunct (t : Token) (sign : String) : Bool := t.kind = .punct && t.text = sign

/-- Tells whether the token is a given keyword. -/
def isKeyword (t : Token) (word : String) : Bool := t.kind = .keyword && t.text = word

end Token

end Croupier
