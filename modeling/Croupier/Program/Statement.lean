import Croupier.Expr.Parser
import Croupier.Program

/-!
# Reading statements

A block is a list of statements between braces. A statement is a conditional block, a check, a return, a transfer or a
call. A conditional block is nested after its own tokens, so the number of tokens bounds the nesting.
-/

namespace Croupier.Stmt

/-- A reader of blocks. -/
abbrev BlockReader := Cursor → Except ParseError (List Stmt × Cursor)

/-- Reads an expression in parentheses. -/
def parseCondition (c : Cursor) : Except ParseError (Expr × Cursor) := do
  let c ← c.punct "("
  let (condition, c) ← Expr.parse c
  let c ← c.punct ")"
  .ok (condition, c)

/-- Reads a value in parentheses, or none. -/
def parseValue (c : Cursor) : Except ParseError (Option Expr × Cursor) := do
  let c ← c.punct "("
  if c.atPunct ")" then .ok (none, c.advance)
  else
    let (value, c) ← Expr.parse c
    let c ← c.punct ")"
    .ok (some value, c)

/-- The word that moves all cards. -/
def allWord : String := "end"

/-- Tells whether the word that moves all cards is next, and not a call of the function with that name. -/
def atAll (c : Cursor) : Bool :=
  c.peek.kind = .ident && c.peek.text = allWord && !c.advance.atPunct "("

/-- Reads how many cards a transfer moves. -/
def parseAmount (c : Cursor) : Except ParseError (Amount × Cursor) :=
  if atAll c then .ok (.all, c.advance)
  else if c.peek.kind = .int then do
    let (n, c) ← c.int "card count"
    .ok (.count n, c)
  else if c.atPunct "-" then do
    let (cards, c) ← Expr.parse c.advance
    .ok (.these cards, c)
  else .ok (.one, c)

/-- Reads the rest of a transfer from a source. -/
def parseTransfer (source : Expr) (pos : Pos) (c : Cursor) : Except ParseError (Stmt × Cursor) :=
  if !source.isContainer then
    .error { pos := source.pos, expected := "stack or deck as transfer source", found := source.text }
  else do
    let c := c.advance
    let (target, c') ← Expr.parseSingle c
    if !target.isContainer then
      .error { pos := c.peek.pos, expected := "stack or deck as transfer destination", found := target.text }
    else
      let (amount, c') ← parseAmount c'
      .ok (.transfer source target amount pos, c')

/-- Reads a statement that starts with an expression. -/
def parseAction (c : Cursor) : Except ParseError (Stmt × Cursor) := do
  let pos := c.peek.pos
  let (e, c) ← Expr.parse c
  if c.atPunct ">" then parseTransfer e pos c
  else match e with
    | .call fn args callPos => .ok (.call fn args callPos pos, c)
    | _ => .error { pos := pos, expected := "statement", found := Text.quote e.text, hint := some .standAlone }

/-- Reads a statement. -/
def parse (block : BlockReader) (c : Cursor) : Except ParseError (Stmt × Cursor) :=
  let pos := c.peek.pos
  if c.atKeyword "if" then do
    let (condition, c) ← parseCondition c.advance
    let (body, c) ← block c
    .ok (.when condition body pos, c)
  else if c.atKeyword "check" then do
    let (condition, c) ← parseCondition c.advance
    .ok (.check condition pos, c)
  else if c.atKeyword "return" then do
    let (value, c) ← parseValue c.advance
    .ok (.ret value pos, c)
  else parseAction c

/-- Reads statements up to the closing brace. -/
def parseUntilBrace (block : BlockReader) : Nat → Cursor → Except ParseError (List Stmt × Cursor)
  | 0, c => .error (c.unexpected "\"\x7d\"")
  | budget + 1, c =>
    if c.atPunct "\x7d" then .ok ([], c.advance)
    else if c.atEnd then .error (c.unexpected "\"\x7d\"")
    else do
      let (stmt, c) ← parse block c
      let (stmts, c) ← parseUntilBrace block budget c
      .ok (stmt :: stmts, c)

/-- Reads a block nested no deeper than the budget. -/
def parseBlockWithin : Nat → BlockReader
  | 0, c => .error (c.unexpected "\"\x7b\"")
  | budget + 1, c => do
    let c ← c.punct "\x7b"
    parseUntilBrace (parseBlockWithin budget) (c.left + 1) c

/-- Reads a block. -/
def parseBlock (c : Cursor) : Except ParseError (List Stmt × Cursor) := parseBlockWithin (c.left + 1) c

end Croupier.Stmt
