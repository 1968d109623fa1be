import Croupier.Expr
import Croupier.Token.Cursor

/-!
# Reading expressions

From the loosest to the tightest: disjunctions, conjunctions, `not`, comparisons, then names, numbers, calls, fields and
parentheses. Each level is a reader that is given the reader of nested expressions, those inside parentheses and
arguments; `Expr.parse` ties the knot. A nested expression starts after a parenthesis, so its tokens are fewer, and the
number of tokens bounds the nesting.
-/

namespace Croupier.Expr

/-- A reader of expressions. -/
abbrev Reader := Cursor → Except ParseError (Expr × Cursor)

/-- Reads the arguments of a call up to the closing parenthesis; `first` tells whether none has been read. -/
def parseArgs (nested : Reader) : Nat → Bool → Cursor → Except ParseError (List Expr × Cursor)
  | 0, _, c => .error (c.unexpected "expression")
  | budget + 1, first, c =>
    if c.atPunct ")" then .ok ([], c.advance)
    else do
      let c ← if first then .ok c else c.punct ","
      let (arg, c) ← nested c
      let (args, c) ← parseArgs nested budget false c
      .ok (arg :: args, c)

/-- Reads a name, a number or an expression in parentheses. -/
def parsePrimary (nested : Reader) (c : Cursor) : Except ParseError (Expr × Cursor) :=
  let t := c.peek
  match t.kind with
  | .ident => .ok (.name t.text t.pos, c.advance)
  | .int =>
    match Numeral.readInt? t.text with
    | some n => .ok (.int n t.pos, c.advance)
    | none => .error (c.unexpected "integer")
  | .keyword =>
    if ["deck", "players", "current_player"].contains t.text then .ok (.name t.text t.pos, c.advance)
    else .error (c.unexpected "expression")
  | .punct =>
    if t.text = "(" then do
      let (e, c) ← nested c.advance
      let c ← c.punct ")"
      .ok (e, c)
    else .error (c.unexpected "expression")
  | _ => .error (c.unexpected "expression")

/-- Reads the arguments of a call if a name that is not reserved is followed by a parenthesis. -/
def parseCall (nested : Reader) (e : Expr) (c : Cursor) : Except ParseError (Expr × Cursor) :=
  match e with
  | .name id pos =>
    if c.atPunct "(" ∧ ¬ isKeyword id then do
      let (args, c) ← parseArgs nested (c.left + 1) true c.advance
      .ok (.call id args pos, c)
    else .ok (e, c)
  | _ => .ok (e, c)

/-- Reads the fields that follow an expression. -/
def parseFields : Nat → Expr → Cursor → Except ParseError (Expr × Cursor)
  | 0, e, c => .ok (e, c)
  | budget + 1, e, c =>
    if c.atPunct ":" then do
      let (key, c') ← c.advance.ident "attribute name"
      parseFields budget (.field e key.text c.peek.pos) c'
    else .ok (e, c)

/-- Reads a primary with its arguments and its fields. -/
def parseOperand (nested : Reader) (c : Cursor) : Except ParseError (Expr × Cursor) := do
  let (e, c) ← parsePrimary nested c
  let (e, c) ← parseCall nested e c
  parseFields (c.left + 1) e c

/-- Reads an operand or a comparison of two. -/
def parseComparison (nested : Reader) (c : Cursor) : Except ParseError (Expr × Cursor) := do
  let (left, c) ← parseOperand nested c
  if c.atKeyword "is" then
    let pos := c.peek.pos
    let c := c.advance
    let negate := c.atKeyword "not"
    let (right, c) ← parseOperand nested (if negate then c.advance else c)
    .ok (.compare left right negate pos, c)
  else .ok (left, c)

/-- Reads a comparison with any number of `not` in front. -/
def parseNegation (nested : Reader) : Nat → Cursor → Except ParseError (Expr × Cursor)
  | 0, c => .error (c.unexpected "expression")
  | budget + 1, c =>
    if c.atKeyword "not" then do
      let (e, c') ← parseNegation nested budget c.advance
      .ok (.not e c.peek.pos, c')
    else parseComparison nested c

/-- Reads what follows the first part of a chain of one junction, which binds to the left. -/
def parseChain (op : Junction) (part : Reader) : Nat → Expr → Cursor → Except ParseError (Expr × Cursor)
  | 0, left, c => .ok (left, c)
  | budget + 1, left, c =>
    if c.atPunct op.sign then do
      let (right, c') ← part c.advance
      parseChain op part budget (.join op left right c.peek.pos) c'
    else .ok (left, c)

/-- Reads a chain of conjunctions. -/
def parseConjunction (nested : Reader) (c : Cursor) : Except ParseError (Expr × Cursor) := do
  let part : Reader := fun c => parseNegation nested (c.left + 1) c
  let (left, c) ← part c
  parseChain .and part (c.left + 1) left c

/-- Reads a chain of disjunctions. -/
def parseDisjunction (nested : Reader) (c : Cursor) : Except ParseError (Expr × Cursor) := do
  let (left, c) ← parseConjunction nested c
  parseChain .or (parseConjunction nested) (c.left + 1) left c

/-- Reads an expression nested no deeper than the budget. -/
def parseWithin : Nat → Reader
  | 0, c => .error (c.unexpected "expression")
  | budget + 1, c => parseDisjunction (parseWithin budget) c

/-- Reads an expression. -/
def parse (c : Cursor) : Except ParseError (Expr × Cursor) := parseWithin (c.left + 1) c

/-- Reads an operand outside any chain or comparison. -/
def parseSingle (c : Cursor) : Except ParseError (Expr × Cursor) := parseOperand parse c

end Croupier.Expr
