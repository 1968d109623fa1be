import Croupier.Program.Binding
import Croupier.Program.Statement

/-!
# Reading programs

A program is a list of declarations and definitions in any order. While it is read, a draft holds what has been declared
and where; a name, a deck and the number of players must be there at the end. Then the names in it are bound.
-/

namespace Croupier

/-- Something declared, and where. -/
structure Declared (α : Type) where
  value : α
  pos : Pos
  deriving Repr

/-- A program while it is read. -/
structure Draft where
  name : Option (Declared String) := none
  deck : Option (Declared Expr) := none
  players : Option (Declared Int) := none
  firstPlayer : Option (Declared Int) := none
  tableStacks : List String := []
  playerStacks : List String := []
  functions : List Function := []
  deriving Repr

namespace Draft

/-- Refuses a second declaration. -/
def once {α : Type} (key : String) (earlier : Option (Declared α)) (pos : Pos) : Except ParseError Unit :=
  match earlier with
  | none => .ok ()
  | some d =>
    .error { pos := pos, expected := "a single " ++ Text.quote key ++ " declaration",
             found := "a second declaration", hint := some (.declaredAt d.pos) }

/-- Reads the name of the game, which may be a number. -/
def parseName (d : Draft) (c : Cursor) : Except ParseError (Draft × Cursor) := do
  let pos := c.peek.pos
  once "name" d.name pos
  let c := c.advance
  if c.peek.kind = .ident ∨ c.peek.kind = .int then
    .ok ({ d with name := some ⟨c.peek.text, pos⟩ }, c.advance)
  else .error (c.unexpected "game name")

/-- Reads the deck. -/
def parseDeck (d : Draft) (c : Cursor) : Except ParseError (Draft × Cursor) := do
  let pos := c.peek.pos
  once "deck" d.deck pos
  let (deck, c) ← Expr.parse c.advance
  .ok ({ d with deck := some ⟨deck, pos⟩ }, c)

/-- Reads a number that is at least one. -/
def parsePositive (what least : String) (c : Cursor) : Except ParseError (Int × Cursor) := do
  let (n, c') ← c.int what
  if n < 1 then .error { pos := c.peek.pos, expected := least, found := c.peek.text } else .ok (n, c')

/-- Reads the number of players. -/
def parsePlayers (d : Draft) (c : Cursor) : Except ParseError (Draft × Cursor) := do
  let pos := c.peek.pos
  once "players" d.players pos
  let (n, c) ← parsePositive "player count" "at least one player" c.advance
  .ok ({ d with players := some ⟨n, pos⟩ }, c)

/-- Reads the player who starts. -/
def parseFirstPlayer (d : Draft) (c : Cursor) : Except ParseError (Draft × Cursor) := do
  let pos := c.peek.pos
  once "current_player" d.firstPlayer pos
  let (n, c) ← parsePositive "starting player id" "a 1-based player id" c.advance
  .ok ({ d with firstPlayer := some ⟨n, pos⟩ }, c)

/-- Refuses the name of a stack that there is already. -/
def newStack (d : Draft) (name : Token) : Except ParseError Unit :=
  if d.tableStacks.contains name.text || d.playerStacks.contains name.text then
    .error { pos := name.pos, expected := "a new stack name", found := name.describe }
  else .ok ()

/-- Reads a stack on the table, or one that every player has. -/
def parseStack (d : Draft) (c : Cursor) : Except ParseError (Draft × Cursor) := do
  let (name, c) ← c.advance.ident "stack name"
  if c.atPunct ":" then
    if name.text ≠ "player" then
      .error { pos := name.pos, expected := "\"player\" scope", found := name.describe }
    else
      let (name, c) ← c.advance.ident "player stack name"
      newStack d name
      if name.text = playerId then
        .error { pos := name.pos, expected := "a player stack name", found := name.describe }
      else .ok ({ d with playerStacks := d.playerStacks ++ [name.text] }, c)
  else
    newStack d name
    .ok ({ d with tableStacks := d.tableStacks ++ [name.text] }, c)

/-- Reads parameters up to the closing parenthesis, after those in `earlier`. -/
def parseParams : Nat → List String → Cursor → Except ParseError (List String × Cursor)
  | 0, _, c => .error (c.unexpected "parameter name")
  | budget + 1, earlier, c =>
    if c.atPunct ")" then .ok (earlier, c.advance)
    else do
      let c ← if earlier.isEmpty then .ok c else c.punct ","
      let (param, c) ← c.ident "parameter name"
      if earlier.contains param.text then
        .error { pos := param.pos, expected := "a distinct parameter name", found := param.describe }
      else parseParams budget (earlier ++ [param.text]) c

/-- Reads the definition of a function. -/
def parseFunction (d : Draft) (c : Cursor) : Except ParseError (Draft × Cursor) := do
  let pos := c.peek.pos
  let (name, c) ← c.advance.ident "function name"
  if d.functions.any (·.name = name.text) then
    .error { pos := name.pos, expected := "a new function name", found := name.describe }
  else
    let c ← c.punct "("
    let (params, c) ← parseParams (c.left + 1) [] c
    let (body, c) ← Stmt.parseBlock c
    .ok ({ d with functions := d.functions ++ [⟨name.text, params, body, pos⟩] }, c)

/-- Reads one declaration or definition. -/
def parseItem (d : Draft) (c : Cursor) : Except ParseError (Draft × Cursor) :=
  if c.atKeyword "name" then parseName d c
  else if c.atKeyword "deck" then parseDeck d c
  else if c.atKeyword "players" then parsePlayers d c
  else if c.atKeyword "current_player" then parseFirstPlayer d c
  else if c.atKeyword "stack" then parseStack d c
  else if c.atKeyword "def" then parseFunction d c
  else .error (c.unexpected "declaration or function definition")

/-- Reads declarations and definitions to the end of input. -/
def parseItems : Nat → Draft → Cursor → Except ParseError Draft
  | 0, d, _ => .ok d
  | budget + 1, d, c =>
    if c.atEnd then .ok d
    else do
      let (d, c) ← parseItem d c
      parseItems budget d c

/-- Takes a declaration that must be there. -/
def required {α : Type} (key : String) (stop : Pos) : Option (Declared α) → Except ParseError α
  | some d => .ok d.value
  | none => .error { pos := stop, expected := Text.quote key ++ " declaration", found := "end of input" }

/-- Makes a program of a finished draft. -/
def finish (d : Draft) (stop : Pos) : Except ParseError Program := do
  let name ← required "name" stop d.name
  let deck ← required "deck" stop d.deck
  let players ← required "players" stop d.players
  let first := d.firstPlayer.getD ⟨1, ⟨0, 0⟩⟩
  if players < first.value then
    .error { pos := first.pos, expected := "current_player between 1 and " ++ toString players,
             found := toString first.value }
  else .ok ⟨name, deck, players, first.value, d.tableStacks, d.playerStacks, d.functions⟩

end Draft

namespace Program

/-- Makes a program of a list of tokens. Tokens after the first end of input do not count. -/
def ofTokens (tokens : List Token) : Except ParseError Program := do
  let c := Cursor.ofTokens tokens
  let draft ← Draft.parseItems (c.left + 1) {} c
  let program ← draft.finish c.stop
  Binding.check program
  .ok program

/-- Reads a program. -/
def ofSource (source : List Char) : Except SourceError Program := do
  let tokens ← (Token.ofSource source).mapError .lex
  (ofTokens tokens).mapError .parse

end Program

end Croupier
