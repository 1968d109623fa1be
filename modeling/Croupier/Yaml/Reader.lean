import Croupier.Yaml.Node

/-!
# Reading documents

A document is read from its characters. In block style, nodes are nested by their columns; in flow style, by brackets.
Scalars stand plainly or between quotation marks and may go on over several lines, whose breaks are folded into blanks.
Only the first document of a text is read. Anchors, tags, directives, block scalars and keys after a question mark are
not part of the documents that are read here.
-/

namespace Croupier.Yaml

/-- What is wrong with a text. -/
inductive Problem where
  | controlCharacter
  | cannotStart
  | expectedContent
  | expectedKey
  | expectedEntry
  | expectedColon
  | expectedComma
  | unexpectedColon
  | unexpectedEntry
  | unexpectedEnd
  | documentMark
  | unknownEscape
  | tabIndent
  | listKey
  | tooDeep
  deriving DecidableEq, Repr

/-- The text of a problem. -/
def Problem.message : Problem → String
  | controlCharacter => "control characters are not allowed"
  | cannotStart => "found character that cannot start any token"
  | expectedContent => "did not find expected node content"
  | expectedKey => "did not find expected key"
  | expectedEntry => "did not find expected '-' indicator"
  | expectedColon => "could not find expected ':'"
  | expectedComma => "did not find expected ',' or closing bracket"
  | unexpectedColon => "mapping values are not allowed in this context"
  | unexpectedEntry => "block sequence entries are not allowed in this context"
  | unexpectedEnd => "found unexpected end of stream"
  | documentMark => "found unexpected document indicator"
  | unknownEscape => "found unknown escape character"
  | tabIndent => "found a tab character that violates indentation"
  | listKey => "invalid map key"
  | tooDeep => "exceeded max depth"

/-- Why a text is no document. Lines are counted from zero. -/
structure ReadError where
  problem : Problem
  line : Nat
  deriving DecidableEq, Repr

/-- The text of an error. -/
def ReadError.message (e : ReadError) : String :=
  "yaml: line " ++ toString (e.line + 1) ++ ": " ++ e.problem.message

/-! ## Places in a text -/

/-- The rest of a text and where it starts. -/
structure Cursor where
  rest : List Char
  line : Nat
  col : Nat

/-- Tells whether a character is a space or a tab. -/
def isSpacing (c : Char) : Bool := c == ' ' || c == '\t'

/-- Tells whether a text starts with a space, a tab or a line break, or is at its end. -/
def startsBlank : List Char → Bool
  | [] => true
  | c :: _ => isSpacing c || isBreak c

/-- Tells whether a text starts with the mark of a document. -/
def startsMark : List Char → Bool
  | '-' :: '-' :: '-' :: cs => startsBlank cs
  | '.' :: '.' :: '.' :: cs => startsBlank cs
  | _ => false

/-- Tells whether a character may stand in a text. -/
def isAllowed (c : Char) : Bool :=
  let n := c.toNat
  n == 0x09 || n == 0x0A || n == 0x0D || (0x20 ≤ n && n ≤ 0x7E) || n == 0x85 || (0xA0 ≤ n && n ≤ 0xFFFD) || 0x10000 ≤ n

/-- Writes every line break in one way. -/
def unifyBreaks : List Char → List Char
  | [] => []
  | '\r' :: '\n' :: cs => '\n' :: unifyBreaks cs
  | c :: cs => (if c == '\r' || c == '\u0085' then '\n' else c) :: unifyBreaks cs

/-- Skips spaces, comments and line breaks. Tabs are skipped in flow style, and in block style only where `tabs` allows
it and before the first line break. -/
def skipGap (flow : Bool) : Bool → Bool → List Char → Nat → Nat → Cursor
  | _, _, [], line, col => ⟨[], line, col⟩
  | tabs, comment, c :: cs, line, col =>
    if isBreak c then skipGap flow flow false cs (line + 1) 0
    else if comment then skipGap flow tabs true cs line (col + 1)
    else if c == ' ' || (c == '\t' && (flow || tabs)) then skipGap flow tabs false cs line (col + 1)
    else if c == '#' then skipGap flow tabs true cs line (col + 1)
    else ⟨c :: cs, line, col⟩

namespace Cursor

/-- Stops reading. -/
def fail {α : Type} (c : Cursor) (p : Problem) : Except ReadError α := .error ⟨p, c.line⟩

/-- The place after the next character, which ends no line. -/
def step (c : Cursor) : Cursor := ⟨c.rest.tail, c.line, c.col + 1⟩

/-- The next place with content in flow style. -/
def flowGap (c : Cursor) : Cursor := skipGap true true false c.rest c.line c.col

/-- The next place with content in block style. -/
def blockGap (c : Cursor) (tabs : Bool) : Cursor := skipGap false tabs false c.rest c.line c.col

/-- Tells whether a document mark stands here. -/
def atMark (c : Cursor) : Bool := c.col == 0 && startsMark c.rest

/-- Tells whether the document ends here. -/
def atEnd (c : Cursor) : Bool := c.rest.isEmpty || c.atMark

/-- Tells whether an indicator followed by a blank stands here. -/
def atIndicator (c : Cursor) (mark : Char) : Bool :=
  match c.rest with
  | d :: cs => d == mark && startsBlank cs
  | [] => false

/-- Tells whether an entry of a list in block style starts here. -/
def atEntry (c : Cursor) : Bool := c.atIndicator '-'

/-- Tells whether the colon after a key that starts at `key` stands here: on the same line, and not too far away. -/
def atColonOf (c key : Cursor) : Bool :=
  c.atIndicator ':' && c.line == key.line && c.col ≤ key.col + 1024

end Cursor

/-! ## Scalars -/

/-- What separates the last character of a scalar from the next: blanks, or line breaks. The break that an escape hides
leaves nothing. -/
structure Gap where
  blanks : List Char := []
  lead : Option (List Char) := none
  breaks : List Char := []

namespace Gap

/-- Tells whether there is no gap. -/
def isEmpty (g : Gap) : Bool := g.blanks.isEmpty && g.lead.isNone

/-- Adds a blank. After a line break blanks do not count. -/
def addBlank (g : Gap) (c : Char) : Gap := if g.lead.isSome then g else { g with blanks := c :: g.blanks }

/-- Adds a line break. -/
def addBreak (g : Gap) (c : Char) : Gap :=
  if g.lead.isSome then { g with breaks := c :: g.breaks } else { blanks := [], lead := some [c], breaks := [] }

/-- The text of a gap: a single line break is a space, and of several the first is dropped. -/
def text (g : Gap) : List Char :=
  match g.lead with
  | none => g.blanks.reverse
  | some ['\n'] => if g.breaks.isEmpty then [' '] else g.breaks.reverse
  | some lead => lead ++ g.breaks.reverse

end Gap

/-- Puts a gap and a character behind a text that is kept in reverse. -/
def joinGap (text : List Char) (g : Gap) (c : Char) : List Char := c :: (g.text.reverse ++ text)

/-- The characters that end a plain scalar in flow style. -/
def flowMarks : List Char := [',', '[', ']', '\x7b', '\x7d']

/-- Tells whether a plain scalar ends before a character. -/
def endsPlain (flow : Bool) (least : Nat) (g : Gap) (col : Nat) (c : Char) (cs : List Char) : Bool :=
  (!flow && g.lead.isSome && decide (col < least)) || (col == 0 && startsMark (c :: cs)) || (!g.isEmpty && c == '#') ||
    (c == ':' && startsBlank cs) || (flow && (flowMarks.contains c || (c == '?' && startsBlank cs)))

/-- Reads a plain scalar whose further lines start at column `least` at least. -/
def plainFrom (flow : Bool) (least : Nat) :
    List Char → Gap → List Char → Nat → Nat → Except ReadError (String × Cursor)
  | text, _, [], line, col => .ok (String.ofList text.reverse, ⟨[], line, col⟩)
  | text, g, c :: cs, line, col =>
    if isSpacing c then
      if g.lead.isSome && decide (col < least) && c == '\t' then .error ⟨.tabIndent, line⟩
      else plainFrom flow least text (g.addBlank c) cs line (col + 1)
    else if isBreak c then plainFrom flow least text (g.addBreak c) cs (line + 1) 0
    else if endsPlain flow least g col c cs then .ok (String.ofList text.reverse, ⟨c :: cs, line, col⟩)
    else plainFrom flow least (joinGap text g c) {} cs line (col + 1)

/-- Reads a scalar in single quotation marks, after the first mark. A mark inside is written twice. -/
def singleFrom : List Char → Gap → List Char → Nat → Nat → Except ReadError (String × Cursor)
  | _, _, [], line, _ => .error ⟨.unexpectedEnd, line⟩
  | text, g, '\'' :: '\'' :: cs, line, col => singleFrom (joinGap text g '\'') {} cs line (col + 2)
  | text, g, c :: cs, line, col =>
    if col == 0 && startsMark (c :: cs) then .error ⟨.documentMark, line⟩
    else if c == '\'' then .ok (String.ofList (g.text.reverse ++ text).reverse, ⟨cs, line, col + 1⟩)
    else if isSpacing c then singleFrom text (g.addBlank c) cs line (col + 1)
    else if isBreak c then singleFrom text (g.addBreak c) cs (line + 1) 0
    else singleFrom (joinGap text g c) {} cs line (col + 1)

/-- The character that a letter after a backslash stands for. -/
def letterEscape? (c : Char) : Option Char :=
  match c with
  | '0' => some '\x00'
  | 'a' => some '\x07'
  | 'b' => some '\x08'
  | 't' | '\t' => some '\t'
  | 'n' => some '\n'
  | 'v' => some '\x0b'
  | 'f' => some '\x0c'
  | 'r' => some '\r'
  | 'e' => some '\x1b'
  | ' ' | '"' | '\'' | '/' | '\\' => some c
  | 'N' => some '\u0085'
  | '_' => some '\u00a0'
  | 'L' => some '\u2028'
  | 'P' => some '\u2029'
  | _ => none

/-- The number of hexadecimal digits after a letter that follows a backslash. -/
def hexEscape? (c : Char) : Option Nat :=
  match c with
  | 'x' => some 2
  | 'u' => some 4
  | 'U' => some 8
  | _ => none

/-- The character with a given number in hexadecimal digits. -/
def hexChar? (digits : List Char) : Option Char := do
  let n ← Numeral.readNat? 16 digits
  if n < 0xD800 ∨ (0xDFFF < n ∧ n ≤ 0x10FFFF) then some (Char.ofNat n) else none

/-- Reads a scalar in double quotation marks, after the first mark. The first number counts the characters that an
escape has already taken. -/
def doubleFrom : Nat → List Char → Gap → List Char → Nat → Nat → Except ReadError (String × Cursor)
  | _, _, _, [], line, _ => .error ⟨.unexpectedEnd, line⟩
  | taken + 1, text, g, _ :: cs, line, col => doubleFrom taken text g cs line (col + 1)
  | 0, text, g, c :: cs, line, col =>
    if col == 0 && startsMark (c :: cs) then .error ⟨.documentMark, line⟩
    else if c == '"' then .ok (String.ofList (g.text.reverse ++ text).reverse, ⟨cs, line, col + 1⟩)
    else if isSpacing c then doubleFrom 0 text (g.addBlank c) cs line (col + 1)
    else if isBreak c then doubleFrom 0 text (g.addBreak c) cs (line + 1) 0
    else if c == '\\' then
      match cs with
      | [] => .error ⟨.unexpectedEnd, line⟩
      | d :: rest =>
        if isBreak d then doubleFrom 0 (g.text.reverse ++ text) { lead := some [] } rest (line + 1) 0
        else match hexEscape? d with
          | some width =>
            match (if rest.length < width then none else hexChar? (rest.take width)) with
            | some x => doubleFrom width (joinGap text g x) {} rest line (col + 2)
            | none => .error ⟨.unknownEscape, line⟩
          | none =>
            match letterEscape? d with
            | some x => doubleFrom 0 (joinGap text g x) {} rest line (col + 2)
            | none => .error ⟨.unknownEscape, line⟩
    else doubleFrom 0 (joinGap text g c) {} cs line (col + 1)

/-- Tells whether a plain scalar can start with a character. -/
def startsPlain (flow : Bool) (c : Char) (cs : List Char) : Bool :=
  let indicators :=
    ['-', '?', ':', ',', '[', ']', '\x7b', '\x7d', '#', '&', '*', '!', '|', '>', '\'', '"', '%', '@', '\x60']
  (!isSpacing c && !isBreak c && !indicators.contains c) || (c == '-' && !startsBlank cs) ||
    (!flow && (c == '?' || c == ':') && !startsBlank cs)

/-- Reads a scalar. -/
def scalarAt (flow : Bool) (least : Nat) (c : Cursor) : Except ReadError (Node × Cursor) := do
  match c.rest with
  | '\'' :: cs =>
    let (text, after) ← singleFrom [] {} cs c.line (c.col + 1)
    .ok (.scalar ⟨text, false⟩, after)
  | '"' :: cs =>
    let (text, after) ← doubleFrom 0 [] {} cs c.line (c.col + 1)
    .ok (.scalar ⟨text, false⟩, after)
  | d :: cs =>
    if startsPlain flow d cs then do
      let (text, after) ← plainFrom flow least [] {} c.rest c.line c.col
      .ok (.scalar ⟨text, true⟩, after)
    else c.fail .cannotStart
  | [] => c.fail .expectedContent

/-- The key that a node is. -/
def keyOf (c : Cursor) : Node → Except ReadError Scalar
  | .scalar s => .ok s
  | _ => c.fail .listKey

/-! ## Flow style -/

mutual

/-- Reads a node in flow style. -/
def flowNode : Nat → Cursor → Except ReadError (Node × Cursor)
  | 0, c => c.fail .tooDeep
  | n + 1, c =>
    if c.atMark then c.fail .documentMark
    else match c.rest with
      | '[' :: _ => do
        let (items, after) ← flowItems n c.step.flowGap
        .ok (.seq items, after)
      | '\x7b' :: _ => do
        let (entries, after) ← flowEntries n c.step.flowGap
        .ok (.map entries, after)
      | _ => scalarAt true 0 c

/-- Reads the items of a list after its bracket or after a comma. An item may be a single entry of a mapping. -/
def flowItems : Nat → Cursor → Except ReadError (List Node × Cursor)
  | 0, c => c.fail .tooDeep
  | n + 1, c =>
    match c.rest with
    | ']' :: _ => .ok ([], c.step)
    | _ => do
      let (node, after) ← flowNode n c
      let (node, after) ← flowPair n c node after.flowGap
      match after.rest with
      | ',' :: _ => do
        let (items, after) ← flowItems n after.step.flowGap
        .ok (node :: items, after)
      | ']' :: _ => .ok ([node], after.step)
      | _ => after.fail .expectedComma

/-- Makes an item of a list that starts at `start` an entry of a mapping if a colon follows it. -/
def flowPair : Nat → Cursor → Node → Cursor → Except ReadError (Node × Cursor)
  | 0, _, _, c => c.fail .tooDeep
  | n + 1, start, node, c =>
    match c.rest with
    | ':' :: _ =>
      if c.line == start.line then do
        let key ← keyOf c node
        let (value, after) ← flowValue n c.step.flowGap
        .ok (.map [(key, value)], after)
      else c.fail .expectedComma
    | _ => .ok (node, c)

/-- Reads the value after a colon, which may be missing. -/
def flowValue : Nat → Cursor → Except ReadError (Node × Cursor)
  | 0, c => c.fail .tooDeep
  | n + 1, c =>
    match c.rest with
    | ',' :: _ | ']' :: _ | '\x7d' :: _ => .ok (.null, c)
    | _ => do
      let (node, after) ← flowNode n c
      .ok (node, after.flowGap)

/-- Reads the entries of a mapping after its bracket or after a comma. -/
def flowEntries : Nat → Cursor → Except ReadError (List (Scalar × Node) × Cursor)
  | 0, c => c.fail .tooDeep
  | n + 1, c =>
    match c.rest with
    | '\x7d' :: _ => .ok ([], c.step)
    | _ => do
      let (node, after) ← flowNode n c
      let key ← keyOf c node
      let after := after.flowGap
      let (value, after) ← match after.rest with
        | ':' :: _ => if after.line == c.line then flowValue n after.step.flowGap else after.fail .expectedComma
        | _ => .ok (.null, after)
      match after.rest with
      | ',' :: _ => do
        let (entries, after) ← flowEntries n after.step.flowGap
        .ok ((key, value) :: entries, after)
      | '\x7d' :: _ => .ok ([(key, value)], after.step)
      | _ => after.fail .expectedComma

end

/-- Reads a scalar or a node in flow style that stands in block style. -/
def inlineNode (n least : Nat) (c : Cursor) : Except ReadError (Node × Cursor) :=
  match c.rest with
  | '[' :: _ | '\x7b' :: _ => flowNode n c
  | _ => scalarAt false least c

/-! ## Block style -/

mutual

/-- Reads a node in block style whose lines start at column `least` at least. Lists and mappings in block style start
only where a node is fresh: at the start of a line or of an entry. -/
def blockNode : Nat → Nat → Bool → Cursor → Except ReadError (Node × Cursor)
  | 0, _, _, c => c.fail .tooDeep
  | n + 1, least, fresh, c =>
    if c.atEntry then
      if fresh then do
        let (items, after) ← blockItems n true c.col c
        .ok (.seq items, after)
      else c.fail .unexpectedEntry
    else do
      let (node, after) ← inlineNode n least c
      let next := after.blockGap (after.line == c.line)
      if next.atColonOf c then
        if fresh then do
          let key ← keyOf c node
          let (entries, after) ← blockEntries n c.col key next
          .ok (.map entries, after)
        else next.fail .unexpectedColon
      else .ok (node, next)

/-- Reads the value after a colon of a mapping at column `col`. -/
def blockValue : Nat → Nat → Nat → Cursor → Except ReadError (Node × Cursor)
  | 0, _, _, c => c.fail .tooDeep
  | n + 1, col, line, c =>
    if c.atEnd then .ok (.null, c)
    else if c.line == line then blockNode n (col + 1) false c
    else if col < c.col then blockNode n (col + 1) true c
    else if c.col == col && c.atEntry then do
      let (items, after) ← blockItems n false col c
      .ok (.seq items, after)
    else .ok (.null, c)

/-- Reads the entries of a mapping at column `col`, from the colon after a key on. -/
def blockEntries : Nat → Nat → Scalar → Cursor → Except ReadError (List (Scalar × Node) × Cursor)
  | 0, _, _, c => c.fail .tooDeep
  | n + 1, col, key, c => do
    let (value, next) ← blockValue n col c.line (c.step.blockGap true)
    if next.atEnd || decide (next.col < col) then .ok ([(key, value)], next)
    else if next.col == col then do
      let (node, after) ← inlineNode n (col + 1) next
      let colon := after.blockGap (after.line == next.line)
      if colon.atColonOf next then do
        let another ← keyOf next node
        let (entries, after) ← blockEntries n col another colon
        .ok ((key, value) :: entries, after)
      else next.fail .expectedColon
    else next.fail .expectedKey

/-- Reads the entries of a list at column `col`, from a dash on. A list that has a column of its own ends only where
a line starts further left. -/
def blockItems : Nat → Bool → Nat → Cursor → Except ReadError (List Node × Cursor)
  | 0, _, _, c => c.fail .tooDeep
  | n + 1, own, col, c => do
    let start := c.step.blockGap false
    let (node, next) ←
      if !start.atEnd && (start.line == c.line || decide (col < start.col)) then blockNode n (col + 1) true start
      else .ok (.null, start)
    if next.atEnd || decide (next.col < col) then .ok ([node], next)
    else if next.col == col && next.atEntry then do
      let (items, after) ← blockItems n own col next
      .ok (node :: items, after)
    else if own || decide (col < next.col) then next.fail .expectedEntry
    else .ok ([node], next)

end

/-! ## Documents -/

/-- A bound on the steps of reading a text. -/
def stepBound (cs : List Char) : Nat := 4 * cs.length + 8

/-- Checks that something can start where the root of a document has ended. What it is does not matter. -/
def checkStart (c : Cursor) : Except ReadError Unit :=
  match c.rest with
  | [] => .ok ()
  | d :: _ =>
    if d == '\'' || d == '"' then (scalarAt false 0 c).map fun _ => ()
    else if d == '@' || d == '\x60' || d == '\t' || (d == '%' && c.col != 0) then c.fail .cannotStart
    else .ok ()

/-- Reads the root of a document. -/
def rootNode (bound : Nat) (fresh : Bool) (c : Cursor) : Except ReadError Node := do
  let (node, after) ← blockNode bound 0 fresh c
  checkStart after
  .ok node

/-- Reads the first document of a text, if there is one. -/
def readDocument (text : String) : Except ReadError (Option Node) :=
  let chars := text.toList
  if !chars.all isAllowed then .error ⟨.controlCharacter, 0⟩
  else
    let chars := unifyBreaks (match chars with
      | '\ufeff' :: cs => cs
      | cs => cs)
    let start := (Cursor.mk chars 0 0).blockGap false
    let bound := stepBound chars
    if start.rest.isEmpty then .ok none
    else match start.atMark, start.rest with
      | true, '-' :: _ =>
        let content := start.step.step.step.blockGap true
        if content.atEnd then .ok (some .null)
        else (rootNode bound (content.line != start.line) content).map some
      | true, _ => start.fail .expectedContent
      | false, _ => (rootNode bound true start).map some

end Croupier.Yaml
