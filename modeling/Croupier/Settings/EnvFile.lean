import Croupier.Settings.Load
import Croupier.Text.Blank

/-!
# Environment files

An environment file sets variables that are not set yet, one statement after the other: a name, an equals sign or a
colon, and a value. A value in double quotation marks may hold escapes, and unless it is in single quotation marks it
may refer to variables that the file has set before. A file with a mistake sets nothing.
-/

namespace Croupier.EnvFile

/-- The variables that a file has set, the newest first. -/
abbrev Variables := List (String × String)

/-- Tells whether a character is a blank that does not end a line. -/
def isSpace (c : Char) : Bool :=
  c == '\t' || c == '\x0b' || c == '\x0c' || c == '\r' || c == ' ' || c == '\u0085' || c == '\u00a0'

/-- Writes every line break in one way. -/
def unifyBreaks : List Char → List Char
  | [] => []
  | '\r' :: '\n' :: cs => '\n' :: unifyBreaks cs
  | c :: cs => c :: unifyBreaks cs

/-- Skips blanks, line breaks and comments. The flag tells whether a comment is being skipped. -/
def skipToStatement : Bool → List Char → List Char
  | _, [] => []
  | true, c :: cs => skipToStatement (c != '\n') cs
  | false, c :: cs =>
    if Text.isBlank c then skipToStatement false cs
    else if c == '#' then skipToStatement true cs
    else c :: cs

/-- Skips the word that may stand before a name. -/
def skipExport (cs : List Char) : List Char :=
  match cs with
  | 'e' :: 'x' :: 'p' :: 'o' :: 'r' :: 't' :: c :: rest => if isSpace c then rest.dropWhile isSpace else cs
  | _ => cs

/-- Tells whether a byte may stand in a name. Bytes count as the first characters of Unicode: besides the underscore and
the point, their letters, numbers and blanks are allowed. -/
def isNameByte (b : UInt8) : Bool :=
  let c := Char.ofNat b.toNat
  isSpace c || c == '_' || c == '.' || c.isAlphanum || [0xAA, 0xB2, 0xB3, 0xB5, 0xB9, 0xBA, 0xBC, 0xBD, 0xBE].contains b ||
    (0xC0 ≤ b && b != 0xD7 && b != 0xF7)

/-- Tells whether a character may stand in a name. -/
def isNameChar (c : Char) : Bool := (String.utf8EncodeChar c).all isNameByte

/-- Reads a name and what follows its sign. Without a sign there is no name, and everything is the value. -/
def name? (cs : List Char) : Option (String × List Char) :=
  match cs.span isNameChar with
  | (name, '=' :: rest) | (name, ':' :: rest) =>
    some (String.ofList (name.reverse.dropWhile Text.isBlank).reverse, rest.dropWhile isSpace)
  | (_, []) => some ("", cs)
  | _ => none

/-- Cuts a comment that follows a blank. The flag tells whether a blank has just been read. -/
def cutComment : Bool → List Char → List Char
  | _, [] => []
  | blank, c :: cs => if c == '#' && blank then [] else c :: cutComment (isSpace c) cs

/-- Tells whether a character may stand in the name of a variable that is referred to. -/
def isVariableChar (c : Char) : Bool := ('A' ≤ c && c ≤ 'Z') || c.isDigit || c == '_'

/-- Reads a reference after the dollar sign: the name, which may stand in brackets, and the number of characters. -/
def reference (cs : List Char) : String × Nat :=
  let (a, cs) := match cs with
    | '(' :: rest => (1, rest)
    | _ => (0, cs)
  let (b, cs) := match cs with
    | '\x7b' :: rest => (1, rest)
    | _ => (0, cs)
  let (name, cs) := cs.span isVariableChar
  let c := match cs with
    | '\x7d' :: _ => 1
    | _ => 0
  (String.ofList name, a + b + name.length + c)

/-- Replaces references by the values of variables. A backslash before a dollar sign keeps the reference. The number
counts the characters that still belong to a reference, and the flag tells whether they are kept. -/
def expandFrom (vars : Variables) : Nat → Bool → List Char → List Char
  | _, _, [] => []
  | n + 1, keep, c :: cs => if keep then c :: expandFrom vars n keep cs else expandFrom vars n keep cs
  | 0, _, '\\' :: '$' :: cs => '$' :: expandFrom vars (reference cs).2 true cs
  | 0, _, c :: cs =>
    if c == '$' then
      let (name, n) := reference cs
      if name.isEmpty then '$' :: expandFrom vars n true cs
      else ((vars.lookup name).getD "").toList ++ expandFrom vars n false cs
    else c :: expandFrom vars 0 false cs

/-- Replaces references by the values of variables. -/
def expand (vars : Variables) (cs : List Char) : String := String.ofList (expandFrom vars 0 false cs)

/-- Replaces the escapes of line breaks. -/
def breakEscapes : List Char → List Char
  | '\\' :: 'n' :: cs => '\n' :: breakEscapes cs
  | '\\' :: 'r' :: cs => '\r' :: breakEscapes cs
  | '\\' :: c :: cs => '\\' :: c :: breakEscapes cs
  | c :: cs => c :: breakEscapes cs
  | [] => []

/-- Removes backslashes, except before a dollar sign. -/
def otherEscapes : List Char → List Char
  | '\\' :: c :: cs => if c == '$' then '\\' :: c :: otherEscapes cs else c :: otherEscapes cs
  | c :: cs => c :: otherEscapes cs
  | [] => []

/-- Splits at the closing quotation mark; one after a backslash does not close. -/
def spanQuoted (mark : Char) : Bool → List Char → Option (List Char × List Char)
  | _, [] => none
  | escaped, c :: cs =>
    if c == mark && !escaped then some ([], cs)
    else (spanQuoted mark (c == '\\') cs).map fun (value, rest) => (c :: value, rest)

/-- Reads a value and gives what follows it. -/
def value? (vars : Variables) (cs : List Char) : Option (String × List Char) :=
  match cs with
  | '"' :: rest => do
    let (value, rest) ← spanQuoted '"' false rest
    let trimmed := ((value.dropWhile (· == '"')).reverse.dropWhile (· == '"')).reverse
    some (expand vars (otherEscapes (breakEscapes trimmed)), rest)
  | '\'' :: rest => do
    let (value, rest) ← spanQuoted '\'' false rest
    let trimmed := ((value.dropWhile (· == '\'')).reverse.dropWhile (· == '\'')).reverse
    some (String.ofList trimmed, rest)
  | _ =>
    let (line, rest) := cs.span fun c => c != '\n' && c != '\r'
    some (expand vars (Text.trimBy isSpace (cutComment false line)), rest)

/-- Reads statements, at most as many as the number says. -/
def parseFrom : Nat → Variables → List Char → Option Variables
  | 0, vars, _ => some vars
  | n + 1, vars, cs =>
    match skipToStatement false cs with
    | [] => some vars
    | start => do
      let (name, rest) ← name? (skipExport start)
      let (value, rest) ← value? vars rest
      parseFrom n ((name, value) :: vars) rest

/-- The variables that a file sets, the newest first. -/
def parse? (text : String) : Option Variables :=
  let cs := unifyBreaks text.toList
  parseFrom (cs.length + 1) [] cs

/-- The environment with the variables that a file sets. Variables that are set already stay. -/
def extend (env : Env) (text : String) : Env :=
  let vars := (parse? text).getD []
  fun name => (env name).or (vars.lookup name)

end Croupier.EnvFile
