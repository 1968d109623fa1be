import Croupier.Text.Quoted
import Croupier.Yaml.Scalar

/-!
# Writing texts into documents

A text is written so that reading it gives it back: plainly if it then still is a text and nothing in it has a meaning
of its own, in single quotation marks if something in it has, in double quotation marks if it would be taken for
something else or holds characters that cannot be shown, and as an indented block if it has several lines.
-/

namespace Croupier.Yaml

/-- How a text is written. -/
inductive Style where
  | plain
  | single
  | double
  | literal
  deriving DecidableEq, Repr

/-- Tells whether a character can be shown as it is. -/
def isShown (c : Char) : Bool :=
  let n := c.toNat
  n == 0x0A || (0x20 ≤ n && n ≤ 0x7E) || (0xA0 ≤ n && n ≤ 0xFFFD && n != 0xFEFF)

/-- Tells whether a text starts with an indicator. -/
def startsIndicated (cs : List Char) : Bool :=
  match cs with
  | [] => false
  | c :: rest =>
    let follows := match rest with
      | [] => true
      | d :: _ => d == ' ' || d == '\t'
    ['#', ',', '[', ']', '\x7b', '\x7d', '&', '*', '!', '|', '>', '\'', '"', '%', '@', '\x60'].contains c ||
      ((c == '?' || c == ':' || c == '-') && follows) || (['-', '-', '-'].isPrefixOf cs) || (['.', '.', '.'].isPrefixOf cs)

/-- Tells whether a colon before a blank, or a comment, occurs after the first character. -/
def hasIndicator : List Char → Bool
  | ':' :: rest => (match rest with
      | [] => true
      | d :: _ => d == ' ' || d == '\t') || hasIndicator rest
  | ' ' :: '#' :: _ => true
  | _ :: rest => hasIndicator rest
  | [] => false

/-- Tells whether a text would be taken for something else if it stood plainly. -/
def isMistakable (s : String) : Bool :=
  (match meaning s with
    | .text _ => false
    | _ => true) || isSexagesimal s || isOldBool s

/-- Tells whether a space ends a line. -/
def hasSpaceBreak : List Char → Bool
  | [] => false
  | c :: rest => (c == ' ' && rest.head?.any isBreak) || hasSpaceBreak rest

/-- Tells whether a space starts a line other than the first. -/
def hasBreakSpace : List Char → Bool
  | [] => false
  | c :: rest => (isBreak c && rest.head? == some ' ') || hasBreakSpace rest

/-- How a text is written. -/
def styleOf (s : String) : Style :=
  let cs := s.toList
  let special := cs.any fun c => c != '\t' && !isShown c
  if cs.contains '\n' then
    if special || hasSpaceBreak cs || cs.getLast? == some ' ' then .double else .literal
  else if isMistakable s || special || cs.contains '\t' || hasSpaceBreak cs || hasBreakSpace cs then .double
  else if startsIndicated cs || hasIndicator (cs.drop 1) || cs.any isBreak || cs.head? == some ' ' ||
    cs.getLast? == some ' ' then .single
  else .plain

/-- A number in upper-case hexadecimal with a given number of digits. -/
def upperHex (width n : Nat) : String := String.ofList ((Text.hex width n).toList.map Char.toUpper)

/-- The letter after a backslash that stands for a character. -/
def escapeLetter? (c : Char) : Option Char :=
  match c.toNat with
  | 0x00 => some '0'
  | 0x07 => some 'a'
  | 0x08 => some 'b'
  | 0x09 => some 't'
  | 0x0A => some 'n'
  | 0x0B => some 'v'
  | 0x0C => some 'f'
  | 0x0D => some 'r'
  | 0x1B => some 'e'
  | 0x22 => some '"'
  | 0x5C => some '\\'
  | 0x85 => some 'N'
  | 0x2028 => some 'L'
  | 0x2029 => some 'P'
  | _ => none

/-- A character between double quotation marks. -/
def escaped (c : Char) : String :=
  match escapeLetter? c with
  | some letter => String.ofList ['\\', letter]
  | none =>
    let n := c.toNat
    if isShown c then String.singleton c
    else if n ≤ 0xFF then "\\x" ++ upperHex 2 n
    else if n ≤ 0xFFFF then "\\u" ++ upperHex 4 n
    else "\\U" ++ upperHex 8 n

/-- The marks after the bar of a block: that its first line is indented or empty, and how it ends. -/
def blockHints (cs : List Char) : String :=
  let indent := if cs.head?.any fun c => c == ' ' || isBreak c then "2" else ""
  let chomp := match cs.reverse with
    | [] => "-"
    | [c] => if isBreak c then "+" else "-"
    | c :: d :: _ => if !isBreak c then "-" else if isBreak d then "+" else ""
  indent ++ chomp

/-- The blanks that a line starts with. -/
def blanks (indent : Nat) : String := String.ofList (List.replicate indent ' ')

/-- The lines of a block. The flags tell whether a line break was written last, and whether indentation is due. -/
def blockLines (indent : Nat) : Bool → Bool → List Char → String
  | lineStart, _, [] => if lineStart then "" else "\n"
  | lineStart, due, c :: cs =>
    if isBreak c then String.singleton c ++ blockLines indent true true cs
    else
      let lead := if due then (if lineStart then "" else "\n") ++ blanks indent else ""
      lead ++ String.singleton c ++ blockLines indent false false cs

/-- The characters between single quotation marks. A quotation mark is written twice, and a line after a break is
indented. The flag tells whether a break was written last. -/
def singleLines (indent : Nat) : Bool → List Char → String
  | _, [] => ""
  | due, c :: cs =>
    if isBreak c then String.singleton c ++ singleLines indent true cs
    else (if due then blanks indent else "") ++ (if c == '\'' then "''" else String.singleton c) ++
      singleLines indent false cs

/-- A text as it is written after a key or a dash, up to the end of the line. Blocks are indented. -/
def writeText (indent : Nat) (s : String) : String :=
  match styleOf s with
  | .plain => s ++ "\n"
  | .single => "'" ++ singleLines indent false s.toList ++ "'\n"
  | .double => "\"" ++ String.join (s.toList.map escaped) ++ "\"\n"
  | .literal => "|" ++ blockHints s.toList ++ blockLines indent false true s.toList

end Croupier.Yaml
