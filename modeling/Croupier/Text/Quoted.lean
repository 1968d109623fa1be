import Croupier.Text.Printable

/-!
# Quoted text

A quoted text stands between quotation marks. The mark itself and the backslash are escaped by a backslash, printable
characters stand for themselves, the common controls have letters of their own, and every other character is written by
its code point in lower-case hexadecimal.
-/

namespace Croupier.Text

/-- A number in lower-case hexadecimal with at least `width` digits. -/
def hex (width : Nat) (n : Nat) : String :=
  let digits := Nat.toDigits 16 n
  String.ofList (List.replicate (width - digits.length) '0' ++ digits)

/-- The escape of a control character that has a letter of its own. -/
def controlEscape? (c : Char) : Option String :=
  match c.toNat with
  | 0x07 => some "\\a"
  | 0x08 => some "\\b"
  | 0x0C => some "\\f"
  | 0x0A => some "\\n"
  | 0x0D => some "\\r"
  | 0x09 => some "\\t"
  | 0x0B => some "\\v"
  | _ => none

/-- A character as it is written between two `mark`s. -/
def escape (mark c : Char) : String :=
  if c == mark || c == '\\' then String.ofList ['\\', c]
  else if isPrintable c then String.singleton c
  else match controlEscape? c with
    | some s => s
    | none =>
      let n := c.toNat
      if n < 0x80 then "\\x" ++ hex 2 n
      else if n < 0x10000 then "\\u" ++ hex 4 n
      else "\\U" ++ hex 8 n

/-- A text between double quotation marks. -/
def quote (s : String) : String :=
  "\"" ++ String.join (s.toList.map (escape '"')) ++ "\""

/-- A character between single quotation marks. -/
def quoteChar (c : Char) : String := "'" ++ escape '\'' c ++ "'"

/-- A list of texts between brackets, separated by spaces. -/
def bracketed (items : List String) : String := "[" ++ " ".intercalate items ++ "]"

end Croupier.Text
