/-!
# Blank characters

The blank characters are those with the Unicode property White_Space. Words of a text are its longest runs of
characters that are not blank.
-/

namespace Croupier.Text

/-- Tells whether a character has the property White_Space. -/
def isBlank (c : Char) : Bool :=
  let n := c.toNat
  (0x09 ≤ n && n ≤ 0x0D) || n == 0x20 || n == 0x85 || n == 0xA0 || n == 0x1680 ||
    (0x2000 ≤ n && n ≤ 0x200A) || n == 0x2028 || n == 0x2029 || n == 0x202F || n == 0x205F || n == 0x3000

/-- Removes characters of a class from both ends. -/
def trimBy (p : Char → Bool) (cs : List Char) : List Char :=
  ((cs.dropWhile p).reverse.dropWhile p).reverse

/-- Removes blanks from both ends of a text. -/
def trim (s : String) : String := String.ofList (trimBy isBlank s.toList)

/-- Puts a finished word in front of the words after it; an empty one is no word. -/
def consWord (word : List Char) (words : List (List Char)) : List (List Char) :=
  if word.isEmpty then words else word :: words

/-- The word that the text starts with, which may be empty, and the words after it. -/
def splitWords : List Char → List Char × List (List Char)
  | [] => ([], [])
  | c :: cs =>
    let (word, words) := splitWords cs
    if isBlank c then ([], consWord word words) else (c :: word, words)

/-- The words of a text, in order. -/
def words (s : String) : List String :=
  let (word, rest) := splitWords s.toList
  (consWord word rest).map String.ofList

end Croupier.Text
