import Croupier.Text.Case

/-!
# The closest name

A misspelt name is answered with a name that was probably meant: of the candidates that contain its letters in order,
whatever their case, the one at the least edit distance, and of several such the first.
-/

namespace Croupier.Text

/-- Tells whether the first list can be had from the second by leaving elements out. -/
def isSubsequence : List Char → List Char → Bool
  | [], _ => true
  | _ :: _, [] => false
  | a :: as, b :: bs => if a == b then isSubsequence as bs else isSubsequence (a :: as) bs

/-- One row of the table of edit distances: `above` is the row before it from the second entry on, `corner` its first
entry, and `left` the entry just written. -/
def distanceRow (c : Char) : List Char → Nat → Nat → List Nat → List Nat
  | b :: bs, corner, left, up :: above =>
    let entry := min (min (up + 1) (left + 1)) (corner + if c == b then 0 else 1)
    entry :: distanceRow c bs up entry above
  | _, _, _, _ => []

/-- The last entry of the table whose row for the letters read so far is `first :: row`. -/
def distanceFrom (target : List Char) : List Char → Nat → List Nat → Nat
  | [], first, row => row.getLastD first
  | c :: cs, first, row => distanceFrom target cs (first + 1) (distanceRow c target first (first + 1) row)

/-- The least number of insertions, deletions and replacements of single characters that turn one text into another. -/
def editDistance (source target : String) : Nat :=
  let t := target.toList
  distanceFrom t source.toList 0 (List.range' 1 t.length)

/-- Tells whether a candidate has the letters of the target in order, in any case. -/
def resembles (target candidate : String) : Bool :=
  isSubsequence (lower target).toList (lower candidate).toList

/-- Of two candidates with their distances, the nearer; the first if they are equally near. -/
def nearer (a b : String × Nat) : String × Nat := if b.2 < a.2 then b else a

/-- The candidate that was probably meant. -/
def closest? (target : String) (candidates : List String) : Option String :=
  let near := (candidates.filter (resembles target)).map fun c => (c, editDistance target c)
  match near with
  | [] => none
  | first :: rest =>
    let best := (rest.foldl nearer first).1
    if best.isEmpty then none else some best

/-- The question that follows an unknown name. -/
def didYouMean (name : String) : String := "did you mean " ++ name ++ "?"

end Croupier.Text
