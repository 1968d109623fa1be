import Croupier.Card

/-!
# Poker hands

A hand of three, five or seven cards has a rank: its place among all hands that differ in strength, counted from the
weakest. The strength of a hand is a score: its kind, then the ranks that decide between hands of its kind, each as one
hexadecimal digit. Three cards have no straights and no flushes; seven cards count as their best five.
-/

namespace Croupier

/-- Why some cards are no hand. -/
inductive HandError where
  | suit (suit : Suit)
  | card (suit : Nat) (rank : Nat)
  | size (count : Nat)
  deriving DecidableEq, Repr

/-- The text of an error. -/
def HandError.message : HandError → String
  | suit s => "invalid suit " ++ s.name
  | card s r => "illegal card " ++ toString s ++ " " ++ toString r
  | size n => "hand rank needs 3, 5 or 7 cards, got " ++ toString n

namespace Hand

/-- A card as a hand sees it: the suit and the height of the rank, from 2 to 14 with the ace high. -/
structure Held where
  suit : Nat
  height : Nat
  deriving DecidableEq, Repr

/-- The number of a suit in the order clubs, diamonds, hearts, spades. -/
def suitNumber? : Suit → Option Nat
  | .clubs => some 0
  | .diamonds => some 1
  | .hearts => some 2
  | .spades => some 3
  | .other _ => none

/-- A card of a hand. Ranks are numbered in one byte. -/
def hold (c : Card) : Except HandError Held :=
  match suitNumber? c.suit with
  | none => .error (.suit c.suit)
  | some suit =>
    let rank := (c.rank.number % 256).toNat
    if rank = 0 ∨ 13 < rank then .error (.card suit rank)
    else .ok ⟨suit, if rank = 1 then 14 else rank⟩

/-- The heights from the ace down to the two. -/
def heights : List Nat := (List.range' 2 13).reverse

/-- The heights that occur, those that occur more often first and then the higher first, each with its number. -/
def groups (hs : List Nat) : List (Nat × Nat) :=
  [5, 4, 3, 2, 1].flatMap fun k => (heights.filter (hs.count · == k)).map (k, ·)

/-- The kind of a hand in which ranks repeat in a given way. -/
def kind : List Nat → Nat
  | [5] => 9
  | [4, 1] => 7
  | [3, 2] => 6
  | 3 :: _ => 3
  | 2 :: 2 :: _ => 2
  | 2 :: _ => 1
  | _ => 0

/-- The top of five heights in a row, given from the highest; the ace may stand below the two. -/
def straight? : List Nat → Option Nat
  | [14, 5, 4, 3, 2] => some 5
  | [a, b, c, d, e] => if a = b + 1 ∧ b = c + 1 ∧ c = d + 1 ∧ d = e + 1 then some a else none
  | _ => none

/-- Five hexadecimal digits after the kind. -/
def score (kind : Nat) (deciding : List Nat) : Nat :=
  (deciding ++ List.replicate (5 - deciding.length) 0).foldl (fun n d => n * 16 + d) kind

/-- The strength of three or five cards. -/
def strength (hs : List Nat) (flush : Bool) : Nat :=
  let gs := groups hs
  let deciding := gs.map (·.2)
  match straight? deciding, flush with
  | some top, true => score 8 [top]
  | some top, false => score 4 [top]
  | none, true => score 5 deciding
  | none, false => score (kind (gs.map (·.1))) deciding

/-- All ways to choose `k` elements in order. -/
def choose {α : Type} : Nat → List α → List (List α)
  | 0, _ => [[]]
  | _ + 1, [] => []
  | k + 1, x :: xs => (choose k xs).map (x :: ·) ++ choose (k + 1) xs

/-- All ways to choose `k` elements in order, each as often as one likes. -/
def chooseRepeated {α : Type} : Nat → List α → List (List α)
  | k, [] => if k = 0 then [[]] else []
  | k, x :: xs => (List.range (k + 1)).flatMap fun i =>
    (chooseRepeated (k - i) xs).map (List.replicate i x ++ ·)

/-- The strengths of all hands of three and five cards, from the weakest, without repetition. -/
def strengths : List Nat :=
  let three := (chooseRepeated 3 heights).map (strength · false)
  let five := (chooseRepeated 5 heights).map (strength · false)
  let flushes := (choose 5 heights).map (strength · true)
  ((three ++ five ++ flushes).mergeSort).eraseReps

/-- The number of strengths below a given one. -/
def place (s : Nat) : Nat := strengths.countP (· < s)

/-- Tells whether all cards have one suit. -/
def isFlush : List Held → Bool
  | [] => false
  | h :: hs => hs.all (·.suit == h.suit)

/-- The strength of five cards. -/
def strengthOfFive (hs : List Held) : Nat := strength (hs.map (·.height)) (isFlush hs)

/-- The rank of a hand. -/
def rank (cs : List Card) : Except HandError Nat := do
  let hs ← cs.mapM hold
  match hs.length with
  | 3 => .ok (place (strength (hs.map (·.height)) false))
  | 5 => .ok (place (strengthOfFive hs))
  | 7 => .ok (place ((choose 5 hs).foldl (fun best five => max best (strengthOfFive five)) 0))
  | n => .error (.size n)

end Hand

end Croupier
