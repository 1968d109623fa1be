/-!
# Cards

A card is a rank and a suit. The ranks are numbered from the ace, 1, to the king, 13, and the suits from 0 to 3 in the
order spades, hearts, diamonds, clubs. Other numbers are kept as they are and named by their number, so that a card
which no deck contains can still be spoken of.
-/

namespace Croupier

/-- A rank, by its number. -/
structure Rank where
  number : Int
  deriving DecidableEq, Repr

namespace Rank

/-- The ranks that a deck contains. -/
def isStandard (r : Rank) : Bool := 1 ≤ r.number && r.number ≤ 13

/-- The name of a rank: a letter for the ace and the courts, else its number. -/
def name (r : Rank) : String :=
  if r.number = 1 then "A"
  else if r.number = 11 then "J"
  else if r.number = 12 then "Q"
  else if r.number = 13 then "K"
  else if 2 ≤ r.number ∧ r.number ≤ 10 then toString r.number
  else "RANK_" ++ toString r.number

end Rank

/-- A suit. The last case holds the numbers that are no suit. -/
inductive Suit where
  | spades
  | hearts
  | diamonds
  | clubs
  | other (code : Int)
  deriving DecidableEq, Repr

namespace Suit

/-- The suit with a given number. -/
def ofCode (n : Int) : Suit :=
  if n = 0 then .spades
  else if n = 1 then .hearts
  else if n = 2 then .diamonds
  else if n = 3 then .clubs
  else .other n

/-- The number of a suit. -/
def code : Suit → Int
  | spades => 0
  | hearts => 1
  | diamonds => 2
  | clubs => 3
  | other n => n

/-- A suit that is made of a code has that code. -/
@[simp]
theorem code_ofCode (n : Int) : (ofCode n).code = n := by
  unfold ofCode
  split <;> try split <;> try split <;> try split
  all_goals simp_all [code]

/-- The name of a suit. -/
def name : Suit → String
  | spades => "spades"
  | hearts => "hearts"
  | diamonds => "diamonds"
  | clubs => "clubs"
  | other n => "SUIT_" ++ toString n

/-- The four suits in the order of a new deck. -/
def all : List Suit := [spades, hearts, diamonds, clubs]

end Suit

/-- A playing card. -/
structure Card where
  rank : Rank
  suit : Suit
  deriving DecidableEq, Repr

namespace Card

/-- The card with given rank and suit numbers. -/
def ofCodes (rank suit : Int) : Card := ⟨⟨rank⟩, Suit.ofCode suit⟩

/-- The name of a card, such as `3 hearts`. -/
def name (c : Card) : String := c.rank.name ++ " " ++ c.suit.name

/-- The names of some cards, in order. -/
def names (cs : List Card) : List String := cs.map name

/-- The value of a card is the number of its rank. -/
def value (c : Card) : Int := c.rank.number

/-- The 52 cards: suit by suit, each from the ace to the king. -/
def standardDeck : List Card :=
  Suit.all.flatMap fun suit => (List.range' 1 13).map fun n => ⟨⟨(n : Nat)⟩, suit⟩

/-- The standard deck has fifty-two cards. -/
theorem length_standardDeck : standardDeck.length = 52 := by decide

/-- No card is twice in the standard deck. -/
theorem nodup_standardDeck : standardDeck.Nodup := by decide

end Card

end Croupier
