import Croupier.Pile

/-!
# Tables

A table holds the deck, the stacks that all players share, and for every seat the stacks of its player; it knows whose
turn it is, who has won, whether the game has ended, and from where its random numbers come. A place is one pile of the
table. A rack keeps named piles in the order in which they were declared; a name that was declared twice is one pile
which is listed twice.
-/

namespace Croupier

/-- The name of the deck. -/
def deckName : String := "deck"

/-- Named piles in the order of their declaration. -/
abbrev Rack := List (String × Pile)

namespace Rack

/-- Empty piles with given names. -/
def ofNames (names : List String) : Rack := names.map (·, [])

/-- The names of the piles. -/
def names (r : Rack) : List String := r.map (·.1)

/-- The pile with a given name. -/
def pile? (r : Rack) (name : String) : Option Pile := r.lookup name

/-- Changes the pile with a given name. -/
def set (r : Rack) (name : String) (p : Pile) : Rack := r.map fun e => if e.1 = name then (e.1, p) else e

/-- A rack that is made of names has these names. -/
@[simp]
theorem names_ofNames (names : List String) : (ofNames names).names = names := by
  simp [ofNames, Rack.names, Function.comp_def]

/-- To set a pile does not change the names. -/
@[simp]
theorem names_set (r : Rack) (name : String) (p : Pile) : (r.set name p).names = r.names := by
  unfold set Rack.names
  rw [List.map_map]
  refine List.map_congr_left fun e _ => ?_
  simp only [Function.comp_apply]
  split <;> rfl

end Rack

/-- A pile of the table. Seats are counted from zero. -/
inductive Place where
  | deck
  | shared (name : String)
  | seat (index : Nat) (name : String)
  deriving DecidableEq, Repr

/-- The name of the pile at a place. -/
def Place.name : Place → String
  | deck => deckName
  | shared name => name
  | seat _ name => name

/-- Why a table cannot be laid. -/
inductive LayoutError where
  | noPlayers (players : Int)
  | currentPlayer (id players : Int)
  deriving DecidableEq, Repr

/-- The text of an error. -/
def LayoutError.message : LayoutError → String
  | noPlayers n => "need at least one player, got " ++ toString n
  | currentPlayer id n => "current player " ++ toString id ++ " outside 1.." ++ toString n

/-- A position of a game. -/
structure Table where
  deck : Pile
  shared : Rack
  seats : List Rack
  /-- The seat whose turn it is. -/
  current : Nat
  winners : List Nat
  ended : Bool
  /-- Whether the program has passed the turn on in the move that is being played. -/
  passed : Bool
  /-- The number of cards in the game. -/
  initial : Nat
  generator : Generator
  deriving DecidableEq, Repr

namespace Table

/-- The generator that a seed stands for. -/
def generatorOf (seed : UInt64) : Generator := .ofSeeds seed (seed ^^^ 0x9e3779b97f4a7c15)

/-- Lays a table: all cards are in the deck. Players are counted from one. -/
def lay (deck : Pile) (tableStacks playerStacks : List String) (players current : Int) (seed : UInt64) :
    Except LayoutError Table :=
  if players < 1 then .error (.noPlayers players)
  else if current < 1 ∨ players < current then .error (.currentPlayer current players)
  else .ok {
    deck := deck
    shared := .ofNames tableStacks
    seats := List.replicate players.toNat (.ofNames playerStacks)
    current := (current - 1).toNat
    winners := []
    ended := false
    passed := false
    initial := deck.length
    generator := generatorOf seed }

/-- The number of players. -/
def players (t : Table) : Nat := t.seats.length

/-- The player whose turn it is, counted from one. -/
def currentPlayer (t : Table) : Nat := t.current + 1

/-- The seat of a player. -/
def seat? (t : Table) (id : Int) : Option Nat :=
  if 1 ≤ id ∧ id ≤ t.players then some (id - 1).toNat else none

/-- The pile at a place. -/
def pile? (t : Table) : Place → Option Pile
  | .deck => some t.deck
  | .shared name => t.shared.pile? name
  | .seat i name => do (← t.seats[i]?).pile? name

/-- The pile at a place; a place that is not there is empty. -/
def pile (t : Table) (p : Place) : Pile := (t.pile? p).getD []

/-- Changes the pile at a place. -/
def put (t : Table) (cards : Pile) : Place → Table
  | .deck => { t with deck := cards }
  | .shared name => { t with shared := t.shared.set name cards }
  | .seat i name => { t with seats := t.seats.modify i (·.set name cards) }

/-- Puts cards on the end of the pile at a place. -/
def push (t : Table) (cards : List Card) (p : Place) : Table := t.put (t.pile p ++ cards) p

/-- The place of the deck or of a shared stack. -/
def sharedPlace? (t : Table) (name : String) : Option Place :=
  if name = deckName then some .deck
  else if (t.shared.pile? name).isSome then some (.shared name)
  else none

/-- The place of a stack at a seat. -/
def seatPlace? (t : Table) (index : Nat) (name : String) : Option Place :=
  if (t.pile? (.seat index name)).isSome then some (.seat index name) else none

/-- The places of the stacks at some seats. -/
def seatPlaces (seats : List Rack) : List Place := seats.zipIdx.flatMap fun seat => seat.1.names.map (.seat seat.2)

/-- All places: the deck, the shared stacks, then seat by seat. -/
def places (t : Table) : List Place := .deck :: t.shared.names.map .shared ++ seatPlaces t.seats

/-- All cards, place by place. -/
def cards (t : Table) : List Card := t.places.flatMap t.pile

/-- The number of cards at all places. -/
def total (t : Table) : Nat := t.places.foldr (fun p n => (t.pile p).length + n) 0

/-- The turn goes to the next seat, and from the last to the first. -/
def advance (t : Table) : Table := { t with current := (t.current + 1) % t.players }

/-- The program passes the turn on. -/
def pass (t : Table) : Table := { t.advance with passed := true }

/-- A player wins, if there is such a player; to win twice is to win once. -/
def win? (t : Table) (id : Int) : Option Table := do
  let seat ← t.seat? id
  if t.winners.contains (seat + 1) then some t else some { t with winners := t.winners ++ [seat + 1] }

/-- Shuffles the pile at a place. -/
def shuffle (t : Table) (p : Place) : Table :=
  let (cards, g) := t.generator.shuffle (t.pile p)
  { t.put cards p with generator := g }

/-- Draws a number below `n`. -/
def draw (t : Table) (n : Nat) : Nat × Table :=
  let (x, g) := t.generator.below n
  (x, { t with generator := g })

end Table

end Croupier
