import Croupier.Game
import Croupier.Table.Reference

/-!
# Arranging the table

The table of a game that waits for a move can be arranged: some places are emptied and filled with given cards, which
are taken from the cards that were removed, or else from other places. Cards that nobody asked for go to the end of the
deck, so that no card is lost.
-/

namespace Croupier

/-- The cards that a place shall hold. -/
structure Placement where
  ref : String
  cards : List Card
  deriving DecidableEq, Repr

/-- Why a table cannot be arranged. -/
inductive ArrangeError where
  | ended
  | notAwaiting
  | reference (error : ReferenceError)
  | twice (ref : String)
  | missing (ref : String) (card : Card)
  | conservation
  deriving DecidableEq, Repr

/-- The text of an error. -/
def ArrangeError.message : ArrangeError → String
  | ended => endedMessage
  | notAwaiting => "game is not awaiting a move"
  | reference e => e.message
  | twice ref => "arrange: " ++ Text.quote ref ++ " listed twice"
  | missing ref c => "arrange " ++ Text.quote ref ++ ": no " ++ c.name ++ " left to place"
  | conservation => conservationMessage

namespace Table

/-- The places that placements name. No place is named twice. -/
def targets (t : Table) (seen : List Place) : List Placement → Except ArrangeError (List Place)
  | [] => .ok seen
  | p :: ps => do
    let place ← (t.find p.ref).mapError .reference
    if seen.contains place then .error (.twice p.ref) else t.targets (seen ++ [place]) ps

/-- Takes all cards from some places. -/
def clear (t : Table) (places : List Place) : Table := places.foldl (fun t p => t.put [] p) t

/-- Takes a card from the first place that has it and is not to be filled. -/
def takeElsewhere (t : Table) (filled : List Place) (c : Card) : Option Table :=
  (t.places.filter fun p => !filled.contains p).findSome? fun p => (Pile.remove? [c] (t.pile p)).map (t.put · p)

/-- Puts a card in a place: a loose card if there is one, or else one from elsewhere. -/
def placeCard (filled : List Place) (target : Place) (t : Table) (loose : List Card) (c : Card) :
    Option (Table × List Card) :=
  if loose.contains c then some (t.push [c] target, loose.erase c)
  else (t.takeElsewhere filled c).map fun t => (t.push [c] target, loose)

/-- Puts the cards of a placement in its place. -/
def placeCards (filled : List Place) (ref : String) (target : Place) :
    List Card → Table → List Card → Except ArrangeError (Table × List Card)
  | [], t, loose => .ok (t, loose)
  | c :: cs, t, loose =>
    match placeCard filled target t loose c with
    | none => .error (.missing ref c)
    | some (t, loose) => placeCards filled ref target cs t loose

/-- Fills the places of placements. -/
def fill (filled : List Place) : List (Placement × Place) → Table → List Card → Except ArrangeError (Table × List Card)
  | [], t, loose => .ok (t, loose)
  | (p, target) :: rest, t, loose => do
    let (t, loose) ← placeCards filled p.ref target p.cards t loose
    fill filled rest t loose

/-- Arranges a table. -/
def arrange (t : Table) (placements : List Placement) : Except ArrangeError Table := do
  let places ← t.targets [] placements
  let loose := places.flatMap t.pile
  let (t, loose) ← fill places (placements.zip places) (t.clear places) loose
  let t := t.push loose .deck
  if t.total ≠ t.initial then .error .conservation else .ok t

end Table

/-- Arranges the table of a game. -/
def Game.arrange (g : Game) (placements : List Placement) : Except ArrangeError Game :=
  match g.turn.phase with
  | .ended => .error .ended
  | .resolving => .error .notAwaiting
  | .awaitingMove => do
    let t ← g.table.arrange placements
    .ok { g with table := t }

/-- The cards of the pile that a reference names. -/
def Game.render (g : Game) (ref : String) : Except ReferenceError Pile := do
  let place ← g.table.find ref
  .ok (g.table.pile place)

end Croupier
