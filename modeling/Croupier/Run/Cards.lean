import Croupier.Run

/-!
# The cards a value stands for

A pile stands for the cards that it holds at that moment, and a function for what it gives when it is called without
arguments. Two values that stand for cards are equal if they hold the same cards in any order.
-/

namespace Croupier.Run

/-- The place that a reference leads to. -/
def locate (r : PileRef) (pos : Pos) : Run Place := do
  let t ← table
  match r with
  | .everyPlayer _ => fail (.mismatch "stack" "a single stack" r.text pos)
  | .ofPlayer id name =>
    match t.seat? id with
    | none => fail (.mismatch "stack" "a seated player" r.text pos)
    | some seat =>
      match t.seatPlace? seat name with
      | none => fail (.mismatch "stack" "a player stack" r.text pos)
      | some place => pure place
  | .shared name =>
    match t.sharedPlace? name with
    | none => fail (.mismatch "stack" "a declared stack" r.text pos)
    | some place => pure place

/-- The pile at a place as it stands. -/
def pileAt (p : Place) : Run Pile := do
  let t ← table
  pure (t.pile p)

/-- The cards of a value that is not a function. -/
def heldCards (op : String) (v : Value) (pos : Pos) : Run (List Card) :=
  match v with
  | .cards cs => pure cs
  | .card c => pure [c]
  | .pile r => do
    let place ← locate r pos
    pileAt place
  | v => mismatch op "card set" v pos

/-- The cards of a value; a function is called. -/
def cardsOf (invoke : Invoke) (op : String) (v : Value) (pos : Pos) : Run (List Card) :=
  match v with
  | .function name => do
    let result ← invoke name [] pos
    heldCards op result pos
  | v => heldCards op v pos

/-- Tells whether two values are equal: numbers, symbols and functions by their text, cards as sets of cards. -/
def equal (a b : Value) (pos : Pos) : Run Bool :=
  match a, b with
  | .empty, .empty => pure true
  | .empty, _ => pure false
  | _, .empty => pure false
  | .bool x, .bool y => pure (x == y)
  | .player x, .player y => pure (x == y)
  | a, b =>
    if a.isScalar && b.isScalar then pure (a.text == b.text)
    else if a.isCards && b.isCards then do
      let x ← heldCards "is" a pos
      let y ← heldCards "is" b pos
      pure (Pile.same x y)
    else fail (.mismatch "is" "comparable values" (a.kind ++ " and " ++ b.kind) pos)

end Croupier.Run
