import Croupier.Number
import Croupier.Run.Cards

/-!
# Transfers

A transfer takes cards from the front of a pile, or the cards of a set wherever they are in it, and puts them on the end
of another. A transfer to every player deals the cards one by one around the table, starting with the first player.
-/

namespace Croupier.Run

/-- The number of cards that go to each player, or to the one target. A set of cards counts as one. -/
def amountEach : Amount → Int
  | .count n => n
  | _ => 1

/-- The number of cards that a transfer to some targets takes from a pile that holds `held`. -/
def amountTaken (amount : Amount) (targets held : Nat) : Int :=
  match amount with
  | .all => held
  | a => wrap (amountEach a * targets)

/-- Takes cards from the front of the pile that a reference leads to. -/
def takeFrom (r : PileRef) (place : Place) (n : Int) (pos : Pos) : Run (List Card) := do
  let pile ← pileAt place
  match Pile.take? n pile with
  | none => fail (.tooFewCards r.text n pile.length pos)
  | some (taken, left) => do
    modifyTable (·.put left place)
    pure taken

/-- Deals cards to the stacks of a name, starting with the `turn`-th player. -/
def dealFrom (name : String) (pos : Pos) : Nat → List Card → Run Unit
  | _, [] => pure ()
  | turn, c :: cs => do
    let t ← table
    match t.seatPlace? (turn % t.players) name with
    | none => fail (.mismatch "transfer" "player stack" name pos)
    | some place => do
      modifyTable (·.push [c] place)
      dealFrom name pos (turn + 1) cs

/-- Takes a set of cards out of one pile and puts them on another. -/
def moveThese (fn : String) (r : PileRef) (source target : Place) (cs : List Card) (pos : Pos) : Run Unit := do
  let pile ← pileAt source
  match Pile.remove? cs pile with
  | none => fail (.rejected ⟨fn, (Value.cards cs).text ++ " not all in " ++ r.text, pos⟩)
  | some rest => do
    modifyTable (·.put rest source)
    modifyTable (·.push cs target)

/-- The pile that an end of a transfer refers to. -/
def pileRef (op : String) (v : Value) (pos : Pos) : Run PileRef :=
  match v with
  | .pile r => pure r
  | v => mismatch op "stack or deck" v pos

/-- Moves cards to the one place that has been referred to. -/
def moveTo (eval : Expr → Run Value) (invoke : Invoke) (fn : String) (r : PileRef) (source : Place)
    (targetRef : PileRef) (targetPos : Pos) (amount : Amount) (pos : Pos) : Run Unit := do
  let target ← locate targetRef targetPos
  match amount with
  | .these e => do
    let v ← eval e
    let cs ← cardsOf invoke "transfer subset" v e.pos
    moveThese fn r source target cs pos
  | _ => do
    let pile ← pileAt source
    let taken ← takeFrom r source (amountTaken amount 1 pile.length) pos
    modifyTable (·.push taken target)

/-- Moves cards between two piles that have been referred to. -/
def transferBetween (eval : Expr → Run Value) (invoke : Invoke) (fn : String) (r : PileRef) (source : Place)
    (targetRef : PileRef) (targetPos : Pos) (amount : Amount) (pos : Pos) : Run Unit := do
  match targetRef with
  | .everyPlayer name => do
    let pile ← pileAt source
    let t ← table
    let dealt ← takeFrom r source (amountTaken amount t.players pile.length) pos
    dealFrom name targetPos 0 dealt
  | _ => moveTo eval invoke fn r source targetRef targetPos amount pos

/-- Carries out a transfer in a function. -/
def transfer (eval : Expr → Run Value) (invoke : Invoke) (fn : String) (source target : Expr) (amount : Amount)
    (pos : Pos) : Run Unit := do
  let v ← eval source
  let sourceRef ← pileRef "transfer source" v source.pos
  let v ← eval target
  let targetRef ← pileRef "transfer destination" v target.pos
  let place ← locate sourceRef source.pos
  transferBetween eval invoke fn sourceRef place targetRef target.pos amount pos

end Croupier.Run
