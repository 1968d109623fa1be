import Croupier.Number
import Croupier.Table
import Croupier.Text.Closest
import Croupier.Text.Quoted

/-!
# References to piles

A reference is the text by which people name a pile of a table: the name of a shared stack, or the number of a player, a
colon and the name of one of the stacks of that player.
-/

namespace Croupier

/-- Why a reference leads nowhere. -/
inductive ReferenceError where
  | badPlayer (ref : String)
  | noPlayer (ref : String) (id : Int)
  | unknown (ref : String) (meant : Option String)
  deriving DecidableEq, Repr

/-- The text of an error. -/
def ReferenceError.message (e : ReferenceError) : String :=
  "unknown stack " ++ match e with
  | badPlayer ref => Text.quote ref ++ ": bad player id"
  | noPlayer ref id => Text.quote ref ++ ": no player " ++ toString id
  | unknown ref none => Text.quote ref
  | unknown ref (some name) => Text.quote ref ++ " (" ++ Text.didYouMean (Text.quote name) ++ ")"

/-- The reference to a place. -/
def Place.reference : Place → String
  | deck => deckName
  | shared name => name
  | seat i name => toString (i + 1) ++ ":" ++ name

/-- Splits a reference at its first colon into a player and a stack. -/
def splitReference (ref : String) : Option (String × String) :=
  match ref.toList.span (· ≠ ':') with
  | (_, []) => none
  | (player, _ :: stack) => some (String.ofList player, String.ofList stack)

namespace Table

/-- The place that a reference names. -/
def find (t : Table) (ref : String) : Except ReferenceError Place :=
  match splitReference ref with
  | none =>
    match t.sharedPlace? ref with
    | some place => .ok place
    | none => .error (.unknown ref (Text.closest? ref (deckName :: t.shared.names)))
  | some (player, name) =>
    match Numeral.readInt? player with
    | none => .error (.badPlayer ref)
    | some id =>
      match t.seat? id with
      | none => .error (.noPlayer ref id)
      | some seat =>
        match t.seatPlace? seat name with
        | some place => .ok place
        | none => .error (.unknown ref (Text.closest? name ((t.seats[seat]?).getD []).names))

/-- The references to all places. -/
def references (t : Table) : List String := t.places.map Place.reference

end Table

end Croupier
