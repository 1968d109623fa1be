import Croupier.Digest
import Croupier.Table
import Croupier.Text.Quoted

/-!
# The canonical text of a table

Two tables that a player could not tell apart have one canonical text: the order of the deck counts, the order of the
cards in a stack does not, and stacks stand in the order of their names. The checksum of a table is the digest of its
canonical text.
-/

namespace Croupier

namespace Rack

/-- The names of the piles in ascending order, each once. -/
def sortedNames (r : Rack) : List String := (r.names.mergeSort fun a b => decide (a ≤ b)).eraseReps

/-- The cards of a pile by their names in ascending order. -/
def sortedCards (p : Pile) : String := ",".intercalate ((Card.names p).mergeSort fun a b => decide (a ≤ b))

/-- One line for each pile. -/
def canonical (r : Rack) (indent : String) : String :=
  String.join <| r.sortedNames.map fun name =>
    indent ++ "STACK:" ++ name ++ "|" ++ sortedCards ((r.pile? name).getD []) ++ "\n"

end Rack

namespace Table

/-- The canonical text of a table. -/
def canonical (t : Table) : String :=
  let winners := Text.bracketed (t.winners.map toString)
  let game := "GAME:" ++ toString t.current ++ "|" ++ toString t.ended ++ "|" ++ winners ++ "\n"
  let deck := "DECK:" ++ ",".intercalate (Card.names t.deck) ++ "\n"
  let seats := t.seats.zipIdx.map fun (rack, i) =>
    "PLAYER:" ++ toString (i + 1) ++ "\n" ++ rack.canonical "  "
  game ++ deck ++ t.shared.canonical "" ++ String.join seats

/-- The checksum of a table. -/
def checksum (t : Table) : String := Digest.hexDigest t.canonical

end Table

end Croupier
