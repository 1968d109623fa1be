/-!
# Turns

A turn manager waits for a move, resolves it, and then either waits for the next player or is at its end. It counts the
turns from one. Its operations change the turn; one that its phase does not allow fails.
-/

namespace Croupier

/-- Where a game stands between and during moves. -/
inductive Phase where
  | awaitingMove
  | resolving
  | ended
  deriving DecidableEq, Repr

namespace Phase

/-- The name of a phase. -/
def name : Phase → String
  | awaitingMove => "AWAITING_MOVE"
  | resolving => "RESOLVING"
  | ended => "ENDED"

/-- The phase with a given number. -/
def ofCode? : Int → Option Phase
  | 0 => some awaitingMove
  | 1 => some resolving
  | 2 => some ended
  | _ => none

/-- The name that stands for a number, which need not be the number of a phase. -/
def codeName (code : Int) : String :=
  match ofCode? code with
  | some phase => phase.name
  | none => "PHASE_" ++ toString code

end Phase

/-- Why a request is refused. -/
inductive TurnError where
  | noPlayers (players : Int)
  | firstPlayer (id players : Int)
  | nextPlayer (id : Int) (players : Nat)
  | transition (source target current : Phase)
  | alreadyEnded
  deriving DecidableEq, Repr

/-- The text of an error. -/
def TurnError.message : TurnError → String
  | noPlayers n => "need at least one player, got " ++ toString n
  | firstPlayer id n => "first player " ++ toString id ++ " outside 1.." ++ toString n
  | nextPlayer id n => "next player " ++ toString id ++ " outside 1.." ++ toString n
  | transition source target current =>
    "invalid phase transition: " ++ source.name ++ " -> " ++ target.name ++ " from " ++ current.name
  | alreadyEnded => "invalid phase transition: already " ++ Phase.ended.name

/-- The phase, the player on turn and the number of the turn. Players are counted from one. -/
structure Turn where
  phase : Phase
  players : Nat
  current : Nat
  number : Nat
  deriving DecidableEq, Repr

namespace Turn

/-- The first turn. -/
def start (players first : Int) : Except TurnError Turn :=
  if players < 1 then .error (.noPlayers players)
  else if first < 1 ∨ players < first then .error (.firstPlayer first players)
  else .ok ⟨.awaitingMove, players.toNat, first.toNat, 1⟩

/-- Tells whether the game is over. -/
def isEnded (t : Turn) : Bool := t.phase == .ended

/-- What a turn manager does when it is asked for something. It may fail on the way, and then the turn stays as it is by
then. -/
abbrev Operation := EStateM TurnError Turn Unit

namespace Operation

/-- Goes from one phase to another. -/
def transition (source target : Phase) : Operation := do
  let t ← get
  if t.phase = source then set { t with phase := target } else throw (.transition source target t.phase)

/-- Starts to resolve a move. -/
def begin : Operation := transition .awaitingMove .resolving

/-- Waits for another move of the same player. -/
def reject : Operation := transition .resolving .awaitingMove

/-- Hands the turn to a player. -/
def handTo (id : Nat) : Operation := modify fun t => { t with current := id, number := t.number + 1 }

/-- Finishes a move; the next player is on turn. -/
def commit : Operation := do
  transition .resolving .awaitingMove
  let t ← get
  handTo (t.current % t.players + 1)

/-- Finishes a move; a given player is on turn. -/
def commitTo (id : Int) : Operation := do
  let t ← get
  if id < 1 ∨ t.players < id then throw (.nextPlayer id t.players)
  else do
    transition .resolving .awaitingMove
    handTo id.toNat

/-- Finishes the last move. -/
def commitLast : Operation := transition .resolving .ended

/-- Ends the game. -/
def close : Operation := do
  let t ← get
  if t.phase = .ended then throw .alreadyEnded else set { t with phase := .ended }

/-- The turn to which an operation leads, unless it fails. -/
def result (op : Operation) (t : Turn) : Except TurnError Turn :=
  match op t with
  | .ok _ t' => .ok t'
  | .error e _ => .error e

end Operation

/-- The turn in which a move is resolved. -/
def begin (t : Turn) : Except TurnError Turn := Operation.begin.result t

/-- The turn in which the same player is waited for again. -/
def reject (t : Turn) : Except TurnError Turn := Operation.reject.result t

/-- The turn of the next player, after a move. -/
def commit (t : Turn) : Except TurnError Turn := Operation.commit.result t

/-- The turn of a given player, after a move. -/
def commitTo (t : Turn) (id : Int) : Except TurnError Turn := (Operation.commitTo id).result t

/-- The turn after the last move. -/
def commitLast (t : Turn) : Except TurnError Turn := Operation.commitLast.result t

/-- The turn in which the game is over. -/
def close (t : Turn) : Except TurnError Turn := Operation.close.result t

end Turn

end Croupier
