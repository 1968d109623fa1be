import Croupier.Value

/-!
# Histories

A history keeps the moves that were committed, oldest first, and if it has a limit no more than the newest ones. The
position after the setup of a game is the entry of turn 0.
-/

namespace Croupier

/-- A committed move with the checksum of the table after it. -/
structure Commit where
  turn : Int
  player : Int
  move : Move
  checksum : String
  deriving DecidableEq, Repr, Inhabited

/-- The newest commits of a game. A limit that is not positive is no limit. -/
inductive History where
  | disabled
  | keeping (limit : Int) (entries : List Commit)
  deriving DecidableEq, Repr

namespace History

/-- An empty history. -/
def new (limit : Int) : History := .keeping limit []

/-- The newest entries, as many as a limit allows. -/
def newest (limit : Int) (entries : List Commit) : List Commit :=
  if 0 < limit then entries.drop (entries.length - limit.toNat) else entries

/-- Adds an entry. -/
def record (h : History) (c : Commit) : History :=
  match h with
  | disabled => disabled
  | keeping limit entries => keeping limit (newest limit (entries ++ [c]))

/-- The entries, oldest first. -/
def entries : History → List Commit
  | disabled => []
  | keeping _ entries => entries

/-- The newest entry. -/
def last? (h : History) : Option Commit := h.entries.getLast?

end History

end Croupier
