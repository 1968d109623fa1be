import Croupier.Dictionary

/-!
# Events

A game tells what happens to it by events. A bus knows who listens: to all events or to those of one kind. Every
subscription has a handle of its own, by which it can be taken back.
-/

namespace Croupier

/-- What an event is about. -/
inductive EventKind where
  | gameStarted
  | moveCommitted
  | moveRejected
  | moveFailed
  | gameEnded
  | other (name : String)
  deriving DecidableEq, Repr

namespace EventKind

/-- The name of a kind. -/
def name : EventKind → String
  | gameStarted => "GAME_STARTED"
  | moveCommitted => "MOVE_COMMITTED"
  | moveRejected => "MOVE_REJECTED"
  | moveFailed => "MOVE_FAILED"
  | gameEnded => "GAME_ENDED"
  | other name => name

/-- The kinds of event that games publish. -/
def ofGames : List EventKind := [gameStarted, moveCommitted, moveRejected, moveFailed, gameEnded]

/-- The kind with a given name. -/
def ofName (name : String) : EventKind := (ofGames.find? (·.name = name)).getD (other name)

end EventKind

/-- An event of a game. Player 0 stands for no player. -/
structure Event where
  kind : EventKind
  game : String
  turn : Nat
  player : Int
  action : String := ""
  reason : String := ""
  checksum : String := ""
  winners : List Nat := []
  deriving DecidableEq, Repr

/-- A listener with its handle. Without a kind it hears all events. -/
structure Subscription (α : Type) where
  handle : Nat
  kind : Option EventKind
  listener : α
  deriving DecidableEq, Repr

/-- Who listens to all events, by handle, and who listens to each kind, in the order in which they came. A closed bus
takes no listeners and delivers nothing. -/
structure Bus (α : Type) where
  isOpen : Bool := true
  next : Nat := 0
  toAll : Dictionary Nat α := []
  byKind : Dictionary EventKind (List (Subscription α)) := []
  deriving DecidableEq, Repr

namespace Bus

variable {α : Type}

/-- A new bus. -/
def new : Bus α := {}

/-- A bus that delivers nothing. -/
def closed : Bus α := { isOpen := false }

/-- The subscriptions to all events. -/
def general (bus : Bus α) : List (Subscription α) := bus.toAll.map fun e => ⟨e.1, none, e.2⟩

/-- The subscriptions to one kind of event. -/
def special (bus : Bus α) (kind : EventKind) : List (Subscription α) := (bus.byKind.lookup kind).getD []

/-- Enters a subscription. -/
def enter (bus : Bus α) (handle : Nat) (kind : Option EventKind) (listener : α) : Bus α :=
  match kind with
  | none => { bus with toAll := bus.toAll.set handle listener }
  | some k => { bus with byKind := bus.byKind.set k (bus.special k ++ [⟨handle, kind, listener⟩]) }

/-- Adds a listener to the events of a kind, or to all events, and gives its handle. Without a listener there is no
subscription. -/
def subscribe (bus : Bus α) (kind : Option EventKind) (listener : Option α) : Option Nat × Bus α :=
  match listener with
  | none => (none, bus)
  | some l =>
    if bus.isOpen then (some bus.next, { bus.enter bus.next kind l with next := bus.next + 1 }) else (none, bus)

/-- Takes a subscription back, whichever kind it is for. -/
def unsubscribe (bus : Bus α) (handle : Int) : Bus α :=
  { bus with
    toAll := bus.toAll.filter fun e => (e.1 : Int) != handle
    byKind := bus.byKind.map fun e => (e.1, e.2.eraseP fun s => (s.handle : Int) == handle) }

/-- Those who hear an event of a kind, in the order in which they are called. -/
def listeners (bus : Bus α) (kind : EventKind) : List (Subscription α) := bus.general ++ bus.special kind

end Bus

end Croupier
