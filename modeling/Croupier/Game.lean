import Croupier.Event
import Croupier.History
import Croupier.Run.Execute
import Croupier.Table.Canonical
import Croupier.Turn

/-!
# Games

A game is a program in play. It starts with the setup of the program. Every move is then put to the function that
receives moves, which declares the open actions; if the action of the move is open, it is carried out, and the game asks
whether it is over. A move that is refused or fails leaves the game as it was.
-/

namespace Croupier

/-- How games are run. -/
structure GameOptions where
  seed : UInt64 := 1
  /-- The number of calls that may be nested; if it is not positive, the default holds. -/
  maxDepth : Int := defaultDepth
  historyLimit : Int := 0
  recordHistory : Bool := true
  deriving DecidableEq, Repr

/-- A program in play. -/
structure Game where
  id : String
  program : Program
  depth : Nat
  table : Table
  turn : Turn
  /-- The open actions. -/
  moves : List String
  history : History

/-- The function that prepares a game. -/
def setupName : String := "setup"

/-- The function that receives every move. -/
def playerMoveName : String := "player_move"

/-- The function that tells whether a game is over. -/
def gameOverName : String := "game_over"

/-- Why a game does not start. -/
inductive StartError where
  | table (error : SetupError)
  | setup (fault : Fault)
  | conservation
  | turn (error : TurnError)
  deriving DecidableEq, Repr

/-- The text of the loss of a card. -/
def conservationMessage : String := "card conservation violated"

/-- The text of an error of a program with a given name. -/
def StartError.message (program : String) (e : StartError) : String :=
  "new game " ++ program ++ ": " ++ match e with
  | table e => e.message
  | setup f => setupName ++ ": " ++ f.message
  | conservation => conservationMessage
  | turn e => e.message

/-- Why a move fails. -/
inductive MoveError where
  | ended
  | phase (error : TurnError)
  | noPlayerMove
  | failed (fn : String) (fault : Fault)
  | fault (fault : Fault)
  | conservation
  deriving DecidableEq, Repr

/-- The text of the end of a game. -/
def endedMessage : String := "game has ended"

/-- The text of an error. -/
def MoveError.message : MoveError → String
  | ended => endedMessage
  | phase e => e.message
  | noPlayerMove => "program defines no " ++ playerMoveName ++ " function"
  | failed fn f => fn ++ ": " ++ f.message
  | fault f => f.message
  | conservation => conservationMessage

/-- How a move was decided. -/
inductive Verdict where
  | committed (checksum : String)
  | rejected (rejection : Rejection)
  deriving DecidableEq, Repr

/-- The answer to a move. -/
structure Reply where
  verdict : Verdict
  currentPlayer : Nat
  ended : Bool
  winners : List Nat
  deriving DecidableEq, Repr

/-- What a submitted move does: the answer, the game after it and the events it causes. -/
structure Submission where
  reply : Except MoveError Reply
  game : Game
  events : List Event

/-- What the functions of a program make of a move: a table and the open actions, or a rejection. -/
inductive Resolution where
  | accepted (table : Table) (moves : List String)
  | rejected (rejection : Rejection)
  deriving DecidableEq, Repr

namespace Game

/-- Runs the setup of a program. -/
def setup (p : Program) (depth : Nat) (t : Table) : Except StartError Table :=
  match p.function? setupName with
  | none => .ok t
  | some fn => do
    match ← (p.execute depth fn t {}).mapError .setup with
    | .committed t _ _ => .ok t
    | .rejected r => .error (.setup (.rejected r))

/-- The first turn of a program on a table. The game may be over before it. -/
def firstTurn (p : Program) (t : Table) : Except TurnError Turn := do
  let turn ← Turn.start p.players t.currentPlayer
  if t.ended then turn.close else .ok turn

/-- Starts a game. -/
def start (id : String) (p : Program) (o : GameOptions) : Except StartError (Game × List Event) := do
  let depth := depthLimit o.maxDepth
  let t ← (p.newTable depth o.seed).mapError .table
  let t ← setup p depth t
  if t.total ≠ t.initial then .error .conservation
  let t := { t with passed := false }
  let turn ← (firstTurn p t).mapError .turn
  let history := if o.recordHistory then History.new o.historyLimit else .disabled
  let history := history.record ⟨0, 0, default, t.checksum⟩
  .ok (⟨id, p, depth, t, turn, [], history⟩, [⟨.gameStarted, id, 0, 0, "", "", "", []⟩])

/-- The player on turn. -/
def currentPlayer (g : Game) : Nat := g.turn.current

/-- Tells whether the game is over. -/
def isEnded (g : Game) : Bool := g.turn.isEnded

/-- The player who makes a move. -/
def mover (g : Game) (m : Move) : Int := if m.player = 0 then g.currentPlayer else m.player

/-- What a move is made in. -/
def context (g : Game) (m : Move) : Context := ⟨g.mover m, some m⟩

/-- The refusal of an action that is not open. -/
def notOpen (action : String) (moves : List String) : Rejection :=
  ⟨playerMoveName, "action " ++ Text.quote action ++ " is not one of " ++ Text.bracketed moves, ⟨0, 0⟩⟩

/-- Carries out the action of a move. -/
def act (g : Game) (m : Move) (t : Table) (moves : List String) : Except MoveError Resolution :=
  match g.program.function? m.action with
  | none =>
    .error (.fault (.unknownFunction m.action ⟨0, 0⟩ (Text.closest? m.action g.program.functionNames)))
  | some fn => do
    match ← (g.program.execute g.depth fn t (g.context m)).mapError (.failed m.action) with
    | .committed t _ _ => .ok (.accepted t moves)
    | .rejected r => .ok (.rejected r)

/-- Puts a move to the program. -/
def resolve (g : Game) (m : Move) : Except MoveError Resolution :=
  match g.program.function? playerMoveName with
  | none => .error .noPlayerMove
  | some fn => do
    match ← (g.program.execute g.depth fn g.table (g.context m)).mapError (.failed playerMoveName) with
    | .rejected r => .ok (.rejected r)
    | .committed t _ declared =>
      let moves := declared.getD g.moves
      if moves.contains m.action then g.act m t moves else .ok (.rejected (notOpen m.action moves))

/-- Asks whether the game is over on a table. A refusal means that it is not. -/
def isOver (g : Game) (m : Move) (t : Table) : Except MoveError Bool :=
  match g.program.function? gameOverName with
  | none => .ok false
  | some fn => do
    match ← (g.program.execute g.depth fn t (g.context m)).mapError (.failed gameOverName) with
    | .rejected _ => .ok false
    | .committed _ (.bool b) _ => .ok b
    | .committed _ .empty _ => .ok false
    | .committed _ v _ => .error (.fault (.mismatch gameOverName "boolean" v.kind fn.pos))

/-- Hands the turn on after a move that leads to a table. -/
def nextTurn (turn : Turn) (t : Table) : Except TurnError Turn :=
  if t.ended then turn.commitLast
  else if t.passed then turn.commitTo t.currentPlayer
  else turn.commit

/-- Waits again for a move, if one is being resolved. -/
def resume (g : Game) : Game :=
  match g.turn.reject with
  | .ok turn => { g with turn := turn }
  | .error _ => g

/-- Resolves a move and gives the game after it, with what happened: a rejection, or the checksum of the new table. -/
def play (g : Game) (m : Move) : Except MoveError (Verdict × Game) := do
  match ← g.resolve m with
  | .rejected r => .ok (.rejected r, g.resume)
  | .accepted t moves =>
    let finished ← g.isOver m t
    if t.total ≠ t.initial then .error .conservation
    let t := { t with ended := t.ended || finished }
    let turn ← (nextTurn g.turn t).mapError .phase
    let t := { t with passed := false, current := turn.current - 1 }
    let sum := t.checksum
    let history := g.history.record ⟨g.turn.number, g.mover m, m, sum⟩
    .ok (.committed sum, { g with table := t, turn := turn, moves := moves, history := history })

/-- An event about a move. -/
def moveEvent (g : Game) (m : Move) (kind : EventKind) : Event :=
  { kind := kind, game := g.id, turn := g.turn.number, player := g.mover m, action := m.action }

/-- The events that a verdict on a move causes. -/
def verdictEvents (g : Game) (m : Move) (after : Game) : Verdict → List Event
  | .rejected r => [{ g.moveEvent m .moveRejected with reason := r.reason }]
  | .committed sum =>
    let committed := { g.moveEvent m .moveCommitted with checksum := sum }
    let ended := { g.moveEvent m .gameEnded with action := "", checksum := sum, winners := after.table.winners }
    if after.isEnded then [committed, ended] else [committed]

/-- Submits a move. While it is resolved the game waits for no other; unless it is committed, the game waits again. -/
def submit (g : Game) (m : Move) : Submission :=
  if g.isEnded then ⟨.error .ended, g, []⟩
  else match g.turn.begin with
  | .error e => ⟨.error (.phase e), g, []⟩
  | .ok turn =>
    let resolving := { g with turn := turn }
    match resolving.play m with
    | .error e => ⟨.error e, resolving.resume, [{ g.moveEvent m .moveFailed with reason := e.message }]⟩
    | .ok (verdict, after) =>
      ⟨.ok ⟨verdict, after.currentPlayer, after.isEnded, after.table.winners⟩, after, g.verdictEvents m after verdict⟩

end Game

end Croupier
