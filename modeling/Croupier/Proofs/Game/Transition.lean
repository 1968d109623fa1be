import Croupier.Game.Arrange
import Croupier.Proofs.Program.Deck
import Croupier.Proofs.Table.Arrange
import Croupier.Proofs.Turn.Requests

/-!
# What can happen to a game

A game starts on the table that the setup of its program leaves (`start_ok`). A game that waits for a move either stays
as it was or commits the move (`submit_awaiting`), and what a commit does is said once (`Committed`); a game that is
over stays as it is. An arrangement changes nothing but the table (`arrange_ok`).
-/

namespace Croupier

/-- Tells whether a reply commits the move. -/
def Reply.commits (r : Reply) : Bool :=
  match r.verdict with
  | .committed _ => true
  | .rejected _ => false

/-- Tells whether a submitted move is committed. -/
def Submission.commits (s : Submission) : Bool :=
  match s.reply with
  | .ok r => r.commits
  | .error _ => false

namespace Game

/-- The game that starts on a table. -/
def opening (id : String) (p : Program) (o : GameOptions) (t : Table) : Game :=
  let t := { t with passed := false }
  let turn := ⟨if t.ended then .ended else .awaitingMove, p.players.toNat, t.currentPlayer, 1⟩
  let history := if o.recordHistory then History.new o.historyLimit else .disabled
  ⟨id, p, depthLimit o.maxDepth, t, turn, [], history.record ⟨0, 0, default, t.checksum⟩⟩

/-- The setup changes the table by steps. -/
lemma setup_steps {p : Program} {depth : Nat} {t t' : Table} (h : setup p depth t = .ok t') : Table.Steps t t' := by
  unfold setup at h
  split at h
  · cases h
    exact .refl
  · obtain ⟨outcome, ho, h⟩ := bind_eq_ok.mp h
    cases outcome with
    | committed t₁ v moves =>
      cases h
      exact Program.execute_steps (mapError_eq_ok.mp ho)
    | rejected r => cases h

/-- The first turn belongs to the player on turn after the setup, and it is the last one if the setup has ended the
game. -/
lemma firstTurn_ok {p : Program} {t : Table} {turn : Turn} (h : firstTurn p t = .ok turn) :
    turn = ⟨if t.ended then .ended else .awaitingMove, p.players.toNat, t.currentPlayer, 1⟩ := by
  obtain ⟨first, hs, h⟩ := bind_eq_ok.mp h
  unfold Turn.start at hs
  split_ifs at hs
  cases hs
  split_ifs at h ⊢
  · cases h
    rfl
  · cases h
    rfl

/-- A game starts on the table that the setup leaves. -/
lemma start_ok {id : String} {p : Program} {o : GameOptions} {g : Game} {es : List Event}
    (h : start id p o = .ok (g, es)) :
    ∃ laid t, p.newTable (depthLimit o.maxDepth) o.seed = .ok laid ∧ Table.Steps laid t ∧ g = opening id p o t := by
  obtain ⟨laid, hl, h⟩ := bind_eq_ok.mp h
  obtain ⟨t, ht, h⟩ := bind_eq_ok.mp h
  simp only at h
  split at h
  · cases h
  obtain ⟨turn, hf, h⟩ := bind_eq_ok.mp h
  cases h
  refine ⟨laid, t, mapError_eq_ok.mp hl, setup_steps ht, ?_⟩
  rw [firstTurn_ok (mapError_eq_ok.mp hf)]
  rfl

/-- An action changes the table by steps. -/
lemma act_steps {g : Game} {m : Move} {t t' : Table} {moves moves' : List String}
    (h : g.act m t moves = .ok (.accepted t' moves')) : Table.Steps t t' := by
  unfold act at h
  split at h
  · cases h
  · obtain ⟨outcome, ho, h⟩ := bind_eq_ok.mp h
    cases outcome with
    | committed t₁ v declared =>
      cases h
      exact Program.execute_steps (mapError_eq_ok.mp ho)
    | rejected r => cases h

/-- To receive a move and to carry out its action changes the table by steps. -/
lemma resolve_steps {g : Game} {m : Move} {t : Table} {moves : List String}
    (h : g.resolve m = .ok (.accepted t moves)) : Table.Steps g.table t := by
  unfold resolve at h
  split at h
  · cases h
  · obtain ⟨outcome, ho, h⟩ := bind_eq_ok.mp h
    cases outcome with
    | rejected r => cases h
    | committed t₁ v declared =>
      have hmove := Program.execute_steps (mapError_eq_ok.mp ho)
      simp only at h
      split at h
      · exact hmove.trans (act_steps h)
      · cases h

/-- That the game is over is a step, or none if it is not. -/
lemma steps_ended (t : Table) (finished : Bool) : Table.Steps t { t with ended := t.ended || finished } := by
  cases finished with
  | true =>
    rw [Bool.or_true]
    exact .single .finish
  | false =>
    rw [Bool.or_false]

/-- A game that resolves a move. -/
def resolving (g : Game) : Game := { g with turn := { g.turn with phase := .resolving } }

/-- A game that stops resolving a move is the game that waited for it. -/
lemma resume_resolving {g : Game} (hp : g.turn.phase = .awaitingMove) : g.resolving.resume = g := by
  obtain ⟨id, program, depth, table, ⟨phase, players, current, number⟩, moves, history⟩ := g
  cases hp
  rfl

/-- The game after a move has been committed that leads to a table, a turn and open actions. -/
def commit (g : Game) (m : Move) (t : Table) (turn : Turn) (moves : List String) : Game :=
  let t := { t with passed := false, current := turn.current - 1 }
  { g with
    table := t
    turn := turn
    moves := moves
    history := g.history.record ⟨g.turn.number, g.mover m, m, t.checksum⟩ }

/-- What the commit of a move does: the table changes by steps, the turn goes on, and the history records the move. -/
inductive Committed (g : Game) (m : Move) : Game → Prop where
  | intro {t : Table} {turn : Turn} (moves : List String) (steps : Table.Steps g.table t)
      (next : nextTurn g.resolving.turn t = .ok turn) : Committed g m (g.commit m t turn moves)

/-- A move that is played is rejected, and the game is as it was; or it is committed. -/
lemma play_ok {g g' : Game} {m : Move} {v : Verdict} (hp : g.turn.phase = .awaitingMove)
    (h : g.resolving.play m = .ok (v, g')) :
    (∃ r, v = .rejected r ∧ g' = g) ∨ (v = .committed g'.table.checksum ∧ Committed g m g') := by
  obtain ⟨resolution, hr, h⟩ := bind_eq_ok.mp h
  cases resolution with
  | rejected r =>
    cases h
    exact .inl ⟨r, rfl, resume_resolving hp⟩
  | accepted t moves =>
    obtain ⟨finished, ho, h⟩ := bind_eq_ok.mp h
    simp only at h
    split at h
    · cases h
    obtain ⟨turn, ht, h⟩ := bind_eq_ok.mp h
    cases h
    have hsteps : Table.Steps g.table { t with ended := t.ended || finished } :=
      (resolve_steps hr).trans (steps_ended t finished)
    exact .inr ⟨rfl, .intro (g := g) (m := m) moves hsteps (mapError_eq_ok.mp ht)⟩

/-- A game that is over refuses every move. -/
lemma submit_ended {g : Game} (hp : g.turn.phase = .ended) (m : Move) : g.submit m = ⟨.error .ended, g, []⟩ := by
  have he : g.isEnded = true := by
    unfold isEnded Turn.isEnded
    rw [hp]
    rfl
  unfold submit
  rw [if_pos he]

/-- A game that waits for a move resolves it. -/
lemma submit_eq {g : Game} (hp : g.turn.phase = .awaitingMove) (m : Move) :
    g.submit m = match g.resolving.play m with
      | .error e => ⟨.error e, g, [{ g.moveEvent m .moveFailed with reason := e.message }]⟩
      | .ok (verdict, after) =>
        ⟨.ok ⟨verdict, after.currentPlayer, after.isEnded, after.table.winners⟩, after,
          g.verdictEvents m after verdict⟩ := by
  have he : ¬ g.isEnded = true := by
    unfold isEnded Turn.isEnded
    rw [hp]
    exact nofun
  have hb : g.turn.begin = .ok g.resolving.turn :=
    Turn.Operation.result_eq_ok.mpr (Turn.Operation.transition_of_eq hp)
  unfold submit
  rw [if_neg he, hb]
  have hr : ({ g with turn := g.resolving.turn } : Game) = g.resolving := rfl
  cases hplay : g.resolving.play m with
  | error e => simp only [hr, hplay, resume_resolving hp]
  | ok out => simp only [hr, hplay]

/-- The answer to a move that was committed and led to a game. -/
def commitReply (g : Game) : Reply := ⟨.committed g.table.checksum, g.currentPlayer, g.isEnded, g.table.winners⟩

/-- A move is committed, or the game stays as it was. -/
lemma submit_awaiting {g : Game} (hp : g.turn.phase = .awaitingMove) (m : Move) :
    ((g.submit m).commits = false ∧ (g.submit m).game = g) ∨
      ((g.submit m).reply = .ok (g.submit m).game.commitReply ∧ Committed g m (g.submit m).game) := by
  rw [submit_eq hp]
  cases hplay : g.resolving.play m with
  | error e => exact .inl ⟨rfl, rfl⟩
  | ok out =>
    obtain ⟨v, g'⟩ := out
    rcases play_ok hp hplay with ⟨r, rfl, rfl⟩ | ⟨rfl, hc⟩
    · exact .inl ⟨rfl, rfl⟩
    · exact .inr ⟨rfl, hc⟩

/-- After a committed move the turn manager takes one of three steps: to its end, to the player whom the program has
chosen, or to the next player. -/
lemma nextTurn_step {turn turn' : Turn} {t : Table} (h : nextTurn turn t = .ok turn') :
    (t.ended = true ∧ turn.Step (.commit true) turn') ∨
      (t.ended = false ∧ t.passed = true ∧ turn.Step (.commitTo t.currentPlayer) turn') ∨
      (t.ended = false ∧ t.passed = false ∧ turn.Step (.commit false) turn') := by
  unfold nextTurn at h
  split_ifs at h with hended hpassed
  · exact .inl ⟨hended, Turn.step_of_result h⟩
  · exact .inr (.inl ⟨eq_false_of_ne_true hended, hpassed, Turn.step_of_result h⟩)
  · exact .inr (.inr ⟨eq_false_of_ne_true hended, eq_false_of_ne_true hpassed, Turn.step_of_result h⟩)

/-- After a committed move the game is over, or another player, who has a seat, is on the next turn. -/
lemma nextTurn_ok {turn turn' : Turn} {t : Table} (h : nextTurn turn t = .ok turn') :
    (t.ended = true ∧ turn' = { turn with phase := .ended }) ∨
      (t.ended = false ∧ ∃ id, (0 < turn.players → 1 ≤ id ∧ id ≤ turn.players) ∧
        turn' = ⟨.awaitingMove, turn.players, id, turn.number + 1⟩) := by
  rcases nextTurn_step h with ⟨hended, hstep⟩ | ⟨hended, _, hstep⟩ | ⟨hended, _, hstep⟩
  · cases hstep with
    | commitLast => exact .inl ⟨hended, rfl⟩
  · cases hstep with
    | commitTo hone hle => exact .inr ⟨hended, _, fun _ => ⟨by omega, by omega⟩, rfl⟩
  · cases hstep with
    | commit => exact .inr ⟨hended, _, fun hpos => ⟨by omega, Nat.mod_lt _ hpos⟩, rfl⟩

/-- An arrangement changes nothing but the table. -/
lemma arrange_ok {g g' : Game} {ps : List Placement} (h : g.arrange ps = .ok g') :
    ∃ t, g.table.arrange ps = .ok t ∧ g' = { g with table := t } := by
  unfold arrange at h
  split at h
  · cases h
  · cases h
  · obtain ⟨t, ht, h⟩ := bind_eq_ok.mp h
    cases h
    exact ⟨t, ht, rfl⟩

/-- The table of a game that is over cannot be arranged. -/
lemma arrange_ended {g : Game} (hp : g.turn.phase = .ended) (ps : List Placement) : g.arrange ps = .error .ended := by
  unfold arrange
  rw [hp]

end Game

end Croupier
