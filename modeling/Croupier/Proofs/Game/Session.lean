import Croupier.Program.Parser
import Croupier.Proofs.Game.Transition

/-!
# Sessions

In a session a game answers one request after another: moves are submitted and the table is arranged. What every commit
and every arrangement keeps, a session keeps (`Invariant.after`).
-/

namespace Croupier

/-- A request to a game. -/
inductive Request where
  | submit (move : Move)
  | arrange (placements : List Placement)
  deriving DecidableEq, Repr

/-- The answer to a request. -/
inductive Answer where
  | submitted (reply : Except MoveError Reply) (events : List Event)
  | arranged (result : Except ArrangeError Unit)

/-- Tells whether a move was submitted and committed. -/
def Answer.commits : Answer → Bool
  | submitted (.ok r) _ => r.commits
  | _ => false

/-- The answer to a request, and the game after it. -/
structure Exchange where
  answer : Answer
  game : Game

namespace Game

/-- Answers a request. A table that cannot be arranged stays as it is. -/
def handle (g : Game) : Request → Exchange
  | .submit m =>
    let s := g.submit m
    ⟨.submitted s.reply s.events, s.game⟩
  | .arrange ps =>
    match g.arrange ps with
    | .ok g' => ⟨.arranged (.ok ()), g'⟩
    | .error e => ⟨.arranged (.error e), g⟩

/-- Answers requests one after another. -/
def session (g : Game) : List Request → List Exchange
  | [] => []
  | r :: rs => g.handle r :: (g.handle r).game.session rs

/-- The game after some requests. -/
def after (g : Game) : List Request → Game
  | [] => g
  | r :: rs => (g.handle r).game.after rs

/-- A request that submits a move is committed if the move is. -/
@[simp]
lemma handle_submit_commits (g : Game) (m : Move) : (g.handle (.submit m)).answer.commits = (g.submit m).commits := by
  show Answer.commits (.submitted (g.submit m).reply (g.submit m).events) = _
  unfold Submission.commits
  cases (g.submit m).reply with
  | error e => rfl
  | ok r => rfl

/-- A table that can be arranged is. -/
lemma handle_arrange_ok {g g' : Game} {ps : List Placement} (h : g.arrange ps = .ok g') :
    g.handle (.arrange ps) = ⟨.arranged (.ok ()), g'⟩ := by
  simp only [handle, h]

/-- A table that cannot be arranged stays as it is. -/
lemma handle_arrange_error {g : Game} {ps : List Placement} {e : ArrangeError} (h : g.arrange ps = .error e) :
    g.handle (.arrange ps) = ⟨.arranged (.error e), g⟩ := by
  simp only [handle, h]

/-- Between requests no move is being resolved. -/
def Settled (g : Game) : Prop := g.turn.phase = .awaitingMove ∨ g.turn.phase = .ended

/-- A move is committed by a game that waits for it, or the game stays as it was. -/
lemma submit_cases {g : Game} (hs : g.Settled) (m : Move) :
    ((g.submit m).commits = false ∧ (g.submit m).game = g) ∨
      ((g.submit m).commits = true ∧ g.turn.phase = .awaitingMove ∧
        (g.submit m).reply = .ok (g.submit m).game.commitReply ∧ Committed g m (g.submit m).game) := by
  rcases hs with hp | hp
  · rcases submit_awaiting hp m with h | ⟨hr, hc⟩
    · exact .inl h
    · have hcommits : (g.submit m).commits = true := by
        unfold Submission.commits
        rw [hr]
        rfl
      exact .inr ⟨hcommits, hp, hr, hc⟩
  · have hsub := submit_ended hp m
    exact .inl ⟨by rw [hsub]; rfl, congrArg Submission.game hsub⟩

/-- What commits and arrangements keep. -/
structure Invariant (P : Game → Prop) : Prop where
  commit {g g' : Game} {m : Move} : P g → Committed g m g' → P g'
  arrange {g : Game} {t : Table} {ps : List Placement} : P g → g.table.arrange ps = .ok t → P { g with table := t }

/-- A request that is not granted leaves the game as it was; else a move is committed or the table arranged. -/
lemma handle_cases {g : Game} (hs : g.Settled) (r : Request) :
    ((g.handle r).answer.commits = false ∧ (g.handle r).game = g) ∨
      (∃ m es, r = .submit m ∧ Committed g m (g.handle r).game ∧
        (g.handle r).answer = .submitted (.ok (g.handle r).game.commitReply) es) ∨
      ∃ ps t, r = .arrange ps ∧ g.table.arrange ps = .ok t ∧
        g.handle r = ⟨.arranged (.ok ()), { g with table := t }⟩ := by
  cases r with
  | submit m =>
    rw [handle_submit_commits]
    rcases submit_cases hs m with h | ⟨_, _, hr, hc⟩
    · exact .inl h
    · exact .inr (.inl ⟨m, _, rfl, hc, congrArg (Answer.submitted · (g.submit m).events) hr⟩)
  | arrange ps =>
    cases ha : g.arrange ps with
    | error e =>
      rw [handle_arrange_error ha]
      exact .inl ⟨rfl, rfl⟩
    | ok g' =>
      rw [handle_arrange_ok ha]
      obtain ⟨t, ht, rfl⟩ := arrange_ok ha
      exact .inr (.inr ⟨ps, t, rfl, ht, rfl⟩)

/-- After a commit no move is being resolved. -/
lemma Committed.settled {g g' : Game} {m : Move} (h : Committed g m g') : g'.Settled := by
  cases h with
  | intro moves steps next =>
    rcases nextTurn_ok next with ⟨_, rfl⟩ | ⟨_, id, _, rfl⟩
    · exact .inr rfl
    · exact .inl rfl

/-- A request that has been answered leaves no move unresolved. -/
lemma handle_settled {g : Game} (hs : g.Settled) (r : Request) : (g.handle r).game.Settled := by
  rcases handle_cases hs r with ⟨_, hg⟩ | ⟨m, es, _, hc, _⟩ | ⟨ps, t, _, _, hg⟩
  · exact hg.symm ▸ hs
  · exact hc.settled
  · exact hg.symm ▸ hs

/-- What commits and arrangements keep, one request keeps. -/
lemma Invariant.handle {P : Game → Prop} (hP : Invariant P) {g : Game} (hs : g.Settled) (h : P g) (r : Request) :
    P (g.handle r).game := by
  rcases handle_cases hs r with ⟨_, hg⟩ | ⟨m, es, _, hc, _⟩ | ⟨ps, t, _, ht, hg⟩
  · exact hg.symm ▸ h
  · exact hP.commit h hc
  · exact hg.symm ▸ hP.arrange h ht

/-- What every commit and every arrangement keeps, a session keeps. -/
lemma Invariant.after {P : Game → Prop} (hP : Invariant P) {g : Game} (hs : g.Settled) (h : P g) (rs : List Request) :
    P (g.after rs) := by
  induction rs generalizing g with
  | nil => exact h
  | cons r rs ih => exact ih (handle_settled hs r) (hP.handle hs h r)

/-- Between the requests of a session no move is being resolved. -/
lemma after_settled {g : Game} (hs : g.Settled) (rs : List Request) : (g.after rs).Settled := by
  induction rs generalizing g with
  | nil => exact hs
  | cons r rs ih => exact ih (handle_settled hs r)

/-- A new game waits for a move or is over. -/
lemma start_settled {id : String} {p : Program} {o : GameOptions} {g : Game} {es : List Event}
    (h : start id p o = .ok (g, es)) : g.Settled := by
  obtain ⟨laid, t, _, _, rfl⟩ := start_ok h
  cases ht : t.ended with
  | true => exact .inr (if_pos ht)
  | false => exact .inl (if_neg (by simp [ht]))

/-- The first turn is number one. -/
lemma start_number {id : String} {p : Program} {o : GameOptions} {g : Game} {es : List Event}
    (h : start id p o = .ok (g, es)) : g.turn.number = 1 := by
  obtain ⟨_, _, _, _, rfl⟩ := start_ok h
  rfl

end Game

/-- A program for two players with a card each. They drop it on the pile, or give up and let the other win. -/
def duel : String := "name duel deck StandardDeck players 2 current_player 1
  stack pile stack player:hand
  .(a card each) def setup()\x7b deck > players:hand 1 \x7d
  .(two actions) def player_move(player, move)\x7b valid_moves(drop, quit) \x7d
  .(drop a card) def drop(player, move)\x7b player:hand > pile 1 \x7d
  .(let another win) def quit(player, move)\x7b next_player() winner(current_player) end() \x7d"

/-- The game that a source starts, if there is one. -/
def Game.ofSource? (source : List Char) : Option Game := do
  let p ← (Program.ofSource source).toOption
  let (g, _) ← (start p.name p {}).toOption
  some g

/-- A source that starts a game with a property that can be computed has been read, and the game has been started. -/
lemma Game.exists_of_ofSource? {source : List Char} {P : Game → Bool} (h : (ofSource? source).any P = true) :
    ∃ p g es, Program.ofSource source = .ok p ∧ start p.name p {} = .ok (g, es) ∧ P g = true := by
  cases hg : ofSource? source with
  | none =>
    rw [hg] at h
    cases h
  | some g =>
    rw [hg] at h
    obtain ⟨p, hp, hg⟩ := Option.bind_eq_some_iff.mp hg
    obtain ⟨⟨g', es⟩, hs, hg⟩ := Option.bind_eq_some_iff.mp hg
    cases hg
    exact ⟨p, g, es, toOption_eq_some.mp hp, toOption_eq_some.mp hs, h⟩

end Croupier
