import Croupier.Proofs.Game.Session

/-!
# What a game tells of a session

The events of a session are determined by what is requested: the game tells that it has started, then of every move that
is submitted before it is over how it was decided, in the turn in which it was submitted (`decisions`), and at last that
it has ended, if a move has ended it (`events_of_session`). Of an end that the setup brings about there is no event
(`brief_ends_silently`).
-/

namespace Croupier

/-- The events that come with an answer. -/
def Answer.events : Answer → List Event
  | submitted _ events => events
  | arranged _ => []

/-- The kind of event that tells how a move was decided. -/
def decisionKind : Except MoveError Reply → EventKind
  | .ok reply => if reply.commits then .moveCommitted else .moveRejected
  | .error _ => .moveFailed

/-- The kind of an event, and the turn that it tells of. -/
def Event.stamp (e : Event) : EventKind × Nat := (e.kind, e.turn)

namespace Game

/-- The event of a request: how a move was decided and in which turn, if it was submitted to a game that is not over. -/
def decision? (g : Game) : Request → Option (EventKind × Nat)
  | .submit m => if g.isEnded then none else some (decisionKind (g.submit m).reply, g.turn.number)
  | .arrange _ => none

/-- The decisions on the moves that are submitted before the game is over, in their order. -/
def decisions (g : Game) : List Request → List (EventKind × Nat)
  | [] => []
  | r :: rs => (g.decision? r).toList ++ (g.handle r).game.decisions rs

/-- The events of a session. -/
def events (g : Game) (rs : List Request) : List Event := (g.session rs).flatMap (·.answer.events)

/-- A game is over if and only if its turn manager has ended. -/
lemma isEnded_iff {g : Game} : g.isEnded = true ↔ g.turn.phase = .ended := by
  unfold isEnded Turn.isEnded
  exact beq_iff_eq

/-- A game that waits for a move is not over. -/
lemma isEnded_of_awaiting {g : Game} (hp : g.turn.phase = .awaitingMove) : g.isEnded = false := by
  unfold isEnded Turn.isEnded
  rw [hp]
  rfl

/-- Whatever is requested of a game that is over, it stays as it is and tells nothing. -/
lemma handle_ended {g : Game} (hp : g.turn.phase = .ended) (r : Request) :
    (g.handle r).game = g ∧ (g.handle r).answer.events = [] ∧ g.decision? r = none := by
  cases r with
  | submit m =>
    have hsub := submit_ended hp m
    exact ⟨congrArg Submission.game hsub, congrArg Submission.events hsub, if_pos (isEnded_iff.mpr hp)⟩
  | arrange ps =>
    rw [handle_arrange_error (arrange_ended hp ps)]
    exact ⟨rfl, rfl, rfl⟩

/-- A game that is over stays as it is, whatever is requested. -/
lemma after_ended {g : Game} (hp : g.turn.phase = .ended) (rs : List Request) : g.after rs = g := by
  induction rs with
  | nil => rfl
  | cons r rs ih => rw [after, (handle_ended hp r).1, ih]

/-- A game that is over tells nothing more. -/
lemma events_ended {g : Game} (hp : g.turn.phase = .ended) (rs : List Request) :
    g.events rs = [] ∧ g.decisions rs = [] := by
  induction rs with
  | nil => exact ⟨rfl, rfl⟩
  | cons r rs ih =>
    obtain ⟨hg, he, hd⟩ := handle_ended hp r
    constructor
    · rw [events, session, List.flatMap_cons, he, hg]
      exact ih.1
    · rw [decisions, hd, hg, ih.2]
      rfl

/-- A committed move after which the game is over leaves the number of the turn as it was. -/
lemma Committed.number_of_ended {g g' : Game} {m : Move} (h : Committed g m g') (he : g'.isEnded = true) :
    g'.turn.number = g.turn.number := by
  cases h with
  | intro moves steps next =>
    rcases nextTurn_ok next with ⟨_, rfl⟩ | ⟨_, id, _, rfl⟩
    · rfl
    · cases he

/-- A move that is submitted has one event, which tells how it was decided; if the game is over then, another tells so.
Both tell of the turn in which the move was submitted. -/
lemma stamps_submit {g : Game} (hp : g.turn.phase = .awaitingMove) (m : Move) :
    (g.submit m).events.map Event.stamp = (decisionKind (g.submit m).reply, g.turn.number) ::
      if (g.submit m).game.isEnded then [(.gameEnded, g.turn.number)] else [] := by
  have hg := isEnded_of_awaiting hp
  rw [submit_eq hp]
  cases hplay : g.resolving.play m with
  | error e =>
    simp only [hg]
    rfl
  | ok out =>
    obtain ⟨v, g'⟩ := out
    rcases play_ok hp hplay with ⟨r, rfl, rfl⟩ | ⟨rfl, _⟩
    · simp only [hg]
      rfl
    · cases he : g'.isEnded with
      | true =>
        simp only [verdictEvents, he]
        rfl
      | false =>
        simp only [verdictEvents, he]
        rfl

/-- A game that waits for a move tells of the decisions to come, and at last of its end. -/
lemma stamps_events {g : Game} (hp : g.turn.phase = .awaitingMove) (rs : List Request) :
    (g.events rs).map Event.stamp =
      g.decisions rs ++ if (g.after rs).isEnded then [(.gameEnded, (g.after rs).turn.number)] else [] := by
  induction rs generalizing g with
  | nil =>
    rw [after, isEnded_of_awaiting hp]
    rfl
  | cons r rs ih =>
    have hcons : g.events (r :: rs) = (g.handle r).answer.events ++ (g.handle r).game.events rs := List.flatMap_cons
    rw [hcons, List.map_append, decisions, after, List.append_assoc]
    cases r with
    | arrange ps =>
      -- an arrangement has no event and leaves the turn as it is
      cases ha : g.arrange ps with
      | error e =>
        rw [handle_arrange_error ha]
        exact ih hp
      | ok g' =>
        rw [handle_arrange_ok ha]
        obtain ⟨t, _, rfl⟩ := arrange_ok ha
        exact ih (g := { g with table := t }) hp
    | submit m =>
      have hd : g.decision? (.submit m) = some (decisionKind (g.submit m).reply, g.turn.number) :=
        if_neg (by simp [isEnded_of_awaiting hp])
      have hstamps := stamps_submit hp m
      rw [hd]
      show (g.submit m).events.map Event.stamp ++ ((g.submit m).game.events rs).map Event.stamp =
        (decisionKind (g.submit m).reply, g.turn.number) :: ((g.submit m).game.decisions rs ++
          if ((g.submit m).game.after rs).isEnded then [(.gameEnded, ((g.submit m).game.after rs).turn.number)] else [])
      rw [hstamps]
      rcases submit_awaiting hp m with ⟨_, hg⟩ | ⟨_, hc⟩
      · rw [hg, isEnded_of_awaiting hp]
        exact congrArg _ (ih hp)
      · rcases hc.settled with hp' | hp'
        · rw [isEnded_of_awaiting hp']
          exact congrArg _ (ih hp')
        · -- the move has ended the game, and nothing is told after it
          have he := isEnded_iff.mpr hp'
          obtain ⟨hevents, hdecisions⟩ := events_ended hp' rs
          rw [hevents, hdecisions, after_ended hp', hc.number_of_ended he, he]
          rfl

/-- A game that starts tells so. -/
lemma start_events {id : String} {p : Program} {o : GameOptions} {g : Game} {es : List Event}
    (h : start id p o = .ok (g, es)) : es.map Event.stamp = [(.gameStarted, 0)] := by
  obtain ⟨laid, _, h⟩ := bind_eq_ok.mp h
  obtain ⟨t, _, h⟩ := bind_eq_ok.mp h
  simp only at h
  split at h
  · cases h
  obtain ⟨turn, _, h⟩ := bind_eq_ok.mp h
  cases h
  rfl

/-- No decision on a move says that the game has ended. -/
lemma decisionKind_ne_gameEnded (reply : Except MoveError Reply) : decisionKind reply ≠ .gameEnded := by
  unfold decisionKind
  split
  · split <;> exact EventKind.noConfusion
  · exact EventKind.noConfusion

/-- That the game has ended is told by no decision of a session. -/
lemma kind_of_mem_decisions {g : Game} {rs : List Request} {d : EventKind × Nat} (hd : d ∈ g.decisions rs) :
    d.1 ≠ .gameEnded := by
  induction rs generalizing g with
  | nil => cases hd
  | cons r rs ih =>
    rcases List.mem_append.mp hd with hd | hd
    · cases r with
      | arrange ps => cases hd
      | submit m =>
        simp only [decision?] at hd
        split at hd
        · cases hd
        · rw [Option.toList_some, List.mem_singleton] at hd
          rw [hd]
          exact decisionKind_ne_gameEnded _
    · exact ih hd

/-- In every session a game tells that it has started, then how every move was decided that was submitted before it was
over, in the turn of the submission, and at last that it has ended, if a move has ended it. If the setup has already
ended it, it does not tell so. -/
theorem events_of_session {id : String} {p : Program} {o : GameOptions} {g : Game} {es : List Event}
    (h : start id p o = .ok (g, es)) (rs : List Request) :
    (es ++ g.events rs).map Event.stamp =
      (.gameStarted, 0) :: g.decisions rs ++
        (if (g.after rs).isEnded && !g.isEnded then [(.gameEnded, (g.after rs).turn.number)] else []) ∧
    ((∃ e ∈ es ++ g.events rs, e.kind = .gameEnded) ↔ (g.after rs).isEnded = true ∧ g.isEnded = false) := by
  have hstamps : (es ++ g.events rs).map Event.stamp =
      (.gameStarted, 0) :: g.decisions rs ++
        (if (g.after rs).isEnded && !g.isEnded then [(.gameEnded, (g.after rs).turn.number)] else []) := by
    rw [List.map_append, start_events h]
    rcases start_settled h with hp | hp
    · rw [stamps_events hp, isEnded_of_awaiting hp, Bool.not_false, Bool.and_true]
      rfl
    · obtain ⟨hevents, hdecisions⟩ := events_ended hp rs
      rw [hevents, hdecisions, isEnded_iff.mpr hp, Bool.not_true, Bool.and_false]
      rfl
  refine ⟨hstamps, ?_⟩
  have hkinds : (∃ e ∈ es ++ g.events rs, e.kind = .gameEnded) ↔
      ∃ d ∈ (es ++ g.events rs).map Event.stamp, d.1 = .gameEnded := by
    simp only [List.mem_map, exists_exists_and_eq_and, Event.stamp]
  rw [hkinds, hstamps]
  constructor
  · rintro ⟨d, hd, hkind⟩
    rcases List.mem_append.mp hd with hd | hd
    · rcases List.mem_cons.mp hd with rfl | hd
      · cases hkind
      · exact absurd hkind (kind_of_mem_decisions hd)
    · split at hd
      · next hended => simpa using hended
      · cases hd
  · rintro ⟨hended, hstart⟩
    rw [hended, hstart]
    exact ⟨_, List.mem_append_right _ (List.mem_singleton_self _), rfl⟩

/-- A card dropped, a move that is not open, and a player who gives up: after the end nothing more is told. -/
theorem duel_events :
    ∃ p g es, Program.ofSource duel.toList = .ok p ∧ start p.name p {} = .ok (g, es) ∧
      (es ++ g.events [.submit ⟨0, "drop", [], []⟩, .submit ⟨0, "steal", [], []⟩, .submit ⟨0, "quit", [], []⟩,
        .submit ⟨0, "drop", [], []⟩]).map Event.stamp =
      [(.gameStarted, 0), (.moveCommitted, 1), (.moveRejected, 2), (.moveCommitted, 2), (.gameEnded, 2)] := by
  let rs : List Request := [.submit ⟨0, "drop", [], []⟩, .submit ⟨0, "steal", [], []⟩, .submit ⟨0, "quit", [], []⟩,
    .submit ⟨0, "drop", [], []⟩]
  have hg : (ofSource? duel.toList).any (fun g =>
      decide (g.decisions rs = [(.moveCommitted, 1), (.moveRejected, 2), (.moveCommitted, 2)] ∧
        (g.after rs).isEnded = true ∧ g.isEnded = false ∧ (g.after rs).turn.number = 2)) = true := by
    rw [duel, String.toList_ofList]
    decide +kernel
  obtain ⟨p, g, es, hp, hs, hrs⟩ := exists_of_ofSource? hg
  obtain ⟨hdecisions, hended, hstart, hnumber⟩ := of_decide_eq_true hrs
  obtain ⟨hstamps, _⟩ := events_of_session hs rs
  rw [hdecisions, hended, hstart, hnumber] at hstamps
  exact ⟨p, g, es, hp, hs, hstamps⟩

/-- A program whose game is over before the first move. -/
def brief : String := "name brief deck StandardDeck players 1 .(no move) def setup()\x7b end() \x7d"

/-- A game that the setup has ended is over, and no event tells so. -/
theorem brief_ends_silently :
    ∃ p g es, Program.ofSource brief.toList = .ok p ∧ start p.name p {} = .ok (g, es) ∧ g.isEnded = true ∧
      ∀ rs, ∀ e ∈ es ++ g.events rs, e.kind ≠ .gameEnded := by
  have hg : (ofSource? brief.toList).any (·.isEnded) = true := by
    rw [brief, String.toList_ofList]
    decide +kernel
  obtain ⟨p, g, es, hp, hs, hended⟩ := exists_of_ofSource? hg
  refine ⟨p, g, es, hp, hs, hended, ?_⟩
  intro rs e he
  rw [(events_ended (isEnded_iff.mp hended) rs).1, List.append_nil] at he
  have hmem := List.mem_map_of_mem (f := Event.stamp) he
  rw [start_events hs, List.mem_singleton] at hmem
  have hkind : e.kind = .gameStarted := congrArg Prod.fst hmem
  rw [hkind]
  exact nofun

end Game

end Croupier
