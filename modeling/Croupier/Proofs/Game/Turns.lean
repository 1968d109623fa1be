import Croupier.Proofs.Game.Conservation

/-!
# Whose turn it is

Between requests the table and the turn manager of a game agree (`InStep`): they name the same player, who has a seat,
and the table says that the game is over if and only if its phase does. The turns count the moves that were committed
and did not end the game. A game that is over stays as it is.
-/

namespace Croupier

/-- Tells whether a move was committed after which the game goes on. -/
def Answer.goesOn : Answer → Bool
  | submitted (.ok r) _ => r.commits && !r.ended
  | _ => false

/-- A game does not go on after a move that is not committed. -/
lemma Answer.goesOn_eq_false {a : Answer} (h : a.commits = false) : a.goesOn = false := by
  match a, h with
  | .submitted (.ok r) _, h => exact Bool.and_eq_false_imp.mpr fun hc => absurd hc (by simpa [commits] using h)
  | .submitted (.error e) _, _ => rfl
  | .arranged _, _ => rfl

namespace Game

/-- The table and the turn manager of a game agree. -/
structure InStep (players : Nat) (g : Game) : Prop where
  turn_players : g.turn.players = players
  table_players : g.table.players = players
  places_nodup : g.table.places.Nodup
  seated : g.table.Seated
  current_eq : g.table.current + 1 = g.turn.current
  passed_eq : g.table.passed = false
  ended_iff : g.table.ended = true ↔ g.turn.phase = .ended

variable {players : Nat}

/-- The next turn belongs to a player who has a seat. -/
lemma InStep.nextTurn_current {g : Game} (h : InStep players g) {t : Table} {turn : Turn}
    (hn : nextTurn g.resolving.turn t = .ok turn) :
    turn.players = players ∧ 1 ≤ turn.current ∧ turn.current ≤ players ∧ (t.ended = true ↔ turn.phase = .ended) := by
  have hlt := h.seated.current_lt
  have hcur := h.current_eq
  have hplayers : g.resolving.turn.players = players := h.turn_players
  rw [h.table_players] at hlt
  rcases nextTurn_ok hn with ⟨he, rfl⟩ | ⟨he, id, hid, rfl⟩
  · -- the player who ended the game stays on turn
    have hturn : g.resolving.turn.current = g.turn.current := rfl
    refine ⟨hplayers, ?_, ?_, ?_⟩
    · show 1 ≤ g.resolving.turn.current
      omega
    · show g.resolving.turn.current ≤ players
      omega
    · simp [he]
  · obtain ⟨hpos, hle⟩ := hid (by omega)
    exact ⟨hplayers, hpos, hplayers ▸ hle, by simp [he]⟩

/-- Commits and arrangements keep the table and the turn manager in step. -/
lemma inStep_invariant (players : Nat) : Invariant (InStep players) where
  commit h hc := by
    cases hc with
    | @intro t turn moves steps next =>
      obtain ⟨hplayers, hpos, hle, hended⟩ := h.nextTurn_current next
      obtain ⟨places, seats, _⟩ := steps.sameLayout
      have hseated := steps.seated h.seated
      have htable : t.players = players := seats.trans h.table_players
      exact {
        turn_players := hplayers
        table_players := htable
        places_nodup := places ▸ h.places_nodup
        seated := ⟨show turn.current - 1 < t.players by omega, hseated.winners_nodup, hseated.winners_le⟩
        current_eq := Nat.sub_add_cancel hpos
        passed_eq := rfl
        ended_iff := hended }
  arrange h ht := by
    obtain ⟨hr, _⟩ := Table.arrange_ok h.places_nodup ht
    exact {
      turn_players := h.turn_players
      table_players := hr.players.trans h.table_players
      places_nodup := hr.places ▸ h.places_nodup
      seated := h.seated.congr hr.players hr.current hr.winners
      current_eq := hr.current ▸ h.current_eq
      passed_eq := hr.passed.trans h.passed_eq
      ended_iff := hr.ended ▸ h.ended_iff }

/-- A new game is in step: its first player has a seat, on the table and in the turn manager. -/
lemma start_inStep {source : List Char} {p : Program} {id : String} {o : GameOptions} {g : Game} {es : List Event}
    (hp : Program.ofSource source = .ok p) (h : start id p o = .ok (g, es)) : InStep p.players.toNat g := by
  obtain ⟨_, _, _, _, _, hholds⟩ := start_holds hp h
  obtain ⟨laid, t, hl, hs, rfl⟩ := start_ok h
  obtain ⟨_, deck, _, _, hlay, _⟩ := Program.newTable_ok hl
  have hseated := hs.seated (Table.seated_of_lay hlay)
  have hplayers : laid.players = p.players.toNat := by
    obtain ⟨_, _, rfl⟩ := Table.lay_ok hlay
    exact List.length_replicate
  exact {
    turn_players := rfl
    table_players := hs.sameLayout.players.trans hplayers
    places_nodup := hholds.places_nodup
    seated := hseated.congr rfl rfl rfl
    current_eq := rfl
    passed_eq := rfl
    ended_iff := by simp [opening] }

/-- A request counts a turn if and only if a move is committed after which the game goes on. -/
lemma handle_number {g : Game} (hs : g.Settled) (r : Request) :
    (g.handle r).game.turn.number = g.turn.number + if (g.handle r).answer.goesOn then 1 else 0 := by
  rcases handle_cases hs r with ⟨hc, hg⟩ | ⟨m, es, rfl, hc, ha⟩ | ⟨ps, t, rfl, _, hg⟩
  · rw [hg, Answer.goesOn_eq_false hc]
    rfl
  · rw [ha]
    generalize (g.handle (.submit m)).game = g' at hc
    cases hc with
    | intro moves steps next =>
      rcases nextTurn_ok next with ⟨_, rfl⟩ | ⟨_, id, _, rfl⟩
      · rfl
      · rfl
  · rw [hg]
    rfl

/-- The turns count the moves that were committed and did not end the game. -/
lemma number_after {g : Game} (hs : g.Settled) (rs : List Request) :
    (g.after rs).turn.number = g.turn.number + (g.session rs).countP (·.answer.goesOn) := by
  induction rs generalizing g with
  | nil => rfl
  | cons r rs ih =>
    rw [after, ih (handle_settled hs r), handle_number hs r, session, List.countP_cons]
    omega

/-- In every session of a program that was read, the game waits for a move or is over; the table and the turn manager
name the same player, who has a seat, and agree whether the game is over; no winner is named twice, and every winner has
a seat; the turns count the moves after which the game went on; and a game that is over refuses whatever is requested. -/
theorem turns_in_step {source : List Char} {p : Program} {id : String} {o : GameOptions} {g : Game} {es : List Event}
    (hp : Program.ofSource source = .ok p) (h : start id p o = .ok (g, es)) (rs : List Request) :
    let g' := g.after rs
    (g'.turn.phase = .awaitingMove ∨ g'.turn.phase = .ended) ∧
      (g'.table.current + 1 = g'.turn.current ∧ 1 ≤ g'.turn.current ∧ (g'.turn.current : Int) ≤ p.players) ∧
      g'.table.passed = false ∧
      (g'.table.ended = true ↔ g'.turn.phase = .ended) ∧
      (g'.table.winners.Nodup ∧ ∀ id ∈ g'.table.winners, 1 ≤ id ∧ (id : Int) ≤ p.players) ∧
      g'.turn.number = 1 + (g.session rs).countP (·.answer.goesOn) ∧
      (g'.turn.phase = .ended →
        (∀ m, g'.handle (.submit m) = ⟨.submitted (.error .ended) [], g'⟩) ∧
        ∀ ps, g'.handle (.arrange ps) = ⟨.arranged (.error .ended), g'⟩) := by
  intro g'
  have hs := start_settled h
  have hin := (inStep_invariant _).after hs (start_inStep hp h) rs
  have hlt := hin.seated.current_lt
  rw [hin.table_players] at hlt
  refine ⟨after_settled hs rs, ⟨hin.current_eq, ?_, ?_⟩, hin.passed_eq, hin.ended_iff,
    ⟨hin.seated.winners_nodup, ?_⟩, start_number h ▸ number_after hs rs, ?_⟩
  · rw [← hin.current_eq]
    exact Nat.le_add_left ..
  · rw [← hin.current_eq]
    omega
  · intro id hid
    obtain ⟨hpos, hle⟩ := hin.seated.winners_le id hid
    rw [hin.table_players] at hle
    exact ⟨hpos, by omega⟩
  · intro hended
    refine ⟨fun m => ?_, fun ps => handle_arrange_error (arrange_ended hended ps)⟩
    simp only [handle, submit_ended hended]

/-- A player gives up after two moves, and the game refuses every other. -/
theorem duel_turns_in_step :
    ∃ p g es, Program.ofSource duel.toList = .ok p ∧ start p.name p {} = .ok (g, es) ∧
      ∃ g', g' = g.after [.submit ⟨0, "drop", [], []⟩, .submit ⟨0, "steal", [], []⟩, .submit ⟨0, "quit", [], []⟩] ∧
        g'.turn.phase = .ended ∧ g'.table.ended = true ∧ g'.table.winners.Nodup ∧
        ∀ m, g'.handle (.submit m) = ⟨.submitted (.error .ended) [], g'⟩ := by
  have hg : (ofSource? duel.toList).any (fun g => (g.after [.submit ⟨0, "drop", [], []⟩,
      .submit ⟨0, "steal", [], []⟩, .submit ⟨0, "quit", [], []⟩]).turn.phase = .ended) = true := by
    rw [duel, String.toList_ofList]
    decide +kernel
  obtain ⟨p, g, es, hp, hs, hended⟩ := exists_of_ofSource? hg
  have hended := of_decide_eq_true hended
  obtain ⟨_, _, _, hiff, ⟨hw, _⟩, _, hstays⟩ := turns_in_step hp hs _
  exact ⟨p, g, es, hp, hs, _, rfl, hended, hiff.mpr hended, hw, (hstays hended).1⟩

end Game

end Croupier
