import Croupier.Proofs.Game.OpenActions
import Croupier.Proofs.Game.Turns
import Croupier.Proofs.Run.Standing

/-!
# Who is on turn after a move

While a move is received and its action carried out, the program may pass the turn on any number of times, in whatever
functions it calls, and it may end the game. The calls that do so are those of `moveCalls`. A move that ends the game
leaves the turn where it was; any other hands it on by as many seats as the program did, or by one if the program left
it alone (`turn_handed_over`). Whether the game is over is asked on a copy of the table, of which nothing is kept.
-/

namespace Croupier

namespace Game

/-- The calls of built-in functions that are made while a move is received and then its action is carried out. -/
def moveCalls (g : Game) (m : Move) : List BuiltinCall :=
  match g.program.function? playerMoveName with
  | none => []
  | some receive =>
    g.program.executionCalls g.depth receive g.table (g.context m) ++
      match g.program.execute g.depth receive g.table (g.context m), g.program.function? m.action with
      | .ok (.committed t _ _), some action => g.program.executionCalls g.depth action t (g.context m)
      | _, _ => []

/-- Asked after a move that leads to a table, the program says that the game is over. -/
def SaysOver (g : Game) (m : Move) (t : Table) : Prop :=
  ∃ asked t' moves, g.program.function? gameOverName = some asked ∧
    g.program.execute g.depth asked t (g.context m) = .ok (.committed t' (.bool true) moves)

variable {g g' : Game} {m : Move} {t t' : Table} {moves moves' : List String}

/-- The game is over if the program says so when it is asked, and else it is not. -/
lemma isOver_ok {finished : Bool} (h : g.isOver m t = .ok finished) : finished = true ↔ g.SaysOver m t := by
  unfold isOver at h
  unfold SaysOver
  cases hf : g.program.function? gameOverName with
  | none =>
    rw [hf] at h
    cases h
    simp
  | some asked =>
    rw [hf] at h
    obtain ⟨outcome, ho, h⟩ := bind_eq_ok.mp h
    rw [mapError_eq_ok] at ho
    cases outcome with
    | rejected r =>
      cases h
      simp [ho]
    | committed t' v declared =>
      cases v with
      | bool b =>
        cases h
        simp [ho]
      | empty =>
        cases h
        simp [ho]
      | _ => cases h

/-- An action that is carried out is a function of the program that commits. -/
lemma act_executes (h : g.act m t moves = .ok (.accepted t' moves')) :
    ∃ action v declared, g.program.function? m.action = some action ∧
      g.program.execute g.depth action t (g.context m) = .ok (.committed t' v declared) := by
  unfold act at h
  split at h
  · cases h
  · next action haction =>
    obtain ⟨outcome, ho, h⟩ := bind_eq_ok.mp h
    cases outcome with
    | rejected r => cases h
    | committed t₁ v declared =>
      cases h
      exact ⟨action, v, declared, haction, mapError_eq_ok.mp ho⟩

/-- The table that a move leads to stands as the calls for it have left it. -/
lemma resolve_standing (h : g.resolve m = .ok (.accepted t moves)) :
    t.standing = Run.standing.after (g.moveCalls m) g.table.standing := by
  unfold resolve at h
  split at h
  · cases h
  · next receive hreceive =>
    obtain ⟨outcome, ho, h⟩ := bind_eq_ok.mp h
    rw [mapError_eq_ok] at ho
    cases outcome with
    | rejected r => cases h
    | committed received v declared =>
      simp only at h
      split at h
      · obtain ⟨action, v', declared', haction, hact⟩ := act_executes h
        unfold moveCalls
        simp only [hreceive, ho, haction]
        rw [Run.Register.after_append, ← Program.execute_standing ho]
        exact Program.execute_standing hact
      · cases h

/-- A move is committed once it has been resolved and the program has been asked whether the game is over. -/
lemma play_committed {sum : String} (h : g.play m = .ok (.committed sum, g')) :
    ∃ t moves finished turn, g.resolve m = .ok (.accepted t moves) ∧ g.isOver m t = .ok finished ∧
      nextTurn g.turn { t with ended := t.ended || finished } = .ok turn ∧
      g' = g.commit m { t with ended := t.ended || finished } turn moves := by
  obtain ⟨resolution, hr, h⟩ := bind_eq_ok.mp h
  cases resolution with
  | rejected r => cases h
  | accepted t moves =>
    obtain ⟨finished, ho, h⟩ := bind_eq_ok.mp h
    simp only at h
    split at h
    · cases h
    obtain ⟨turn, hn, h⟩ := bind_eq_ok.mp h
    cases h
    exact ⟨t, moves, finished, turn, hr, ho, mapError_eq_ok.mp hn, rfl⟩

/-- A move that ends the game leaves the turn where it was; else it goes to the player whom the program has chosen, or
to the next one. -/
lemma nextTurn_current {turn turn' : Turn} (h : nextTurn turn t = .ok turn') :
    turn'.isEnded = t.ended ∧ turn'.current = if t.ended then turn.current
      else if t.passed then t.currentPlayer else turn.current % turn.players + 1 := by
  rcases nextTurn_step h with ⟨hended, hstep⟩ | ⟨hended, hpassed, hstep⟩ | ⟨hended, hpassed, hstep⟩
  · rw [hended]
    cases hstep with
    | commitLast => exact ⟨rfl, rfl⟩
  · rw [hended, hpassed]
    cases hstep with
    | commitTo => exact ⟨rfl, rfl⟩
  · rw [hended, hpassed]
    cases hstep with
    | commit => exact ⟨rfl, rfl⟩

/-- A committed move has been played by a game that waited for it. -/
lemma play_of_commits (hs : g.Settled) (hc : (g.submit m).commits = true) :
    g.turn.phase = .awaitingMove ∧ ∃ sum, g.resolving.play m = .ok (.committed sum, (g.submit m).game) := by
  rcases hs with hp | hp
  · refine ⟨hp, ?_⟩
    rw [submit_eq hp] at hc ⊢
    cases hplay : g.resolving.play m with
    | error e =>
      rw [hplay] at hc
      cases hc
    | ok out =>
      obtain ⟨v, after⟩ := out
      rw [hplay] at hc
      cases v with
      | rejected r => cases hc
      | committed sum => exact ⟨sum, rfl⟩
  · rw [submit_ended hp] at hc
    cases hc

/-- How a table stands to which a move leads, if the game waited for the move. -/
lemma InStep.resolve {players : Nat} (hin : InStep players g) (hphase : g.turn.phase = .awaitingMove)
    (h : g.resolve m = .ok (.accepted t moves)) :
    t.current = (g.currentPlayer - 1 + handOffs (g.moveCalls m)) % players ∧
      t.passed = decide (0 < handOffs (g.moveCalls m)) ∧ t.ended = endsGame (g.moveCalls m) := by
  have hcurrent : g.table.current = g.currentPlayer - 1 := Nat.eq_sub_of_add_eq hin.current_eq
  have hended : g.table.ended = false := by
    apply eq_false_of_ne_true
    intro hended
    rw [hin.ended_iff.mp hended] at hphase
    cases hphase
  have hstanding := resolve_standing h
  rw [Run.standing_after _ hin.seated.current_lt] at hstanding
  simp only [Table.standing, Standing.mk.injEq, hin.passed_eq, hended, Bool.false_or, hin.table_players,
    hcurrent] at hstanding
  exact hstanding.2

/-- In every session of a program that was read, a move that is committed leads to the table that is left when it has
been received and its action carried out, and so to nothing that the program does when it is asked whether the game is
over. The game is over then if a call ended it or the program says so. If it is, the same player stays on turn; else the
turn has gone on by as many seats as there are calls that pass it on, and at least by one. -/
theorem turn_handed_over {source : List Char} {p : Program} {id : String} {o : GameOptions} {g : Game}
    {es : List Event} (hp : Program.ofSource source = .ok p) (h : start id p o = .ok (g, es)) (rs : List Request)
    (m : Move) (hc : ((g.after rs).submit m).commits = true) :
    let before := g.after rs
    let after := (before.submit m).game
    let calls := before.moveCalls m
    ∃ left moves, before.resolve m = .ok (.accepted left moves) ∧
      after.table = { left with ended := after.isEnded, passed := false, current := after.currentPlayer - 1 } ∧
      (after.isEnded = true ↔ endsGame calls = true ∨ before.SaysOver m left) ∧
      after.currentPlayer =
        if after.isEnded then before.currentPlayer
        else (before.currentPlayer - 1 + max (handOffs calls) 1) % p.players.toNat + 1 := by
  intro before after calls
  have hsettled : before.Settled := after_settled (start_settled h) rs
  have hin : InStep p.players.toNat before := (inStep_invariant _).after (start_settled h) (start_inStep hp h) rs
  obtain ⟨hphase, sum, hplay⟩ := play_of_commits hsettled hc
  obtain ⟨left, moves, finished, turn, hresolve, hover, hturn, hafter⟩ := play_committed hplay
  -- the game that resolves a move differs in the phase alone, which the program does not see
  have hresolve : before.resolve m = .ok (.accepted left moves) := hresolve
  have hover : before.isOver m left = .ok finished := hover
  obtain ⟨hcurrent, hpassed, hends⟩ := hin.resolve hphase hresolve
  obtain ⟨hended, hnext⟩ := nextTurn_current hturn
  have hafter : after = before.resolving.commit m { left with ended := left.ended || finished } turn moves := hafter
  have hisEnded : after.isEnded = (endsGame calls || finished) := by
    rw [hafter, ← hends]
    exact hended
  have hon : after.currentPlayer = turn.current := by
    rw [hafter]
    rfl
  refine ⟨left, moves, hresolve, ?_, ?_, ?_⟩
  · rw [hisEnded, hon, hafter, ← hends]
    rfl
  · rw [hisEnded, Bool.or_eq_true, isOver_ok hover]
  · have hpos : before.currentPlayer - 1 + 1 = before.currentPlayer := by
      rw [show before.currentPlayer = before.table.current + 1 from hin.current_eq.symm, Nat.add_sub_cancel]
    have hplayers : before.resolving.turn.players = p.players.toNat := hin.turn_players
    rw [hisEnded, hon, hnext, hends, hpassed, hplayers]
    refine if_congr Iff.rfl rfl ?_
    show (if decide (0 < handOffs calls) = true then left.current + 1 else before.currentPlayer % _ + 1) = _
    rw [hcurrent]
    split_ifs with hk
    · rw [Nat.max_eq_left (of_decide_eq_true hk)]
    · have hzero : handOffs calls = 0 := by simpa using hk
      rw [hzero, Nat.max_eq_right (Nat.zero_le 1), hpos]

/-- A program for three players that passes the turn on for every card it looks at, and once more in the action. Asked
whether the game is over, it passes the turn on, names a winner and takes the cards back. -/
def carousel : String := "name carousel deck StandardDeck players 3 current_player 3 stack pile
  .(once for a card) def seen(card)\x7b next_player() return(true) \x7d
  .(look at two cards) def player_move(player, move)\x7b
    check(count(filter(move:cards, seen)) is 2) valid_moves(drop) \x7d
  .(once more) def drop(player, move)\x7b next_player() deck > pile 1 \x7d
  .(all in vain) def game_over(player, move)\x7b next_player() winner(player) pile > deck end return(false) \x7d"

/-- Passed on three times among three players, the turn comes back to the player who moved. The card stays on the pile,
and nobody has won. -/
theorem carousel_turn_handed_over :
    let m : Move := ⟨0, "drop", [.ofCodes 2 0, .ofCodes 3 1], []⟩
    ∃ p g es left moves, Program.ofSource carousel.toList = .ok p ∧ start p.name p {} = .ok (g, es) ∧
      (g.submit m).commits = true ∧ g.currentPlayer = 3 ∧ handOffs (g.moveCalls m) = 3 ∧
      g.resolve m = .ok (.accepted left moves) ∧ left.winners = [] ∧ (left.pile (.shared "pile")).length = 1 ∧
      (g.submit m).game.table = { left with ended := false, passed := false, current := 2 } ∧
      (g.submit m).game.currentPlayer = (3 - 1 + max 3 1) % 3 + 1 := by
  intro m
  have hg : (ofSource? carousel.toList).any (fun g => decide (g.program.players.toNat = 3 ∧
      (g.submit m).commits = true ∧ g.currentPlayer = 3 ∧ handOffs (g.moveCalls m) = 3 ∧
      (g.submit m).game.isEnded = false ∧ (g.submit m).game.table.winners = [] ∧
      ((g.submit m).game.table.pile (.shared "pile")).length = 1)) = true := by
    rw [carousel, String.toList_ofList]
    decide +kernel
  obtain ⟨p, g, es, hp, hs, hrun⟩ := exists_of_ofSource? hg
  obtain ⟨hplayers, hc, hthree, hoffs, hended, hwinners, hpile⟩ := of_decide_eq_true hrun
  rw [(start_program hs).1] at hplayers
  obtain ⟨left, moves, hresolve, htable, _, hcurrent⟩ := turn_handed_over hp hs [] m hc
  have hon : (g.submit m).game.currentPlayer = (3 - 1 + max 3 1) % 3 + 1 := by
    rw [show g.after [] = g from rfl, hended, hthree, hoffs, hplayers] at hcurrent
    exact hcurrent
  have hleft : (g.submit m).game.table = { left with ended := false, passed := false, current := 2 } := by
    rw [show g.after [] = g from rfl, hended, hon] at htable
    exact htable
  rw [hleft] at hwinners hpile
  exact ⟨p, g, es, left, moves, hp, hs, hc, hthree, hoffs, hresolve, hwinners, hpile, hleft, hon⟩

end Game

end Croupier
