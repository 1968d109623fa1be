import Croupier.Proofs.Game.Session

/-!
# What the history tells

The history of a game to which only moves are submitted is the end of its log (`history_afterMoves`), as long as its limit
allows: the entry of the setup and then, turn by turn, an entry for every move that was committed. If there is no limit,
the moves of the history can be played again: another game of the same program commits each of them and comes to the
same table.
-/

namespace Croupier

namespace History

/-- To keep the newest entries and then one more is to keep the newest of all. -/
lemma newest_append (limit : Int) (entries : List Commit) (c : Commit) :
    newest limit (newest limit entries ++ [c]) = newest limit (entries ++ [c]) := by
  by_cases hl : 0 < limit
  · simp only [newest, if_pos hl]
    have hdrop : entries.length - limit.toNat ≤ entries.length := Nat.sub_le ..
    rw [← List.drop_append_of_le_length hdrop, List.drop_drop]
    congr 1
    simp only [List.length_append, List.length_drop, List.length_singleton]
    omega
  · simp only [newest, if_neg hl]

/-- To record an entry is to keep the newest of one entry more. -/
lemma record_newest (limit : Int) (entries : List Commit) (c : Commit) :
    (keeping limit (newest limit entries)).record c = keeping limit (newest limit (entries ++ [c])) :=
  congrArg (keeping limit) (newest_append limit entries c)

/-- The last entry is kept, whatever the limit. -/
lemma getLast?_newest (limit : Int) (entries : List Commit) : (newest limit entries).getLast? = entries.getLast? := by
  by_cases hl : 0 < limit
  · simp only [newest, if_pos hl, List.getLast?_drop]
    split
    · next hle =>
      have hnil : entries = [] := List.length_eq_zero_iff.mp (by omega)
      rw [hnil]
      rfl
    · rfl
  · simp only [newest, if_neg hl]

end History

namespace Game

/-- The entries of the moves that a game commits, one for each turn from a given one on. -/
def log (g : Game) (turn : Nat) : List Move → List Commit
  | [] => []
  | m :: ms =>
    if (g.submit m).commits then
      ⟨turn, g.mover m, m, (g.submit m).game.table.checksum⟩ :: (g.submit m).game.log (turn + 1) ms
    else (g.submit m).game.log turn ms

/-- The log of a new game: the entry of the setup and those of the moves that it commits. -/
def fullLog (g : Game) (ms : List Move) : List Commit := ⟨0, 0, default, g.table.checksum⟩ :: g.log 1 ms

/-- A committed move is the next entry of the log. -/
lemma log_committed {g : Game} {m : Move} (hc : (g.submit m).commits = true) (turn : Nat) (ms : List Move) :
    g.log turn (m :: ms) =
      ⟨turn, g.mover m, m, (g.submit m).game.table.checksum⟩ :: (g.submit m).game.log (turn + 1) ms :=
  if_pos hc

/-- A move that is not committed has no entry in the log. -/
lemma log_uncommitted {g : Game} {m : Move} (hc : (g.submit m).commits = false) (hg : (g.submit m).game = g)
    (turn : Nat) (ms : List Move) : g.log turn (m :: ms) = g.log turn ms := by
  rw [log, if_neg (by simp [hc]), hg]

/-- Without gaps the turns of the log go up. -/
lemma map_turn_log (g : Game) (turn : Nat) (ms : List Move) :
    (g.log turn ms).map (·.turn) = (List.range' turn (g.log turn ms).length).map fun n : Nat => (n : Int) := by
  induction ms generalizing g turn with
  | nil => rfl
  | cons m ms ih =>
    unfold log
    split
    · simp only [List.map_cons, List.length_cons, List.range'_succ, ih]
    · exact ih _ _

/-- A commit records one entry, with the checksum of the table that it leads to. -/
lemma Committed.history {g g' : Game} {m : Move} (h : Committed g m g') :
    g'.history = g.history.record ⟨g.turn.number, g.mover m, m, g'.table.checksum⟩ := by
  cases h with
  | intro moves steps next => rfl

/-- While the game goes on, a commit counts a turn. -/
lemma Committed.number {g g' : Game} {m : Move} (h : Committed g m g') (hp : g'.turn.phase = .awaitingMove) :
    g'.turn.number = g.turn.number + 1 := by
  cases h with
  | intro moves steps next =>
    rcases nextTurn_ok next with ⟨_, rfl⟩ | ⟨_, id, _, rfl⟩
    · cases hp
    · rfl

/-- The game after some moves. -/
def afterMoves (g : Game) (ms : List Move) : Game := g.after (ms.map .submit)

/-- Moves are submitted one after another. -/
lemma afterMoves_cons (g : Game) (m : Move) (ms : List Move) :
    g.afterMoves (m :: ms) = (g.submit m).game.afterMoves ms := rfl

/-- The history keeps the newest entries of the log. -/
lemma history_afterMoves {g : Game} (hs : g.Settled) {limit : Int} {entries : List Commit} {turn : Nat}
    (hh : g.history = .keeping limit (History.newest limit entries))
    (hn : g.turn.phase = .awaitingMove → g.turn.number = turn) (ms : List Move) :
    (g.afterMoves ms).history = .keeping limit (History.newest limit (entries ++ g.log turn ms)) := by
  induction ms generalizing g entries turn with
  | nil =>
    rw [log, List.append_nil]
    exact hh
  | cons m ms ih =>
    rw [afterMoves_cons]
    rcases submit_cases hs m with ⟨hc, hg⟩ | ⟨hc, hp, _, hcommit⟩
    · rw [log_uncommitted hc hg, hg]
      exact ih hs hh hn
    · -- the entry that the commit records is the next one of the log
      have hrecord : (g.submit m).game.history = .keeping limit (History.newest limit
          (entries ++ [⟨turn, g.mover m, m, (g.submit m).game.table.checksum⟩])) := by
        rw [hcommit.history, hh, hn hp, History.record_newest]
      have hnext : (g.submit m).game.turn.phase = .awaitingMove → (g.submit m).game.turn.number = turn + 1 :=
        fun hp' => hn hp ▸ hcommit.number hp'
      rw [log_committed hc, ih hcommit.settled hrecord hnext, List.append_assoc, List.singleton_append]

/-- The last entry of the log has the checksum of the table. -/
lemma getLast?_log {g : Game} (hs : g.Settled) {c : Commit} (hc : c.checksum = g.table.checksum) (turn : Nat)
    (ms : List Move) :
    (c :: g.log turn ms).getLast?.map (·.checksum) = some (g.afterMoves ms).table.checksum := by
  induction ms generalizing g c turn with
  | nil => exact congrArg some hc
  | cons m ms ih =>
    rw [afterMoves_cons]
    rcases submit_cases hs m with ⟨hno, hg⟩ | ⟨hyes, _, _, hcommit⟩
    · rw [log_uncommitted hno hg, hg]
      exact ih hs hc turn
    · rw [log_committed hyes, List.getLast?_cons_cons]
      exact ih hcommit.settled rfl (turn + 1)

/-- The moves of the log lead to the same game, and each of them is committed. -/
lemma replay_log {g : Game} (hs : g.Settled) (turn : Nat) (ms : List Move) :
    g.afterMoves ((g.log turn ms).map (·.move)) = g.afterMoves ms ∧
      ∀ e ∈ g.session (((g.log turn ms).map (·.move)).map .submit), e.answer.commits = true := by
  induction ms generalizing g turn with
  | nil => exact ⟨rfl, by simp [log, session]⟩
  | cons m ms ih =>
    rcases submit_cases hs m with ⟨hno, hg⟩ | ⟨hyes, _, _, hcommit⟩
    · rw [log_uncommitted hno hg, afterMoves_cons g m ms, hg]
      exact ih hs turn
    · obtain ⟨hgame, hrest⟩ := ih hcommit.settled (turn + 1)
      rw [log_committed hyes]
      refine ⟨hgame, ?_⟩
      intro e he
      rcases List.mem_cons.mp he with rfl | he
      · exact (handle_submit_commits g m).trans hyes
      · exact hrest e he

/-- The same game by another name. -/
def withId (g : Game) (id : String) : Game := { g with id := id }

/-- A game by another name plays a move in the same way. -/
lemma play_withId (g : Game) (id : String) (m : Move) :
    (g.withId id).play m = (g.play m).map fun out => (out.1, out.2.withId id) := by
  have hresolve : (g.withId id).resolve m = g.resolve m := rfl
  have hover : (g.withId id).isOver m = g.isOver m := rfl
  have hresume : (g.withId id).resume = g.resume.withId id := by
    unfold resume
    have hturn : (g.withId id).turn = g.turn := rfl
    rw [hturn]
    cases g.turn.reject with
    | error e => rfl
    | ok turn => rfl
  unfold play
  rw [hresolve]
  cases g.resolve m with
  | error e => rfl
  | ok resolution =>
    cases resolution with
    | rejected r => simp only [bind, Except.bind, hresume, Except.map]
    | accepted t moves =>
      simp only [bind, Except.bind, hover]
      cases g.isOver m t with
      | error e => rfl
      | ok finished =>
        simp only
        split
        · rfl
        · have hturn : (g.withId id).turn = g.turn := rfl
          rw [hturn]
          cases (nextTurn g.turn { t with ended := t.ended || finished }).mapError MoveError.phase with
          | error e => rfl
          | ok turn => rfl

/-- A game by another name decides on moves in the same way. -/
lemma submit_withId {g : Game} (hs : g.Settled) (id : String) (m : Move) :
    ((g.withId id).submit m).commits = (g.submit m).commits ∧
      ((g.withId id).submit m).game = (g.submit m).game.withId id := by
  rcases hs with hp | hp
  · have hp' : (g.withId id).turn.phase = .awaitingMove := hp
    have hplay : (g.withId id).resolving.play m = _ := play_withId g.resolving id m
    rw [submit_eq hp, submit_eq hp', hplay]
    cases g.resolving.play m with
    | error e => exact ⟨rfl, rfl⟩
    | ok out => exact ⟨rfl, rfl⟩
  · have hp' : (g.withId id).turn.phase = .ended := hp
    rw [submit_ended hp, submit_ended hp']
    exact ⟨rfl, rfl⟩

/-- A game by another name goes through a session in the same way. -/
lemma session_withId {g : Game} (hs : g.Settled) (id : String) (ms : List Move) :
    (g.withId id).afterMoves ms = (g.afterMoves ms).withId id ∧
      ((g.withId id).session (ms.map .submit)).map (·.answer.commits) =
        (g.session (ms.map .submit)).map (·.answer.commits) := by
  induction ms generalizing g with
  | nil => exact ⟨rfl, rfl⟩
  | cons m ms ih =>
    obtain ⟨hcommits, hgame⟩ := submit_withId hs id m
    obtain ⟨hafter, hsession⟩ := ih (g := (g.submit m).game) (handle_settled hs (.submit m))
    rw [afterMoves_cons, afterMoves_cons, hgame]
    refine ⟨hafter, ?_⟩
    show ((g.withId id).handle (.submit m)).answer.commits :: _ = (g.handle (.submit m)).answer.commits :: _
    rw [handle_submit_commits, handle_submit_commits, hcommits]
    refine congrArg (_ :: ·) ?_
    show (((g.withId id).submit m).game.session (ms.map .submit)).map _ = _
    rw [hgame]
    exact hsession

/-- A game starts by any name if it starts by one. -/
lemma start_withId {id : String} {p : Program} {o : GameOptions} {g : Game} {es : List Event}
    (h : start id p o = .ok (g, es)) (id' : String) : ∃ es', start id' p o = .ok (g.withId id', es') := by
  obtain ⟨laid, hl, h⟩ := bind_eq_ok.mp h
  obtain ⟨t, ht, h⟩ := bind_eq_ok.mp h
  simp only at h
  split at h
  · cases h
  next htotal =>
    obtain ⟨turn, hf, h⟩ := bind_eq_ok.mp h
    cases h
    refine ⟨[⟨.gameStarted, id', 0, 0, "", "", "", []⟩], bind_eq_ok.mpr ⟨laid, hl, bind_eq_ok.mpr ⟨t, ht, ?_⟩⟩⟩
    simp only
    rw [if_neg htotal]
    exact bind_eq_ok.mpr ⟨turn, hf, rfl⟩

/-- A new history holds the entry of the setup. -/
lemma start_history {id : String} {p : Program} {o : GameOptions} {g : Game} {es : List Event}
    (h : start id p o = .ok (g, es)) (hr : o.recordHistory = true) :
    g.history = .keeping o.historyLimit (History.newest o.historyLimit [⟨0, 0, default, g.table.checksum⟩]) := by
  obtain ⟨_, t, _, _, rfl⟩ := start_ok h
  unfold opening
  rw [if_pos hr]
  rfl

/-- The moves of the log lead a game by another name to the same end, and it commits each of them. -/
lemma replay_withId {g : Game} (hs : g.Settled) (id : String) (turn : Nat) (ms : List Move) :
    (g.withId id).afterMoves ((g.log turn ms).map (·.move)) = (g.afterMoves ms).withId id ∧
      ∀ e ∈ (g.withId id).session (((g.log turn ms).map (·.move)).map .submit), e.answer.commits = true := by
  obtain ⟨hgame, hcommits⟩ := replay_log hs turn ms
  obtain ⟨hafter, hsession⟩ := session_withId hs id ((g.log turn ms).map (·.move))
  refine ⟨hafter.trans (congrArg (·.withId id) hgame), ?_⟩
  intro e he
  have hmem := List.mem_map_of_mem (f := fun e => e.answer.commits) he
  rw [hsession] at hmem
  obtain ⟨e', he', heq⟩ := List.mem_map.mp hmem
  exact heq ▸ hcommits e' he'

/-- The history of a new game to which moves are submitted is the end of its log, as long as the limit allows. The turns
of the log go up from zero without gaps, and the last checksum is that of the table. If there is no limit, any other
game of the program commits the moves of the history, and comes to the same history, table and open actions. -/
theorem history_is_log {id : String} {p : Program} {o : GameOptions} {g : Game} {es : List Event}
    (h : start id p o = .ok (g, es)) (hr : o.recordHistory = true) (ms : List Move) :
    let g' := g.after (ms.map .submit)
    let log := g.fullLog ms
    g'.history.entries =
        (if 0 < o.historyLimit then log.drop (log.length - o.historyLimit.toNat) else log) ∧
      log.map (·.turn) = (List.range log.length).map (fun n : Nat => (n : Int)) ∧
      g'.history.last?.map (·.checksum) = some g'.table.checksum ∧
      (o.historyLimit ≤ 0 → ∀ id', ∃ g₂ es₂, start id' p o = .ok (g₂, es₂) ∧
        let replay := (g'.history.entries.drop 1).map fun c => Request.submit c.move
        (∀ e ∈ g₂.session replay, e.answer.commits = true) ∧
          (g₂.after replay).history.entries = g'.history.entries ∧
          (g₂.after replay).table = g'.table ∧
          (g₂.after replay).moves = g'.moves) := by
  intro g' log
  have hs := start_settled h
  have hlog : g'.history = .keeping o.historyLimit (History.newest o.historyLimit log) :=
    history_afterMoves hs (start_history h hr) (fun _ => start_number h) ms
  refine ⟨congrArg History.entries hlog, ?_, ?_, ?_⟩
  · show (0 : Int) :: (g.log 1 ms).map (·.turn) = _
    rw [map_turn_log, show log.length = (g.log 1 ms).length + 1 from rfl, List.range_eq_range', List.range'_succ]
    rfl
  · unfold History.last?
    rw [hlog]
    exact (congrArg _ (History.getLast?_newest ..)).trans (getLast?_log hs rfl 1 ms)
  · intro hl id'
    obtain ⟨es', hstart⟩ := start_withId h id'
    obtain ⟨hafter, hcommits⟩ := replay_withId hs id' 1 ms
    have hreplay : (g'.history.entries.drop 1).map (fun c => Request.submit c.move) =
        ((g.log 1 ms).map (·.move)).map .submit := by
      rw [hlog, List.map_map]
      show ((History.newest o.historyLimit log).drop 1).map _ = _
      rw [History.newest, if_neg (by omega)]
      rfl
    have hend : (g.withId id').after (((g.log 1 ms).map (·.move)).map .submit) = g'.withId id' := hafter
    refine ⟨g.withId id', es', hstart, ?_⟩
    simp only [hreplay, hend]
    exact ⟨hcommits, rfl, rfl, rfl⟩

/-- Of three moves the two that are committed are recorded after the setup. -/
theorem duel_history_is_log :
    ∃ p g es, start p.name p {} = .ok (g, es) ∧
      ∃ ms, ms = [⟨0, "drop", [], []⟩, ⟨0, "steal", [], []⟩, ⟨0, "quit", [], []⟩] ∧
        (g.fullLog ms).length = 3 ∧ (g.after (ms.map .submit)).history.entries = g.fullLog ms := by
  have hg : (ofSource? duel.toList).any (fun g =>
      (g.fullLog [⟨0, "drop", [], []⟩, ⟨0, "steal", [], []⟩, ⟨0, "quit", [], []⟩]).length = 3) = true := by
    rw [duel, String.toList_ofList]
    decide +kernel
  obtain ⟨p, g, es, _, hs, hlen⟩ := exists_of_ofSource? hg
  exact ⟨p, g, es, hs, _, rfl, of_decide_eq_true hlen, (history_is_log hs rfl _).1⟩

end Game

end Croupier
