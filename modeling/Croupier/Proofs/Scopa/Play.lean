import Croupier.Proofs.Game.Conservation
import Croupier.Proofs.Game.Seed
import Croupier.Proofs.Run.Depth
import Croupier.Proofs.Scopa.Rules

/-!
# Playing the bundled scopa

A game of the bundled scopa in which some moves have been committed is in play (`InPlay`): the players take turns, every
committed move has cost its player a card, and the ranks in each collection have an even sum. A move that is submitted
to such a game is rejected, or committed by the rules, and the game stays in play (`InPlay.submit_cases`). Since no card
comes back to a hand, six moves can be committed; after that there is no card to play, but nothing ends the game.
-/

namespace Croupier

namespace Game

/-- A setup that succeeds does so with a higher limit on nested calls. -/
lemma setup_of_lower {p : Program} {d d' : Nat} (hd : d ≤ d') {t t' : Table} (h : setup p d t = .ok t') :
    setup p d' t = .ok t' := by
  unfold setup at h ⊢
  split at h
  · exact h
  · obtain ⟨outcome, ho, h⟩ := bind_eq_ok.mp h
    exact bind_eq_ok.mpr ⟨outcome, mapError_eq_ok.mpr (p.execute_of_lower hd (mapError_eq_ok.mp ho)), h⟩

/-- A game starts on the table that the setup leaves, if no card is lost and the first player has a seat. -/
lemma start_of_setup (id : String) {p : Program} {o : GameOptions} {laid t : Table} {turn : Turn}
    (hlaid : p.newTable (depthLimit o.maxDepth) o.seed = .ok laid) (ht : setup p (depthLimit o.maxDepth) laid = .ok t)
    (htotal : t.total = t.initial) (hturn : firstTurn p { t with passed := false } = .ok turn) :
    ∃ es, start id p o = .ok (opening id p o t, es) := by
  have hopening : turn = (opening id p o t).turn := firstTurn_ok hturn
  refine ⟨[⟨.gameStarted, id, 0, 0, "", "", "", []⟩], bind_eq_ok.mpr ⟨laid, mapError_eq_ok.mpr hlaid, ?_⟩⟩
  refine bind_eq_ok.mpr ⟨t, ht, ?_⟩
  simp only
  rw [if_neg (not_not.mpr htotal)]
  exact bind_eq_ok.mpr ⟨turn, mapError_eq_ok.mpr hturn, by rw [hopening]; rfl⟩

/-- A move that is accepted, after which no card is lost and the turn goes on, is committed. -/
lemma play_of_accepted {g : Game} {m : Move} {t : Table} {moves : List String} {finished : Bool} {turn : Turn}
    (hresolve : g.resolving.resolve m = .ok (.accepted t moves)) (hover : g.resolving.isOver m t = .ok finished)
    (htotal : t.total = t.initial)
    (hnext : nextTurn g.resolving.turn { t with ended := t.ended || finished } = .ok turn) :
    g.resolving.play m = .ok (.committed (g.commit m { t with ended := t.ended || finished } turn moves).table.checksum,
      g.commit m { t with ended := t.ended || finished } turn moves) := by
  refine bind_eq_ok.mpr ⟨_, hresolve, bind_eq_ok.mpr ⟨finished, hover, ?_⟩⟩
  simp only
  rw [if_neg (not_not.mpr htotal)]
  exact bind_eq_ok.mpr ⟨turn, mapError_eq_ok.mpr hnext, rfl⟩

end Game

namespace Scopa

open Game

variable {n : Nat} {g : Game}

/-- A game in which some moves have been committed. -/
structure InPlay (n : Nat) (g : Game) : Prop where
  program : g.program = program
  depth : 1 ≤ g.depth
  turn : g.turn = ⟨.awaitingMove, 2, n % 2 + 1, n + 1⟩
  laid : Laid g.table
  whole : ∃ deck, g.table.Holds deck
  current : g.table.current = n % 2
  ended : g.table.ended = false
  passed : g.table.passed = false
  hands : ∀ i < 2, (g.table.pile (hand i)).length + (n + 1 - i) / 2 = 3
  even : ∀ i < 2, Even (rankSum (g.table.pile (collection i)))

namespace InPlay

/-- An action is carried out by the rules, or the move is rejected. -/
lemma act_cases (h : InPlay n g) {m : Move} (hactor : (g.context m).actor g.table = n % 2 + 1)
    (haction : ["take", "drop"].contains m.action = true) (moves : List String) :
    (∃ t', Played (n % 2) m g.table t' ∧ g.act m g.table moves = .ok (.accepted t' moves)) ∨
      ∃ r, g.act m g.table moves = .ok (.rejected r) := by
  obtain ⟨d, hd⟩ := Nat.exists_eq_add_of_le' h.depth
  have hfn : ∃ fn, Scopa.program.function? m.action = some fn ∧ (fn = take ∨ fn = drop) := by
    simp only [List.contains_cons, List.contains_nil, Bool.or_false, Bool.or_eq_true, beq_iff_eq] at haction
    rcases haction with ha | ha
    · exact ⟨take, by rw [ha]; rfl, .inl rfl⟩
    · exact ⟨drop, by rw [ha]; rfl, .inr rfl⟩
  obtain ⟨fn, hfunction, hfn⟩ := hfn
  unfold act
  rw [h.program, hfunction, hd]
  rcases execute_action h.laid (Nat.mod_lt n two_pos) hactor rfl hfn with ⟨t', hplayed, hrun⟩ | ⟨r, hrun⟩
  · exact .inl ⟨t', hplayed, bind_eq_ok.mpr ⟨_, mapError_eq_ok.mpr hrun, rfl⟩⟩
  · exact .inr ⟨r, bind_eq_ok.mpr ⟨_, mapError_eq_ok.mpr hrun, rfl⟩⟩

/-- A move is resolved by the rules for the player on turn, or it is rejected. -/
lemma resolve_cases (h : InPlay n g) (m : Move) :
    (∃ t' moves, (g.context m).actor g.table = n % 2 + 1 ∧ Played (n % 2) m g.table t' ∧
      g.resolve m = .ok (.accepted t' moves)) ∨ ∃ r, g.resolve m = .ok (.rejected r) := by
  obtain ⟨d, hd⟩ := Nat.exists_eq_add_of_le' h.depth
  have hfunction : Scopa.program.function? playerMoveName = some playerMove := rfl
  have hexecute : (_ ∨ ∃ r, Scopa.program.execute (d + 1) playerMove g.table (g.context m) = .ok (.rejected r)) :=
    execute_playerMove rfl
  unfold resolve
  rw [h.program, hfunction, hd]
  rcases hexecute with ⟨hturn, hrun⟩ | ⟨r, hrun⟩
  · have hactor : (g.context m).actor g.table = n % 2 + 1 := by rw [hturn, Table.currentPlayer, h.current]
    have hmoved : Except.mapError (MoveError.failed playerMoveName) _ = _ := mapError_eq_ok.mpr hrun
    by_cases haction : ["take", "drop"].contains m.action = true
    · rcases h.act_cases hactor haction ["take", "drop"] with ⟨t', hplayed, hact⟩ | ⟨r, hact⟩
      · exact .inl ⟨t', _, hactor, hplayed, bind_eq_ok.mpr ⟨_, hmoved, (if_pos haction).trans hact⟩⟩
      · exact .inr ⟨r, bind_eq_ok.mpr ⟨_, hmoved, (if_pos haction).trans hact⟩⟩
    · exact .inr ⟨_, bind_eq_ok.mpr ⟨_, hmoved, if_neg haction⟩⟩
  · exact .inr ⟨r, bind_eq_ok.mpr ⟨_, mapError_eq_ok.mpr hrun, rfl⟩⟩

/-- The turn after a committed move is that of the other player. -/
lemma nextTurn_eq (h : InPlay n g) {t : Table} (hended : t.ended = false) (hpassed : t.passed = false) :
    nextTurn g.resolving.turn t = .ok ⟨.awaitingMove, 2, (n + 1) % 2 + 1, n + 2⟩ := by
  have hturn : g.resolving.turn = ⟨.resolving, 2, n % 2 + 1, n + 1⟩ := by
    unfold resolving
    rw [h.turn]
  have hnext : (n % 2 + 1) % 2 = (n + 1) % 2 := by omega
  rw [nextTurn, hended, hpassed, hturn, ← hnext]
  rfl

/-- A move that is played by the rules keeps the game in play. -/
lemma commit (h : InPlay n g) {m : Move} {t' : Table} (hplayed : Played (n % 2) m g.table t')
    (hsteps : Table.Steps g.table t') (moves : List String) :
    InPlay (n + 1) (g.commit m t' ⟨.awaitingMove, 2, (n + 1) % 2 + 1, n + 2⟩ moves) := by
  have hseat : n % 2 < 2 := Nat.mod_lt n two_pos
  obtain ⟨deck, hholds⟩ := h.whole
  obtain ⟨c, _, hheld, hhand, hothers⟩ := hplayed.playsCard h.laid hseat
  have hlaid := hplayed.laid h.laid
  exact {
    program := h.program
    depth := h.depth
    turn := rfl
    laid := ⟨hlaid.places, hlaid.players⟩
    whole := ⟨deck, (hholds.steps hsteps).withTurn _ _⟩
    current := rfl
    ended := hplayed.goesOn.1.trans h.ended
    passed := rfl
    hands := by
      intro i hi
      have hlength := h.hands i hi
      show (t'.pile (hand i)).length + (n + 1 + 1 - i) / 2 = 3
      by_cases hturn : i = n % 2
      · have hpos := List.length_pos_of_mem hheld
        rw [hturn] at hlength ⊢
        rw [hhand, List.length_erase_of_mem hheld]
        omega
      · rw [hothers i hturn]
        omega
    even := fun i hi => hplayed.even h.laid hseat i (h.even i hi) }

/-- A move that is played by the rules is committed. -/
lemma play_eq (h : InPlay n g) {m : Move} {t' : Table} {moves : List String}
    (hresolve : g.resolve m = .ok (.accepted t' moves)) (hplayed : Played (n % 2) m g.table t') :
    let g' := g.commit m t' ⟨.awaitingMove, 2, (n + 1) % 2 + 1, n + 2⟩ moves
    g.resolving.play m = .ok (.committed g'.table.checksum, g') := by
  obtain ⟨deck, hholds⟩ := h.whole
  have htotal : t'.total = t'.initial := (hholds.steps (resolve_steps hresolve)).total_eq
  have hover : g.resolving.isOver m t' = .ok false := by
    have hfunction : g.resolving.program.function? gameOverName = none := by
      show g.program.function? gameOverName = none
      rw [h.program]
      rfl
    unfold isOver
    rw [hfunction]
  have hnext := h.nextTurn_eq (hplayed.goesOn.1.trans h.ended) (hplayed.goesOn.2.trans h.passed)
  have hsame : t' = { t' with ended := t'.ended || false } := by rw [Bool.or_false]
  rw [hsame] at hnext ⊢
  exact play_of_accepted hresolve hover htotal hnext

/-- A move is rejected, and the game stays as it was; or it is committed by the rules for the player on turn. -/
lemma submit_cases (h : InPlay n g) (m : Move) :
    (∃ r, (g.submit m).reply = .ok r ∧ r.commits = false ∧ (g.submit m).game = g) ∨
      (∃ r, (g.submit m).reply = .ok r ∧ r.commits = true) ∧ (g.context m).actor g.table = n % 2 + 1 ∧
        PlaysCard (n % 2) m g.table (g.submit m).game.table ∧ InPlay (n + 1) (g.submit m).game := by
  have hphase : g.turn.phase = .awaitingMove := by rw [h.turn]
  rw [submit_eq hphase]
  rcases h.resolve_cases m with ⟨t', moves, hactor, hplayed, hresolve⟩ | ⟨r, hresolve⟩
  · rw [h.play_eq hresolve hplayed]
    have hcard := hplayed.playsCard h.laid (Nat.mod_lt n two_pos)
    exact .inr ⟨⟨_, rfl, rfl⟩, hactor, hcard, h.commit hplayed (resolve_steps hresolve) moves⟩
  · have hplay : g.resolving.play m = .ok (.rejected r, g) := by
      refine bind_eq_ok.mpr ⟨.rejected r, hresolve, ?_⟩
      rw [resume_resolving hphase]
    rw [hplay]
    exact .inl ⟨_, rfl, rfl, rfl⟩

/-- While moves are submitted the game stays in play, and counts those that are committed. -/
lemma after (h : InPlay n g) (ms : List Move) :
    InPlay (n + (g.session (ms.map .submit)).countP (·.answer.commits)) (g.after (ms.map .submit)) := by
  induction ms generalizing n g with
  | nil => exact h
  | cons m ms ih =>
    have hanswer : (g.handle (.submit m)).answer.commits = (g.submit m).commits := handle_submit_commits g m
    rw [List.map_cons, Game.after, session, List.countP_cons, hanswer]
    rcases h.submit_cases m with ⟨r, hreply, hcommits, hgame⟩ | ⟨⟨r, hreply, hcommits⟩, _, _, hnext⟩
    · have hno : (g.submit m).commits = false := by
        rw [Submission.commits, hreply]
        exact hcommits
      have hsame : (g.handle (.submit m)).game = g := hgame
      rw [hno, hsame]
      exact ih h
    · have hyes : (g.submit m).commits = true := by
        rw [Submission.commits, hreply]
        exact hcommits
      have hrest := ih hnext
      rw [hyes, if_pos rfl, Nat.add_comm _ 1, ← Nat.add_assoc]
      exact hrest

/-- No more than six moves are committed. -/
lemma le_six (h : InPlay n g) : n ≤ 6 := by
  have hfirst := h.hands 0 two_pos
  omega

end InPlay

/-- The program does not shuffle. -/
lemma program_noShuffle : program.NoShuffle := by
  unfold Program.NoShuffle
  decide +kernel

/-- What the setup leaves, with one seed and one nested call allowed. -/
lemma exists_setup : ∃ laid t, program.newTable 1 1 = .ok laid ∧ Game.setup program 1 laid = .ok t ∧ Laid t ∧
    t.total = t.initial ∧ t.current = 0 ∧ t.ended = false ∧ (∀ i < 2, (t.pile (hand i)).length = 3) ∧
    ∀ i < 2, t.pile (collection i) = [] := by
  have h : (program.newTable 1 1).toOption.any (fun laid => (Game.setup program 1 laid).toOption.any fun t =>
      t.places = [.deck, middle, hand 0, collection 0, hand 1, collection 1] ∧ t.players = 2 ∧ t.total = t.initial ∧
        t.current = 0 ∧ t.ended = false ∧ (∀ i < 2, (t.pile (hand i)).length = 3) ∧
        ∀ i < 2, t.pile (collection i) = []) = true := by
    decide +kernel
  obtain ⟨laid, hlaid, h⟩ := exists_of_any h
  obtain ⟨t, ht, h⟩ := exists_of_any h
  obtain ⟨hplaces, hplayers, h⟩ := of_decide_eq_true h
  exact ⟨laid, t, hlaid, ht, ⟨hplaces, hplayers⟩, h⟩

/-- With any seed and any limit on nested calls the game starts, and no move has been committed. -/
lemma exists_start (id : String) (o : GameOptions) : ∃ g es, start id program o = .ok (g, es) ∧ InPlay 0 g := by
  obtain ⟨laid, t, hlaid, ht, hl, htotal, hcurrent, hended, hhands, hcollections⟩ := exists_setup
  have hdepth : 1 ≤ depthLimit o.maxDepth := by
    unfold depthLimit defaultDepth
    split <;> omega
  -- a higher limit changes nothing, and another seed changes the generator only
  have hlaid' : program.newTable (depthLimit o.maxDepth) o.seed = .ok (laid.reseed (Table.generatorOf o.seed)) := by
    rw [Program.newTable_reseed program_noShuffle _ 1 o.seed, Program.newTable_of_lower hdepth hlaid]
    rfl
  have ht' : Game.setup program (depthLimit o.maxDepth) (laid.reseed (Table.generatorOf o.seed)) =
      .ok (t.reseed (Table.generatorOf o.seed)) := by
    rw [setup_reseed program_noShuffle, setup_of_lower hdepth ht]
    rfl
  have hturn : firstTurn program { t.reseed (Table.generatorOf o.seed) with passed := false } =
      .ok ⟨.awaitingMove, 2, 1, 1⟩ := by
    show (Turn.start 2 (t.current + 1 : Nat) >>= fun turn => if t.ended then turn.close else .ok turn) = _
    rw [hcurrent, hended]
    rfl
  obtain ⟨es, hstart⟩ := start_of_setup id hlaid' ht' htotal hturn
  refine ⟨_, es, hstart, ?_⟩
  obtain ⟨_, deck, _, _, _, hholds⟩ := start_holds ofSource_simpleScopa hstart
  exact {
    program := rfl
    depth := hdepth
    turn := (firstTurn_ok hturn).symm
    laid := ⟨hl.places, hl.players⟩
    whole := ⟨deck, hholds⟩
    current := hcurrent
    ended := hended
    passed := rfl
    hands := by
      intro i hi
      have hlength := hhands i hi
      show (t.pile (hand i)).length + (0 + 1 - i) / 2 = 3
      omega
    even := by
      intro i hi
      show Even (rankSum (t.pile (collection i)))
      rw [hcollections i hi]
      exact Even.zero }

/-- A game of the bundled scopa starts with any seed, and whatever moves are submitted to it: it does not end, no more
than six of them are committed, and the ranks in each collection have an even sum. A further move does not fail. If it
is committed, it has been made for the player on turn, it has taken one card from the hand of that player and none from
the other, and the other player is on turn; after the sixth no move is committed. -/
theorem simple_scopa_play :
    ∃ p, Program.ofSource Bundled.simpleScopa.toList = .ok p ∧ ∀ id o, ∃ g es, start id p o = .ok (g, es) ∧
      ∀ ms : List Move,
        let g' := g.after (ms.map .submit)
        let commits := (g.session (ms.map .submit)).countP (·.answer.commits)
        g'.isEnded = false ∧ commits ≤ 6 ∧ (∀ i < 2, Even (rankSum (g'.table.pile (collection i)))) ∧
          ∀ m, ∃ r, (g'.submit m).reply = .ok r ∧ (commits = 6 → r.commits = false) ∧
            (r.commits = true → ∃ i < 2, g'.currentPlayer = i + 1 ∧ (g'.context m).actor g'.table = i + 1 ∧
              PlaysCard i m g'.table (g'.submit m).game.table ∧
              (g'.submit m).game.currentPlayer = (1 - i) + 1) := by
  refine ⟨program, ofSource_simpleScopa, fun id o => ?_⟩
  obtain ⟨g, es, hstart, hg⟩ := exists_start id o
  refine ⟨g, es, hstart, fun ms => ?_⟩
  intro g' commits
  have hg' : InPlay commits g' := by
    have hafter := hg.after ms
    rwa [Nat.zero_add] at hafter
  have hended : g'.isEnded = false := by
    rw [Game.isEnded, hg'.turn]
    rfl
  refine ⟨hended, hg'.le_six, hg'.even, fun m => ?_⟩
  rcases hg'.submit_cases m with ⟨r, hreply, hcommits, _⟩ | ⟨⟨r, hreply, _⟩, hactor, hcard, hnext⟩
  · refine ⟨r, hreply, fun _ => hcommits, fun hyes => ?_⟩
    rw [hcommits] at hyes
    cases hyes
  · refine ⟨r, hreply, fun hsix => ?_, fun _ => ⟨commits % 2, Nat.mod_lt _ two_pos, ?_, hactor, hcard, ?_⟩⟩
    · have hle := hnext.le_six
      omega
    · rw [Game.currentPlayer, hg'.turn]
    · rw [Game.currentPlayer, hnext.turn]
      show (commits + 1) % 2 + 1 = _
      omega

/-- The players drop the cards that they were dealt, one after another, and can then do nothing more. -/
theorem simple_scopa_six_drops :
    ∃ p g es, ∃ ms : List Move, Program.ofSource Bundled.simpleScopa.toList = .ok p ∧
      start "scopa" p {} = .ok (g, es) ∧
      (g.session (ms.map .submit)).countP (·.answer.commits) = 6 ∧
      ∀ m, ∃ r, ((g.after (ms.map .submit)).submit m).reply = .ok r ∧ r.commits = false := by
  have hdrops : (start "scopa" program {}).toOption.any (fun s => (s.1.session
      (([5, 6, 7, 8, 9, 10].map fun rank => (⟨0, "drop", [Card.ofCodes rank 0], []⟩ : Move)).map .submit)).countP
        (·.answer.commits) = 6) = true := by
    decide +kernel
  obtain ⟨⟨g, es⟩, hstart, hsix⟩ := exists_of_any hdrops
  obtain ⟨p, hp, hplay⟩ := simple_scopa_play
  cases ofSource_simpleScopa.symm.trans hp
  obtain ⟨g', es', hstart', hrun⟩ := hplay "scopa" {}
  cases hstart.symm.trans hstart'
  refine ⟨program, g, es, _, hp, hstart, of_decide_eq_true hsix, fun m => ?_⟩
  obtain ⟨r, hreply, hrejects, _⟩ := (hrun _).2.2.2 m
  exact ⟨r, hreply, hrejects (of_decide_eq_true hsix)⟩

end Scopa

end Croupier
