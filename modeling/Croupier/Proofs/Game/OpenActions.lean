import Croupier.Proofs.Game.Session
import Croupier.Proofs.Run.Declaration

/-!
# Open actions

A program declares which actions are open. What counts is its last declaration while it receives a move
(`openFor_of_resolve`): a move is committed only if its action is then open, and those actions stay open until another
move is committed. What the setup declares, or an action while it is carried out, does not count.
-/

namespace Croupier

namespace Game

/-- The actions that are open when the action of a move is chosen, if a function receives the move: those of the last
declaration that receiving it makes, or those that were open before. -/
def openFor (g : Game) (receive : Function) (m : Move) : List String :=
  (lastDeclaration? (g.program.executionCalls g.depth receive g.table (g.context m))).getD g.moves

/-- An action is a function of the program, and it leaves the open actions as they are chosen. -/
lemma act_ok {g : Game} {m : Move} {t t' : Table} {moves moves' : List String}
    (h : g.act m t moves = .ok (.accepted t' moves')) :
    moves' = moves ∧ ∃ action, g.program.function? m.action = some action := by
  unfold act at h
  split at h
  · cases h
  · next action ha =>
    obtain ⟨outcome, _, h⟩ := bind_eq_ok.mp h
    cases outcome with
    | rejected r => cases h
    | committed t₁ v declared =>
      cases h
      exact ⟨rfl, action, ha⟩

/-- A move is resolved only by a function of the program that is open. -/
lemma openFor_of_resolve {g : Game} {m : Move} {t : Table} {moves : List String}
    (h : g.resolve m = .ok (.accepted t moves)) :
    ∃ receive action, g.program.function? playerMoveName = some receive ∧
      g.program.function? m.action = some action ∧ moves = g.openFor receive m ∧ m.action ∈ moves := by
  unfold resolve at h
  split at h
  · cases h
  · next receive hreceive =>
    obtain ⟨outcome, ho, h⟩ := bind_eq_ok.mp h
    cases outcome with
    | rejected r => cases h
    | committed t₁ v declared =>
      have hdeclared := Program.execute_declared (mapError_eq_ok.mp ho)
      simp only at h
      split at h
      · next hopen =>
        obtain ⟨rfl, action, haction⟩ := act_ok h
        rw [hdeclared] at hopen ⊢
        exact ⟨receive, action, hreceive, haction, rfl, List.contains_iff_mem.mp hopen⟩
      · cases h

/-- A committed move has been resolved, with the actions that are open after it. -/
lemma resolve_of_play {g g' : Game} {m : Move} {sum : String} (h : g.play m = .ok (.committed sum, g')) :
    ∃ t, g.resolve m = .ok (.accepted t g'.moves) := by
  obtain ⟨resolution, hr, h⟩ := bind_eq_ok.mp h
  cases resolution with
  | rejected r => cases h
  | accepted t moves =>
    obtain ⟨finished, _, h⟩ := bind_eq_ok.mp h
    simp only at h
    split at h
    · cases h
    obtain ⟨turn, _, h⟩ := bind_eq_ok.mp h
    cases h
    exact ⟨t, hr⟩

/-- After a committed move those actions are open that were open for it. -/
lemma openFor_of_commits {g : Game} (hs : g.Settled) {m : Move} (hc : (g.submit m).commits = true) :
    ∃ receive action, g.program.function? playerMoveName = some receive ∧
      g.program.function? m.action = some action ∧ (g.submit m).game.moves = g.openFor receive m ∧
      m.action ∈ (g.submit m).game.moves := by
  rcases hs with hp | hp
  · rw [submit_eq hp] at hc ⊢
    cases hplay : g.resolving.play m with
    | error e =>
      rw [hplay] at hc
      cases hc
    | ok out =>
      obtain ⟨v, g'⟩ := out
      rw [hplay] at hc
      cases v with
      | rejected r => cases hc
      | committed sum =>
        obtain ⟨t, hr⟩ := resolve_of_play hplay
        -- the game that resolves a move differs in the phase alone, which the program does not see
        exact openFor_of_resolve hr
  · rw [submit_ended hp] at hc
    cases hc

/-- The moves that are not committed leave the open actions as they were. -/
lemma moves_of_not_commits {g : Game} (hs : g.Settled) {m : Move} (hc : (g.submit m).commits = false) :
    (g.submit m).game.moves = g.moves := by
  rcases submit_cases hs m with ⟨_, hg⟩ | ⟨hc', _⟩
  · rw [hg]
  · rw [hc] at hc'
    cases hc'

/-- An arrangement leaves the open actions as they were. -/
lemma moves_arrange (g : Game) (ps : List Placement) : (g.handle (.arrange ps)).game.moves = g.moves := by
  cases ha : g.arrange ps with
  | error e => rw [handle_arrange_error ha]
  | ok g' =>
    rw [handle_arrange_ok ha]
    obtain ⟨t, _, rfl⟩ := arrange_ok ha
    rfl

/-- A game plays the program it was started with, within the limit of its options. -/
lemma start_program {id : String} {p : Program} {o : GameOptions} {g : Game} {es : List Event}
    (h : start id p o = .ok (g, es)) : g.program = p ∧ g.depth = depthLimit o.maxDepth := by
  obtain ⟨laid, t, _, _, rfl⟩ := start_ok h
  exact ⟨rfl, rfl⟩

/-- At the start no action is open. -/
lemma start_moves {id : String} {p : Program} {o : GameOptions} {g : Game} {es : List Event}
    (h : start id p o = .ok (g, es)) : g.moves = [] := by
  obtain ⟨laid, t, _, _, rfl⟩ := start_ok h
  rfl

/-- A session changes neither the program nor how deep its calls may be nested. -/
lemma invariant_program (p : Program) (depth : Nat) : Invariant fun g => g.program = p ∧ g.depth = depth where
  commit h hc := by
    cases hc with
    | intro moves steps next => exact h
  arrange h _ := h

/-- At the start no action is open, whatever the setup declares. In every session an arrangement and a move that is not
committed leave the open actions as they were. A committed move is one of the program's functions, and after it those
actions are open that were open when it was chosen, and it is one of them: they are those of the last declaration made
while the move was received, or those that were open before it. -/
theorem open_actions_of_session {id : String} {p : Program} {o : GameOptions} {g : Game} {es : List Event}
    (h : start id p o = .ok (g, es)) :
    g.moves = [] ∧ ∀ rs,
      (∀ ps, ((g.after rs).handle (.arrange ps)).game.moves = (g.after rs).moves) ∧
      ∀ m, (((g.after rs).submit m).commits = false → ((g.after rs).submit m).game.moves = (g.after rs).moves) ∧
        (((g.after rs).submit m).commits = true →
          ∃ receive action, p.function? playerMoveName = some receive ∧ p.function? m.action = some action ∧
            ((g.after rs).submit m).game.moves =
              (lastDeclaration? (p.executionCalls (depthLimit o.maxDepth) receive (g.after rs).table
                ((g.after rs).context m))).getD (g.after rs).moves ∧
            m.action ∈ ((g.after rs).submit m).game.moves) := by
  refine ⟨start_moves h, fun rs => ?_⟩
  have hs : (g.after rs).Settled := after_settled (start_settled h) rs
  obtain ⟨hprogram, hdepth⟩ := (invariant_program _ _).after (start_settled h) (start_program h) rs
  refine ⟨moves_arrange _, fun m => ⟨moves_of_not_commits hs, fun hc => ?_⟩⟩
  have hopen := openFor_of_commits hs hc
  unfold openFor at hopen
  rwa [hprogram, hdepth] at hopen

/-- At the start nothing is open; then two actions are, and one that is not open is refused. -/
theorem duel_open_actions :
    ∃ p g es receive, Program.ofSource duel.toList = .ok p ∧ start p.name p {} = .ok (g, es) ∧ g.moves = [] ∧
      p.function? playerMoveName = some receive ∧
      let g' := g.after [.submit ⟨0, "drop", [], []⟩, .submit ⟨0, "steal", [], []⟩]
      g'.moves = ["drop", "quit"] ∧ (g'.submit ⟨0, "quit", [], []⟩).game.moves =
        (lastDeclaration? (p.executionCalls (depthLimit defaultDepth) receive g'.table
          (g'.context ⟨0, "quit", [], []⟩))).getD ["drop", "quit"] := by
  let rs : List Request := [.submit ⟨0, "drop", [], []⟩, .submit ⟨0, "steal", [], []⟩]
  have hg : (ofSource? duel.toList).any (fun g => decide ((g.after rs).moves = ["drop", "quit"] ∧
      ((g.after rs).submit ⟨0, "quit", [], []⟩).commits = true)) = true := by
    rw [duel, String.toList_ofList]
    decide +kernel
  obtain ⟨p, g, es, hp, hs, hrs⟩ := exists_of_ofSource? hg
  obtain ⟨hmoves, hc⟩ := of_decide_eq_true hrs
  obtain ⟨hempty, hopen⟩ := open_actions_of_session hs
  obtain ⟨receive, action, hreceive, _, hquit, _⟩ := ((hopen rs).2 ⟨0, "quit", [], []⟩).2 hc
  rw [hmoves] at hquit
  exact ⟨p, g, es, receive, hp, hs, hempty, hreceive, hmoves, hquit⟩

/-- The actions that the setup declares at last on a new table. -/
def setupDeclares? (p : Program) (o : GameOptions) : Option (List String) := do
  let setup ← p.function? setupName
  let laid ← (p.newTable (depthLimit o.maxDepth) o.seed).toOption
  lastDeclaration? (p.executionCalls (depthLimit o.maxDepth) setup laid {})

/-- The actions that the action of a move declares at last, on the table that is left when the move has been received. -/
def actionDeclares? (g : Game) (m : Move) : Option (List String) := do
  let receive ← g.program.function? playerMoveName
  let action ← g.program.function? m.action
  match ← (g.program.execute g.depth receive g.table (g.context m)).toOption with
  | .committed t _ _ => lastDeclaration? (g.program.executionCalls g.depth action t (g.context m))
  | .rejected _ => none

/-- A program whose setup declares an action, which declares another. -/
def relay : String := "name relay deck StandardDeck players 1 stack pile
  .(draw first) def setup()\x7b valid_moves(draw) \x7d
  .(draw first) def player_move(player, move)\x7b if(count(pile) is 0)\x7b valid_moves(draw) \x7d \x7d
  .(then rest) def draw(player, move)\x7b deck > pile valid_moves(rest) \x7d
  .(no more) def rest(player, move)\x7b deck > pile \x7d"

/-- What a setup declares is not open at the start, and what an action declares is not open after it. -/
theorem relay_declarations_do_not_count :
    ∃ p g es, Program.ofSource relay.toList = .ok p ∧ start p.name p {} = .ok (g, es) ∧
      setupDeclares? p {} = some ["draw"] ∧ g.moves = [] ∧
      (g.submit ⟨0, "draw", [], []⟩).commits = true ∧ g.actionDeclares? ⟨0, "draw", [], []⟩ = some ["rest"] ∧
      (g.submit ⟨0, "draw", [], []⟩).game.moves = ["draw"] := by
  have hg : (ofSource? relay.toList).any (fun g => decide (setupDeclares? g.program {} = some ["draw"] ∧ g.moves = [] ∧
      (g.submit ⟨0, "draw", [], []⟩).commits = true ∧ g.actionDeclares? ⟨0, "draw", [], []⟩ = some ["rest"] ∧
      (g.submit ⟨0, "draw", [], []⟩).game.moves = ["draw"])) = true := by
    rw [relay, String.toList_ofList]
    decide +kernel
  obtain ⟨p, g, es, hp, hs, hrelay⟩ := exists_of_ofSource? hg
  have hrun := of_decide_eq_true hrelay
  rw [(start_program hs).1] at hrun
  exact ⟨p, g, es, hp, hs, hrun⟩

end Game

end Croupier
