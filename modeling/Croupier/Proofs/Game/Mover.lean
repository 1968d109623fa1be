import Mathlib.Data.Nat.ModEq
import Croupier.Proofs.Game.HandOver
import Croupier.Proofs.Run.Course

/-!
# Whom a move names while it is made

For one move up to three functions are executed: the one that receives it, its action, and the one that is asked whether
the game is over (`Executes`). All three act for the same player. What the field `player` of the move denotes, however,
is settled every time the field is read (`Reading`): if the move names no player, it is the player on turn at that
moment, and the program may have passed the turn on by then. So the field denotes the player for whom the functions act
if and only if the move names that player, or the turn has come round to that player again (`move_player_denotes`).
-/

namespace Croupier

/-- The player who sits so many seats after another; players are counted from one. -/
def playerAfter (players player seats : Nat) : Nat := (player - 1 + seats) % players + 1

/-- So many seats on sits the same player if and only if the seats are full rounds. -/
lemma playerAfter_eq_self_iff {players player seats : Nat} (hpos : 1 ≤ player) (hle : player ≤ players) :
    playerAfter players player seats = player ↔ players ∣ seats := by
  have hplayer : (player - 1) % players = player - 1 := Nat.mod_eq_of_lt (by omega)
  rw [← Nat.add_modEq_left_iff (a := player - 1), Nat.ModEq, hplayer, playerAfter]
  omega

/-- Seats can be counted on from where one has come to. -/
lemma playerAfter_add (players player seats more : Nat) :
    playerAfter players player (seats + more) = playerAfter players (playerAfter players player seats) more := by
  unfold playerAfter
  rw [Nat.add_sub_cancel, Nat.mod_add_mod, Nat.add_assoc]

namespace Run

/-- The law that no other move than a given one turns up. -/
def Law.only (m : Move) : Law := ⟨fun _ => True, fun _ => True, (· = m)⟩

/-- Nothing that a program does brings in another move than the one that is made. -/
lemma Law.only_sound (m : Move) : (Law.only m).Sound := by
  constructor <;> simp [Law.only]

/-- The field `player` of a move that names no player denotes the player whose turn it is when the field is read. -/
lemma eval_player {env : Env} {call : Invoke} {scope : Scope} {base : Expr} {pos : Pos} {w w' : Work} {m : Move}
    (hsingle : (Expr.field base "player" pos).isEveryPlayer = false)
    (h : eval env call scope base w = .ok (.move m, w')) :
    eval env call scope (.field base "player" pos) w =
      .ok (.player (if 0 < m.player then m.player.toNat else w'.table.currentPlayer), w') := by
  rw [eval, hsingle, if_neg Bool.false_ne_true, bind_of_ok h]
  rfl

end Run

namespace Game

open Run

/-- What the functions are executed in that a move asks for. -/
def env (g : Game) (m : Move) : Env := ⟨g.program, g.context m⟩

/-- The executions that a move asks for: the function, the table that it starts on, and the calls that were made for the
move before. -/
inductive Executes (g : Game) (m : Move) : Function → Table → List BuiltinCall → Prop where
  | receive {fn : Function} : g.program.function? playerMoveName = some fn → Executes g m fn g.table []
  | act {receive fn : Function} {t : Table} {v : Value} {declared : Option (List String)} :
    g.program.function? playerMoveName = some receive →
    g.program.execute g.depth receive g.table (g.context m) = .ok (.committed t v declared) →
    (declared.getD g.moves).contains m.action = true → g.program.function? m.action = some fn →
    Executes g m fn t (g.program.executionCalls g.depth receive g.table (g.context m))
  | ask {fn : Function} {t : Table} {moves : List String} : g.resolve m = .ok (.accepted t moves) →
    g.program.function? gameOverName = some fn → Executes g m fn t (g.moveCalls m)

/-- A point in the executions that a move asks for where the field `player` of a move is read: the execution, the point
that its run comes to, and the move that the base of the field stands for. -/
structure Reading (g : Game) (m : Move) where
  fn : Function
  table : Table
  earlier : List BuiltinCall
  args : List Value
  depth : Nat
  scope : Scope
  base : Expr
  pos : Pos
  work : Work
  found : Move
  left : Work
  executes : g.Executes m fn table earlier
  args_eq : Program.executionArgs fn (g.context m) table = .ok args
  comesTo : ComesTo (g.env m) (.enter g.depth fn args fn.pos, ⟨table, none⟩)
    (.eval depth scope (.field base "player" pos), work)
  single : (Expr.field base "player" pos).isEveryPlayer = false
  base_eq : eval (g.env m) ((g.env m).call depth) scope base work = .ok (.move found, left)

namespace Reading

variable {g : Game} {m : Move} (r : g.Reading m)

/-- What comes of the field. -/
def result : Except Fault (Value × Work) :=
  eval (g.env m) ((g.env m).call r.depth) r.scope (.field r.base "player" r.pos) r.work

/-- The calls that are made for the base of the field. -/
def baseCalls : List BuiltinCall := (Task.eval r.depth r.scope r.base).trace (g.env m) r.work

/-- The execution has made some calls when its run comes to the base of the field. -/
def Made (calls : List BuiltinCall) : Prop :=
  Passes (g.env m) (.enter g.depth r.fn r.args r.fn.pos, ⟨r.table, none⟩) calls (.eval r.depth r.scope r.base, r.work)

end Reading

variable {g : Game} {m : Move} {players : Nat}

/-- An execution starts on a table that stands as the calls made before have left it. -/
lemma Executes.standing {fn : Function} {t : Table} {earlier : List BuiltinCall} (h : g.Executes m fn t earlier) :
    t.standing = standing.after earlier g.table.standing := by
  cases h with
  | receive _ => rfl
  | act _ hreceive _ _ => exact Program.execute_standing hreceive
  | ask hresolve _ => exact resolve_standing hresolve

/-- The player on turn after some calls. -/
lemma InStep.currentPlayer_after (hin : InStep players g) {t : Table} {calls : List BuiltinCall}
    (h : t.standing = standing.after calls g.table.standing) :
    t.currentPlayer = playerAfter players g.currentPlayer (handOffs calls) := by
  rw [standing_after _ hin.seated.current_lt] at h
  have hcurrent : g.table.current = g.currentPlayer - 1 := Nat.eq_sub_of_add_eq hin.current_eq
  have ht : t.current = (g.table.current + handOffs calls) % g.table.players := congrArg Standing.current h
  rw [hcurrent, hin.table_players] at ht
  exact congrArg (· + 1) ht

/-- Whom the functions act for that a move asks for. -/
lemma InStep.actor_context (hin : InStep players g) (m : Move) (t : Table) :
    (g.context m).actor t =
      if m.player = 0 then g.currentPlayer else if 0 < m.player then m.player.toNat else t.currentPlayer := by
  have hpos : 0 < g.currentPlayer := Nat.lt_of_lt_of_eq (Nat.succ_pos _) hin.current_eq
  unfold context mover Context.actor
  dsimp only
  split_ifs with hzero hnamed
  · exact Int.toNat_natCast _
  · exact absurd (Int.natCast_pos.mpr hpos) hnamed
  · rfl
  · rfl

namespace Reading

variable (r : g.Reading m)

/-- A function is given the player for whom it acts and the move, as far as it has parameters. -/
lemma args_eq_take : r.args = [.player ((g.context m).actor r.table), .move m].take r.fn.params.length := by
  have hargs := r.args_eq
  unfold Program.executionArgs at hargs
  simp only at hargs
  split at hargs
  · cases hargs
  · exact (Except.ok.inj hargs).symm

/-- The first parameter of a function stands for the player for whom it acts. -/
lemma head_args : ∀ v ∈ r.args.head?, v = .player ((g.context m).actor r.table) := by
  rw [r.args_eq_take]
  cases r.fn.params with
  | nil => simp
  | cons x xs => simp

/-- The move that is found is the one that is made. -/
lemma found_eq : r.found = m := by
  have hmove : ∀ m' ∈ (g.env m).context.move, (Law.only m).move m' := fun m' hm' => (Option.mem_some.mp hm').symm
  have hargs : (Task.enter g.depth r.fn r.args r.fn.pos).Obeys (Law.only m) := by
    intro v hv
    have hv : v ∈ r.args := hv
    rw [r.args_eq_take] at hv
    have hmem := List.mem_of_mem_take hv
    simp only [List.mem_cons, List.not_mem_nil, or_false] at hmem
    rcases hmem with rfl | rfl
    · trivial
    · rfl
  have hgiven := (r.comesTo.obeys (Law.only_sound m) hmove hargs trivial).1
  have hcalls : KeepsCalls (Law.only m) ((g.env m).call r.depth) :=
    invoke_keeps (Law.only_sound m) (enter_keeps (Law.only_sound m) hmove r.depth)
  have hscope : (Law.only m).scope r.scope := List.forall_mem_map.mp hgiven
  exact (eval_keeps (Law.only_sound m) hcalls hscope r.base trivial r.base_eq).2

/-- The field denotes the player whom the move names, and else the player on turn when it is read. -/
lemma result_eq : r.result =
    .ok (.player (if 0 < m.player then m.player.toNat else r.left.table.currentPlayer), r.left) := by
  have hplayer := eval_player r.single r.base_eq
  rw [r.found_eq] at hplayer
  exact hplayer

/-- When the field is read, the execution has made some calls. -/
lemma exists_made : ∃ calls, r.Made calls := by
  have hbase : ComesTo (g.env m) (.enter g.depth r.fn r.args r.fn.pos, ⟨r.table, none⟩)
      (.eval r.depth r.scope r.base, r.work) := r.comesTo.tail (.base r.single)
  exact hbase.passes

/-- When the field is read, the turn has been passed on by the calls for the move that were made until then. -/
lemma standing_left {calls : List BuiltinCall} (h : r.Made calls) :
    r.left.table.standing = standing.after (r.earlier ++ (calls ++ r.baseCalls)) g.table.standing := by
  have hwork : standing.read r.work = standing.after calls r.table.standing := h.records standing_sound
  have hleft : standing.read r.left = standing.after r.baseCalls (standing.read r.work) :=
    eval_records ((g.env m).caller_records standing_sound r.depth) r.base r.base_eq
  rw [Register.after_append, Register.after_append, ← r.executes.standing, ← hwork, ← hleft]
  rfl

/-- When the player to whom some calls of the execution have passed the turn is the one for whom it acts. -/
lemma denotes_actor_iff (hin : InStep players g) (calls : List BuiltinCall) :
    (if 0 < m.player then m.player.toNat
      else playerAfter players g.currentPlayer (handOffs (r.earlier ++ calls))) = (g.context m).actor r.table ↔
    0 < m.player ∨ players ∣ handOffs (if m.player = 0 then r.earlier ++ calls else calls) := by
  have hcurrent : g.currentPlayer = g.table.current + 1 := hin.current_eq.symm
  have hlt : g.table.current < players := hin.table_players ▸ hin.seated.current_lt
  rw [hin.actor_context m r.table]
  rcases lt_trichotomy m.player 0 with hneg | hzero | hpos
  · -- the execution acts for the player on turn when it starts
    have hnamed : ¬ 0 < m.player := by omega
    rw [if_neg hnamed, if_neg hneg.ne, if_neg hneg.ne, if_neg hnamed, or_iff_right hnamed,
      hin.currentPlayer_after r.executes.standing, handOffs_append, playerAfter_add]
    refine playerAfter_eq_self_iff (Nat.le_add_left 1 _) (Nat.mod_lt _ ?_)
    omega
  · have hnamed : ¬ 0 < m.player := by omega
    rw [if_neg hnamed, if_pos hzero, if_pos hzero, or_iff_right hnamed]
    exact playerAfter_eq_self_iff (by omega) (by omega)
  · rw [if_pos hpos, if_neg hpos.ne', if_pos hpos]
    exact iff_of_true rfl (.inl hpos)

end Reading

/-- In every session of a program that was read, the functions that a move asks for act for one player, whom their first
parameter stands for: the one whom the move names, or if it names none, the one on turn when it is submitted. Wherever
in their runs the field `player` of a move is read, that move is the one that is made. If it names a player, the field
denotes this player. If not, it denotes the player to whom the calls that were made for the move until then have passed
the turn, and so the player for whom the functions act only if these calls have passed it round the table. A negative
number names nobody, and then the functions act for the player on turn when they start. -/
theorem move_player_denotes {source : List Char} {p : Program} {id : String} {o : GameOptions} {g : Game}
    {es : List Event} (hp : Program.ofSource source = .ok p) (h : start id p o = .ok (g, es)) (rs : List Request)
    (m : Move) :
    let before := g.after rs
    let ctx := before.context m
    (∀ t, ctx.actor t = if m.player = 0 then before.currentPlayer
      else if 0 < m.player then m.player.toNat else t.currentPlayer) ∧
    ∀ r : before.Reading m,
      (∀ v ∈ r.args.head?, v = .player (ctx.actor r.table)) ∧ r.found = m ∧
      ∃ so who, r.Made so ∧ r.result = .ok (.player who, r.left) ∧
        (who = if 0 < m.player then m.player.toNat
          else playerAfter p.players.toNat before.currentPlayer (handOffs (r.earlier ++ (so ++ r.baseCalls)))) ∧
        (who = ctx.actor r.table ↔ 0 < m.player ∨
          p.players.toNat ∣ handOffs (if m.player = 0 then r.earlier ++ (so ++ r.baseCalls) else so ++ r.baseCalls)) := by
  intro before ctx
  have hin : InStep p.players.toNat before := (inStep_invariant _).after (start_settled h) (start_inStep hp h) rs
  refine ⟨hin.actor_context m, fun r => ⟨r.head_args, r.found_eq, ?_⟩⟩
  obtain ⟨so, hso⟩ := r.exists_made
  have hresult := r.result_eq
  rw [hin.currentPlayer_after (r.standing_left hso)] at hresult
  exact ⟨so, _, hso, hresult, rfl, r.denotes_actor_iff hin _⟩

/-- Tells whether a function first passes the turn on and then looks at the player of the move. -/
def passesFirst (fn : Function) : Bool :=
  match fn.params, fn.body with
  | ["player", "move"],
    .call "next_player" [] _ _ :: .check (.compare (.field (.name "move" _) "player" _) _ _ _) _ :: _ => true
  | _, _ => false

/-- If moves are received by a function that first passes the turn on, then the player of every move is read after
that. -/
lemma exists_reading {fn : Function} {depth : Nat} (hfn : g.program.function? playerMoveName = some fn)
    (hfirst : passesFirst fn = true) (hnext : g.program.function? "next_player" = none) (hdepth : g.depth = depth + 1)
    (m : Move) : ∃ r : g.Reading m, r.table = g.table ∧ r.earlier = [] ∧
      r.args = [.player ((g.context m).actor g.table), .move m] ∧ r.left = ⟨g.table.pass, none⟩ := by
  obtain ⟨name, params, body, fnPos⟩ := fn
  dsimp only [passesFirst] at hfirst
  split at hfirst
  · next callPos pos movePos fieldPos right negate comparePos checkPos others =>
    let env := g.env m
    let w : Work := ⟨g.table, none⟩
    let w' : Work := ⟨g.table.pass, none⟩
    let args : List Value := [.player ((g.context m).actor g.table), .move m]
    let scope := env.context.scope ["player", "move"] args g.table
    let base : Expr := .name "move" movePos
    let check : Stmt := .check (.compare (.field base "player" fieldPos) right negate comparePos) checkPos
    let receive : Function := ⟨name, ["player", "move"], .call "next_player" [] callPos pos :: check :: others, fnPos⟩
    -- the first statement passes the turn on, since no function of the program has that name
    have hcall : env.call depth "next_player" [] callPos w = .ok (.empty, w') := by
      have hown : env.program.function? "next_player" = none := hnext
      have hbuiltin : Builtin.ofName? "next_player" = some .nextPlayer := rfl
      unfold Env.call invoke
      rw [dispatch, hown, hbuiltin]
      rfl
    have heval : eval env (env.call depth) scope (.call "next_player" [] callPos) w = .ok (.empty, w') := by
      rw [eval, evalAll]
      exact hcall
    have hexec : exec env (env.call depth) name scope (.call "next_player" [] callPos pos) w = .ok (none, w') := by
      rw [exec, bind_of_ok heval]
      rfl
    -- from the start of the function the run comes to the field, one part after another
    have hbody : ComesTo env (.enter (depth + 1) receive args fnPos, w) (.execAll depth name scope receive.body, w) :=
      .single (.enter rfl)
    have hothers : ComesTo env (.enter (depth + 1) receive args fnPos, w)
        (.execAll depth name scope (check :: others), w') := hbody.tail (.otherStmts hexec)
    have hcheck : ComesTo env (.enter (depth + 1) receive args fnPos, w) (.exec depth name scope check, w') :=
      hothers.tail .firstStmt
    have hcompare : ComesTo env (.enter (depth + 1) receive args fnPos, w)
        (.eval depth scope (.compare (.field base "player" fieldPos) right negate comparePos), w') :=
      hcheck.tail .checked
    have hfield : ComesTo env (.enter (depth + 1) receive args fnPos, w)
        (.eval depth scope (.field base "player" fieldPos), w') := hcompare.tail .compareLeft
    rw [← hdepth] at hfield
    exact ⟨{
      fn := receive
      table := g.table
      earlier := []
      args := args
      depth := depth
      scope := scope
      base := base
      pos := fieldPos
      work := w'
      found := m
      left := w'
      executes := .receive hfn
      args_eq := rfl
      comesTo := hfield
      single := rfl
      base_eq := rfl }, rfl, rfl, rfl, rfl⟩
  · cases hfirst

/-- A program for two players that passes the turn on before it compares the player of a move with its own. -/
def baton : String := "name baton deck StandardDeck players 2 stack pile
  .(the turn first) def player_move(player, move)\x7b
    next_player() check(move:player is player) valid_moves(rest) \x7d
  .(nothing else) def rest(player, move)\x7b deck > pile \x7d"

/-- What evaluating the program shows: it is read, it starts, and it refuses the move that names nobody. -/
lemma exists_baton : ∃ p g es fn, Program.ofSource baton.toList = .ok p ∧ start p.name p {} = .ok (g, es) ∧
    g.program.function? playerMoveName = some fn ∧ passesFirst fn = true ∧
    g.program.function? "next_player" = none ∧ p.players.toNat = 2 ∧ g.currentPlayer = 1 ∧
    (g.submit ⟨0, "rest", [], []⟩).commits = false ∧ (g.submit ⟨1, "rest", [], []⟩).commits = true := by
  have hg : (ofSource? baton.toList).any (fun g => decide ((g.program.function? playerMoveName).any passesFirst = true ∧
      g.program.function? "next_player" = none ∧ g.program.players.toNat = 2 ∧ g.currentPlayer = 1 ∧
      (g.submit ⟨0, "rest", [], []⟩).commits = false ∧ (g.submit ⟨1, "rest", [], []⟩).commits = true)) = true := by
    rw [baton, String.toList_ofList]
    decide +kernel
  obtain ⟨p, g, es, hp, hs, hrun⟩ := exists_of_ofSource? hg
  obtain ⟨hreceive, hnext, hplayers, hrest⟩ := of_decide_eq_true hrun
  obtain ⟨fn, hfn, hfirst⟩ := (Option.any_eq_true _ _).mp hreceive
  rw [(start_program hs).1] at hplayers
  exact ⟨p, g, es, fn, hp, hs, hfn, hfirst, hnext, hplayers, hrest⟩

/-- After the turn has been passed on, the field denotes the player whom the move names, or the one to whom the calls so
far have passed the turn. -/
theorem baton_move_player_denotes :
    ∃ p g es, Program.ofSource baton.toList = .ok p ∧ start p.name p {} = .ok (g, es) ∧
      (∃ r : g.Reading ⟨1, "rest", [], []⟩, r.result = .ok (.player 1, r.left)) ∧
      ∃ (r : g.Reading ⟨0, "rest", [], []⟩) (so : List BuiltinCall), r.Made so ∧
        r.result = .ok (.player (playerAfter 2 1 (handOffs (so ++ r.baseCalls))), r.left) := by
  obtain ⟨p, g, es, fn, hp, hs, hfn, hfirst, hnext, hplayers, hcurrent, _⟩ := exists_baton
  obtain ⟨named, _⟩ := exists_reading hfn hfirst hnext (start_program hs).2 ⟨1, "rest", [], []⟩
  obtain ⟨r, _, hearlier, _⟩ := exists_reading hfn hfirst hnext (start_program hs).2 ⟨0, "rest", [], []⟩
  obtain ⟨_, _, _, _, _, hnamed, rfl, _⟩ := (move_player_denotes hp hs [] ⟨1, "rest", [], []⟩).2 named
  obtain ⟨_, _, so, _, hso, hresult, rfl, _⟩ := (move_player_denotes hp hs [] ⟨0, "rest", [], []⟩).2 r
  have hon : (g.after []).currentPlayer = 1 := hcurrent
  have hfirst : @Reading.earlier (g.after []) _ r = [] := hearlier
  rw [hplayers, hon, hfirst] at hresult
  exact ⟨p, g, es, hp, hs, ⟨named, hnamed⟩, r, so, hso, hresult⟩

/-- The field does not always denote the player for whom the functions act: player 1 is on turn, the move names nobody,
and the field denotes player 2 once the turn has been passed on. So the move is refused that would be committed if it
named player 1. -/
theorem baton_move_player_denotes_another :
    ∃ p g es, Program.ofSource baton.toList = .ok p ∧ start p.name p {} = .ok (g, es) ∧ g.currentPlayer = 1 ∧
      (∃ r : g.Reading ⟨0, "rest", [], []⟩, r.args.head? = some (.player 1) ∧ r.result = .ok (.player 2, r.left)) ∧
      (g.submit ⟨0, "rest", [], []⟩).commits = false ∧ (g.submit ⟨1, "rest", [], []⟩).commits = true := by
  obtain ⟨p, g, es, fn, hp, hs, hfn, hfirst, hnext, hplayers, hcurrent, hsubmit⟩ := exists_baton
  obtain ⟨r, _, _, hargs, hleft⟩ := exists_reading hfn hfirst hnext (start_program hs).2 ⟨0, "rest", [], []⟩
  have hin : InStep p.players.toNat g := start_inStep hp hs
  have hactor := hin.actor_context ⟨0, "rest", [], []⟩ g.table
  refine ⟨p, g, es, hp, hs, hcurrent, ⟨r, ?_, ?_⟩, hsubmit⟩
  · rw [hargs, hactor, hcurrent]
    rfl
  · have hpass : r.left.table.currentPlayer = 2 := by
      have hseat : g.table.current + 1 = 1 := hin.current_eq.trans hcurrent
      rw [hleft]
      show (g.table.current + 1) % g.table.players + 1 = 2
      rw [hin.table_players, hplayers, hseat]
    have hresult := r.result_eq
    rw [hpass] at hresult
    exact hresult

end Game

end Croupier
