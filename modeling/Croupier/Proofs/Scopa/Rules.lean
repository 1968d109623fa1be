import Mathlib.Algebra.Group.Int.Even
import Mathlib.Tactic.IntervalCases
import Croupier.Bundled
import Croupier.Proofs.Program.Equality
import Croupier.Proofs.Run.Decision

/-!
# The rules of the bundled scopa

What the bundled program is read as (`ofSource_simpleScopa`), and what its functions do. A player takes cards from the
middle with a card of the same value, or drops a card there; the rules say which table this leads to (`Played`). The
functions that carry the two actions out play by these rules or reject the move, and so does the function that receives
every move, which rejects it unless it acts for the player on turn.
-/

namespace Croupier

namespace Scopa

open Run

/-- A word of the program. -/
def word (s : String) (line col : Nat) : Expr := .name s ⟨line, col⟩

/-- The cards of the move. -/
def moveCards (line col : Nat) : Expr := .field (word "move" line col) "cards" ⟨line, col + 4⟩

/-- The target of the move. -/
def moveTarget (line col : Nat) : Expr := .field (word "move" line col) "target" ⟨line, col + 4⟩

/-- A stack of the player. -/
def own (stack : String) (line col : Nat) : Expr := .field (word "player" line col) stack ⟨line, col + 6⟩

/-- The check that a move is made with one card. -/
def checkOneCard (line : Nat) : Stmt :=
  .check (.compare (.call "count" [moveCards line 17] ⟨line, 11⟩) (.int 1 ⟨line, 32⟩) false ⟨line, 29⟩) ⟨line, 5⟩

/-- Four cards are dealt to the middle and three to each player. -/
def setup : Function where
  name := "setup"
  params := []
  body := [
    .transfer (word "deck" 12 5) (word "middle" 12 12) (.count 4) ⟨12, 5⟩,
    .transfer (word "deck" 13 5) (.field (word "players" 13 12) "hand" ⟨13, 19⟩) (.count 3) ⟨13, 5⟩]
  pos := ⟨11, 1⟩

/-- Every move must be made for the player on turn, who may take or drop. -/
def playerMove : Function where
  name := "player_move"
  params := ["player", "move"]
  body := [
    .check (.compare (own "id" 17 11) (word "current_player" 17 24) false ⟨17, 21⟩) ⟨17, 5⟩,
    .call "valid_moves" [word "take" 18 17, word "drop" 18 23] ⟨18, 5⟩ ⟨18, 5⟩]
  pos := ⟨16, 1⟩

/-- A card and cards in the middle of the same value go to the collection. -/
def take : Function where
  name := "take"
  params := ["player", "move"]
  body := [
    checkOneCard 22,
    .check (.call "cards_in_stack" [moveCards 23 26, own "hand" 23 38] ⟨23, 11⟩) ⟨23, 5⟩,
    .check (.call "cards_in_stack" [moveTarget 24 26, word "middle" 24 39] ⟨24, 11⟩) ⟨24, 5⟩,
    .check (.compare (.call "get_value" [moveCards 25 21] ⟨25, 11⟩) (.call "get_value" [moveTarget 25 46] ⟨25, 36⟩)
      false ⟨25, 33⟩) ⟨25, 5⟩,
    .transfer (own "hand" 26 5) (own "collection" 26 19) (.these (moveCards 26 39)) ⟨26, 5⟩,
    .transfer (word "middle" 27 5) (own "collection" 27 14) (.these (moveTarget 27 34)) ⟨27, 5⟩]
  pos := ⟨21, 1⟩

/-- A card goes to the middle. -/
def drop : Function where
  name := "drop"
  params := ["player", "move"]
  body := [
    checkOneCard 31,
    .transfer (own "hand" 32 5) (word "middle" 32 19) (.these (moveCards 32 28)) ⟨32, 5⟩]
  pos := ⟨30, 1⟩

/-- The comparison of the rank of a card. -/
def rankIsNot (rank : String) (col sign rankCol : Nat) : Expr :=
  .compare (.field (word "card" 40 col) "rank" ⟨40, col + 4⟩) (word rank 40 rankCol) true ⟨40, sign⟩

/-- Kings, queens and jacks do not play. -/
def notRoyal : Function where
  name := "not_royal"
  params := ["card"]
  body := [.ret (some (.join .and (.join .and (rankIsNot "K" 12 22 29) (rankIsNot "Q" 33 43 50) ⟨40, 31⟩)
    (rankIsNot "J" 54 64 71) ⟨40, 52⟩)) ⟨40, 5⟩]
  pos := ⟨39, 1⟩

/-- The bundled program. The value of cards is left to the built-in function. -/
def program : Program where
  name := "simple_scopa"
  deck := .call "filter" [word "StandardDeck" 3 13, word "not_royal" 3 27] ⟨3, 6⟩
  players := 2
  firstPlayer := 1
  tableStacks := ["middle"]
  playerStacks := ["hand", "collection"]
  functions := [setup, playerMove, take, drop, ⟨"get_value", ["cards"], [], ⟨36, 1⟩⟩, notRoyal]

/-- The text of the bundled program is read as the program. -/
lemma ofSource_simpleScopa : Program.ofSource Bundled.simpleScopa.toList = .ok program := by
  have h : (Program.ofSource Bundled.simpleScopa.toList).toOption = some program := by
    rw [Bundled.simpleScopa]
    simp only [String.toList_join, List.flatMap_cons, List.flatMap_nil]
    repeat rw [String.toList_ofList]
    decide +kernel
  exact toOption_eq_some.mp h

/-- The place in the middle. -/
def middle : Place := .shared "middle"

/-- The hand of the player at a seat. -/
def hand (i : Nat) : Place := .seat i "hand"

/-- The cards that the player at a seat has collected. -/
def collection (i : Nat) : Place := .seat i "collection"

/-- The middle is no hand. -/
lemma middle_ne_hand {i : Nat} : middle ≠ hand i := by simp [middle, hand]

/-- The middle is no collection. -/
lemma middle_ne_collection {i : Nat} : middle ≠ collection i := by simp [middle, collection]

/-- A hand is no collection. -/
lemma hand_ne_collection {i j : Nat} : hand i ≠ collection j := by simp [hand, collection]

/-- The places are those of the program. -/
structure Laid (t : Table) : Prop where
  places : t.places = [.deck, middle, hand 0, collection 0, hand 1, collection 1]
  players : t.players = 2

/-- What a move of the player at a seat does by the rules. -/
inductive Played (i : Nat) (m : Move) (t : Table) : Table → Prop where
  | take {c : Card} {rest : Pile} (cards : m.cards = [c]) (held : c ∈ t.pile (hand i))
      (captured : Pile.remove? m.target (t.pile middle) = some rest)
      (value : Builtin.totalValue [c] = Builtin.totalValue m.target) :
      Played i m t ((((t.put ((t.pile (hand i)).erase c) (hand i)).push [c] (collection i)).put rest middle).push
        m.target (collection i))
  | drop {c : Card} (cards : m.cards = [c]) (held : c ∈ t.pile (hand i)) :
      Played i m t ((t.put ((t.pile (hand i)).erase c) (hand i)).push [c] middle)

namespace Laid

variable {t : Table} {i : Nat}

/-- A change at a place keeps the places of the program. -/
lemma put (h : Laid t) (q : Pile) (p : Place) : Laid (t.put q p) :=
  ⟨(Table.places_put ..).trans h.places, (Table.players_put ..).trans h.players⟩

/-- Cards that are put on a pile keep the places of the program. -/
lemma push (h : Laid t) (cs : List Card) (p : Place) : Laid (t.push cs p) := h.put _ p

/-- There is a middle. -/
lemma middle_mem (h : Laid t) : middle ∈ t.places := by
  rw [h.places]
  decide

/-- Each of the two players has a hand. -/
lemma hand_mem (h : Laid t) (hi : i < 2) : hand i ∈ t.places := by
  rw [h.places]
  interval_cases i <;> decide

/-- Each of the two players has a collection. -/
lemma collection_mem (h : Laid t) (hi : i < 2) : collection i ∈ t.places := by
  rw [h.places]
  interval_cases i <;> decide

/-- The two players sit at the first two seats. -/
lemma seat?_eq (h : Laid t) (hi : i < 2) : t.seat? (i + 1 : Nat) = some i :=
  Table.seat?_eq_some_iff.mpr ⟨Int.natCast_succ i, h.players ▸ hi⟩

/-- The middle is found by its name. -/
lemma locate_middle {w : Work} (h : Laid w.table) (pos : Pos) : locate (.shared "middle") pos w = .ok (middle, w) := by
  refine locate_shared (Table.sharedPlace?_eq_some_iff.mpr (.inr ⟨?_, h.middle_mem, rfl⟩))
  decide

/-- A hand is found by its player and its name. -/
lemma locate_hand {w : Work} (h : Laid w.table) (hi : i < 2) (pos : Pos) :
    locate (.ofPlayer (i + 1) "hand") pos w = .ok (hand i, w) :=
  locate_ofPlayer (h.seat?_eq hi) (h.hand_mem hi)

/-- A collection is found by its player and its name. -/
lemma locate_collection {w : Work} (h : Laid w.table) (hi : i < 2) (pos : Pos) :
    locate (.ofPlayer (i + 1) "collection") pos w = .ok (collection i, w) :=
  locate_ofPlayer (h.seat?_eq hi) (h.collection_mem hi)

end Laid

/-- The scope of a function that takes the player and the move. -/
def scope (a : Nat) (m : Move) : Scope :=
  [("player", .player a), ("move", .move m), ("player", .player a), ("move", .move m)]

/-- How functions are called when so many calls may still be nested. -/
def calls (d : Nat) (ctx : Context) : Invoke := invoke ⟨program, ctx⟩ (enter ⟨program, ctx⟩ d)

variable {d i : Nat} {ctx : Context} {m : Move} {t : Table} {w : Work}

/-- The built-in function for cards in a stack tells whether the pile includes them. -/
lemma eval_included {sc : Scope} {e e' : Expr} {cs : List Card} {r : PileRef} {place : Place} {pos : Pos}
    (hcards : eval ⟨program, ctx⟩ (calls d ctx) sc e w = .ok (.cards cs, w))
    (hpile : eval ⟨program, ctx⟩ (calls d ctx) sc e' w = .ok (.pile r, w)) (hplace : locate r pos w = .ok (place, w)) :
    eval ⟨program, ctx⟩ (calls d ctx) sc (.call "cards_in_stack" [e, e'] pos) w =
      .ok (.bool (Pile.includes (w.table.pile place) cs), w) := by
  have hargs : evalAll ⟨program, ctx⟩ (calls d ctx) sc [e, e'] w = .ok ([.cards cs, .pile r], w) := by
    rw [evalAll, bind_of_ok hcards, evalAll]
    simp only [bind_assoc]
    rw [bind_of_ok hpile]
    rfl
  have hcall : calls d ctx "cards_in_stack" [.cards cs, .pile r] pos w =
      (locate r pos >>= fun place => pileAt place >>= fun pile => pure (.bool (Pile.includes pile cs))) w := rfl
  rw [eval, bind_of_ok hargs, hcall, bind_of_ok hplace]
  rfl

/-- A player can move cards from hand to collection. -/
lemma ends_hand_collection (h : Laid w.table) (hi : i < 2) {line col line' col' : Nat} :
    Ends ⟨program, ctx⟩ (calls d ctx) (scope (i + 1) m) (own "hand" line col) (own "collection" line' col') w
      (.ofPlayer (i + 1) "hand") (.ofPlayer (i + 1) "collection") (hand i) w :=
  ⟨⟨w, rfl, rfl⟩, h.locate_hand hi _⟩

/-- A player can move cards from hand to the middle. -/
lemma ends_hand_middle (h : Laid w.table) (hi : i < 2) {line col line' col' : Nat} :
    Ends ⟨program, ctx⟩ (calls d ctx) (scope (i + 1) m) (own "hand" line col) (word "middle" line' col') w
      (.ofPlayer (i + 1) "hand") (.shared "middle") (hand i) w :=
  ⟨⟨w, rfl, rfl⟩, h.locate_hand hi _⟩

/-- A player can move cards from the middle to the collection. -/
lemma ends_middle_collection (h : Laid w.table) {line col line' col' : Nat} :
    Ends ⟨program, ctx⟩ (calls d ctx) (scope (i + 1) m) (word "middle" line col) (own "collection" line' col') w
      (.shared "middle") (.ofPlayer (i + 1) "collection") middle w :=
  ⟨⟨w, rfl, rfl⟩, h.locate_middle _⟩

/-- A single card that can be taken out of a pile lies in it. -/
lemma mem_of_remove?_singleton {cs : List Card} {p left : Pile} (hcount : decide ((cs.length : Int) = 1) = true)
    (h : Pile.remove? cs p = some left) : ∃ c, cs = [c] ∧ c ∈ p ∧ left = p.erase c := by
  have hlength := of_decide_eq_true hcount
  obtain ⟨c, rfl⟩ := List.length_eq_one_iff.mp (by omega : cs.length = 1)
  exact ⟨c, rfl, Pile.remove?_singleton.mp h⟩

/-- The move is made for the player on turn, to whom two actions are open. -/
lemma playerMove_decides (a : Nat) :
    Decides (fun w => a = t.currentPlayer ∧ w = ⟨t, some ["take", "drop"]⟩)
      (execAll ⟨program, ctx⟩ (calls d ctx) playerMove.name (scope a m) playerMove.body ⟨t, none⟩) := by
  refine .check (eval_is_numbers rfl rfl) fun hturn => ?_
  refine .cons rfl (.nil ⟨?_, rfl⟩)
  exact Int.ofNat.inj (of_decide_eq_true hturn)

/-- To drop is to play by the rules. -/
lemma drop_decides (h : Laid t) (hi : i < 2) :
    Decides (fun w => Played i m t w.table ∧ w.moves = none)
      (execAll ⟨program, ctx⟩ (calls d ctx) drop.name (scope (i + 1) m) drop.body ⟨t, none⟩) := by
  refine .check (eval_is_numbers rfl rfl) fun hcount => ?_
  refine .transfer (ends_hand_middle h hi) (h.locate_middle _) rfl fun left hleft => ?_
  obtain ⟨c, hc, hheld, rfl⟩ := mem_of_remove?_singleton hcount hleft
  rw [hc]
  exact .nil ⟨.drop hc hheld, rfl⟩

/-- To take is to play by the rules. -/
lemma take_decides (h : Laid t) (hi : i < 2) :
    Decides (fun w => Played i m t w.table ∧ w.moves = none)
      (execAll ⟨program, ctx⟩ (calls d ctx) take.name (scope (i + 1) m) take.body ⟨t, none⟩) := by
  refine .check (eval_is_numbers rfl rfl) fun hcount => ?_
  refine .check (eval_included rfl rfl (h.locate_hand hi _)) fun _ => ?_
  refine .check (eval_included rfl rfl (h.locate_middle _)) fun _ => ?_
  refine .check (eval_is_numbers rfl rfl) fun hvalue => ?_
  refine .transfer (ends_hand_collection h hi) (h.locate_collection hi _) rfl fun left hleft => ?_
  obtain ⟨c, hc, hheld, rfl⟩ := mem_of_remove?_singleton hcount hleft
  -- the first transfer has not touched the middle
  have h' := (h.put ((t.pile (hand i)).erase c) (hand i)).push m.cards (collection i)
  refine .transfer (ends_middle_collection h') (h'.locate_collection hi _) rfl fun rest hrest => ?_
  have hmiddle : ((t.put ((t.pile (hand i)).erase c) (hand i)).push m.cards (collection i)).pile middle =
      t.pile middle := (Table.pile_push_ne middle_ne_collection _).trans (Table.pile_put_ne middle_ne_hand _)
  rw [hc] at hrest hvalue hmiddle ⊢
  refine .nil ⟨.take hc hheld (hmiddle ▸ hrest) (of_decide_eq_true hvalue), rfl⟩

/-- The one card of a move has left the hand of the player at a seat, and no other hand has changed. -/
def PlaysCard (i : Nat) (m : Move) (t t' : Table) : Prop :=
  ∃ c, m.cards = [c] ∧ c ∈ t.pile (hand i) ∧ t'.pile (hand i) = (t.pile (hand i)).erase c ∧
    ∀ j, j ≠ i → t'.pile (hand j) = t.pile (hand j)

/-- The sum of the ranks of some cards. -/
def rankSum (cs : List Card) : Int := (cs.map (·.rank.number)).sum

/-- Ranks are summed up card by card. -/
lemma rankSum_append (cs cs' : List Card) : rankSum (cs ++ cs') = rankSum cs + rankSum cs' := by
  simp only [rankSum, List.map_append, List.sum_append]

/-- Cards of the same value have an even sum, although values are words. -/
lemma even_of_totalValue_eq {cs cs' : List Card} (h : Builtin.totalValue cs = Builtin.totalValue cs') :
    Even (rankSum cs + rankSum cs') := by
  have hcs : Builtin.totalValue cs = wrap (rankSum cs) := rfl
  have hcs' : Builtin.totalValue cs' = wrap (rankSum cs') := rfl
  rw [hcs, hcs', wrap, wrap, Int.bmod_def, Int.bmod_def] at h
  rw [Int.even_iff]
  split at h <;> split at h <;> omega

namespace Played

variable {t' : Table}

/-- To play by the rules keeps the places of the program. -/
lemma laid (h : Played i m t t') (hl : Laid t) : Laid t' := by
  cases h with
  | take => exact (((hl.put ..).push ..).put ..).push ..
  | drop => exact (hl.put ..).push ..

/-- Nobody but the program ends the game or passes the turn on, and it does neither. -/
lemma goesOn (h : Played i m t t') : t'.ended = t.ended ∧ t'.passed = t.passed := by
  cases h with
  | take => simp only [Table.push, Table.ended_put, Table.passed_put, and_self]
  | drop => simp only [Table.push, Table.ended_put, Table.passed_put, and_self]

/-- To play by the rules takes one card from the hand of the player and leaves the other hand alone. -/
lemma playsCard (h : Played i m t t') (hl : Laid t) (hi : i < 2) : PlaysCard i m t t' := by
  have hself := Table.pile_put_self (hl.hand_mem hi)
  have hother : ∀ j, j ≠ i → hand j ≠ hand i := fun j hj => by simp [hand, hj]
  cases h with
  | take cards held captured value =>
    refine ⟨_, cards, held, ?_, fun j hj => ?_⟩
    · rw [Table.pile_push_ne hand_ne_collection, Table.pile_put_ne middle_ne_hand.symm,
        Table.pile_push_ne hand_ne_collection, hself]
    · rw [Table.pile_push_ne hand_ne_collection, Table.pile_put_ne middle_ne_hand.symm,
        Table.pile_push_ne hand_ne_collection, Table.pile_put_ne (hother j hj)]
  | drop cards held =>
    refine ⟨_, cards, held, ?_, fun j hj => ?_⟩
    · rw [Table.pile_push_ne middle_ne_hand.symm, hself]
    · rw [Table.pile_push_ne middle_ne_hand.symm, Table.pile_put_ne (hother j hj)]

/-- A collection whose ranks have an even sum keeps it: what is taken has the value of what it is taken with. -/
lemma even (h : Played i m t t') (hl : Laid t) (hi : i < 2) (j : Nat) (heven : Even (rankSum (t.pile (collection j)))) :
    Even (rankSum (t'.pile (collection j))) := by
  cases h with
  | drop cards held =>
    rwa [Table.pile_push_ne middle_ne_collection.symm, Table.pile_put_ne hand_ne_collection.symm]
  | @take c rest cards held captured value =>
    have hmem : collection i ∈ t.places := hl.collection_mem hi
    by_cases hj : j = i
    · subst hj
      rw [Table.pile_push_self (by simpa [Table.push] using hmem), Table.pile_put_ne middle_ne_collection.symm,
        Table.pile_push_self (by simpa using hmem), Table.pile_put_ne hand_ne_collection.symm,
        rankSum_append, rankSum_append, add_assoc]
      exact heven.add (even_of_totalValue_eq value)
    · have hother : collection j ≠ collection i := by simp [collection, hj]
      rwa [Table.pile_push_ne hother, Table.pile_put_ne middle_ne_collection.symm, Table.pile_push_ne hother,
        Table.pile_put_ne hand_ne_collection.symm]

end Played

/-- What a function that takes the player and the move decides its execution decides. -/
lemma execute_of_decides {P : Work → Prop} {a : Nat} {fn : Function} (hparams : fn.params = ["player", "move"])
    (hactor : ctx.actor t = a) (hmove : ctx.move = some m)
    (h : Decides P (execAll ⟨program, ctx⟩ (calls d ctx) fn.name (scope a m) fn.body ⟨t, none⟩)) :
    (∃ w, P w ∧ program.execute (d + 1) fn t ctx = .ok (.committed w.table .empty w.moves)) ∨
      ∃ r, program.execute (d + 1) fn t ctx = .ok (.rejected r) := by
  obtain ⟨player, move⟩ := ctx
  cases hmove
  have hargs : Program.executionArgs fn ⟨player, some m⟩ t = .ok [.player a, .move m] := by
    rw [← hactor, Program.executionArgs, hparams]
    rfl
  have hscope : (⟨player, some m⟩ : Context).scope fn.params [.player a, .move m] t = scope a m := by
    rw [Context.scope, hactor, hparams]
    rfl
  have harity : [Value.player a, Value.move m].length = fn.params.length := by
    rw [hparams]
    rfl
  rw [← hscope] at h
  exact Program.execute_of_decides hargs harity h

/-- The execution of the function that receives every move. -/
lemma execute_playerMove (hmove : ctx.move = some m) :
    (ctx.actor t = t.currentPlayer ∧
      program.execute (d + 1) playerMove t ctx = .ok (.committed t .empty (some ["take", "drop"]))) ∨
      ∃ r, program.execute (d + 1) playerMove t ctx = .ok (.rejected r) := by
  rcases execute_of_decides rfl rfl hmove (playerMove_decides _) with ⟨w, ⟨hturn, rfl⟩, hrun⟩ | hr
  · exact .inl ⟨hturn, hrun⟩
  · exact .inr hr

/-- The execution of an action for a player with a seat. -/
lemma execute_action (hl : Laid t) (hi : i < 2) (hactor : ctx.actor t = i + 1) (hmove : ctx.move = some m)
    {fn : Function} (hfn : fn = take ∨ fn = drop) :
    (∃ t', Played i m t t' ∧ program.execute (d + 1) fn t ctx = .ok (.committed t' .empty none)) ∨
      ∃ r, program.execute (d + 1) fn t ctx = .ok (.rejected r) := by
  have hdecides : (∃ w : Work, (Played i m t w.table ∧ w.moves = none) ∧
      program.execute (d + 1) fn t ctx = .ok (.committed w.table .empty w.moves)) ∨
      ∃ r, program.execute (d + 1) fn t ctx = .ok (.rejected r) := by
    rcases hfn with rfl | rfl
    · exact execute_of_decides rfl hactor hmove (take_decides hl hi)
    · exact execute_of_decides rfl hactor hmove (drop_decides hl hi)
  rcases hdecides with ⟨⟨t', moves⟩, ⟨hplayed, rfl⟩, hrun⟩ | hr
  · exact .inl ⟨t', hplayed, hrun⟩
  · exact .inr hr

end Scopa

end Croupier
