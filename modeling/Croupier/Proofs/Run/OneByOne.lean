import Croupier.Proofs.Run.Deal
import Croupier.Proofs.Table.Reference

/-!
# Dealing one by one

A deal takes all its cards at once and hands them out afterwards. It leaves the same table as a row of transfers of one
card each, to one player after another around the table (`deal_eq_singles`), even if the cards come from one of the
stacks that they are dealt to: then every card that goes back to its stack goes to its end, behind those that are still
to be dealt. The transfers and the deal are compared card by card (`execAll_singles`).
-/

namespace Croupier

/-- The places that the references of a program lead to. -/
inductive Table.LeadsTo (t : Table) : PileRef → Place → Prop where
  | deck : LeadsTo t (.shared deckName) .deck
  | shared {name : String} : name ≠ deckName → .shared name ∈ t.places → LeadsTo t (.shared name) (.shared name)
  | seat {i : Nat} {name : String} : .seat i name ∈ t.places → LeadsTo t (.ofPlayer (i + 1) name) (.seat i name)

namespace Table.LeadsTo

variable {t t' : Table} {r : PileRef} {place : Place}

/-- A reference leads to a place that is there. -/
lemma mem_places (h : t.LeadsTo r place) : place ∈ t.places := by
  cases h with
  | deck => exact deck_mem_places t
  | shared _ hmem => exact hmem
  | seat hmem => exact hmem

/-- Where a reference leads depends on the places only. -/
lemma congr (h : t.LeadsTo r place) (hp : t'.places = t.places) : t'.LeadsTo r place := by
  cases h with
  | deck => exact .deck
  | shared hne hmem => exact .shared hne (hp ▸ hmem)
  | seat hmem => exact .seat (hp ▸ hmem)

end Table.LeadsTo

namespace Run

variable {env : Env} {call : Invoke} {scope : Scope} {source target : Expr} {src : PileRef} {place : Place}
  {name : String} {hand : Nat → Expr}

/-- A reference is located where it leads. -/
lemma locate_of_leadsTo {r : PileRef} {pos : Pos} {w : Work} (h : w.table.LeadsTo r place) :
    locate r pos w = .ok (place, w) := by
  cases h with
  | deck => exact locate_shared (if_pos rfl)
  | shared hne hmem => exact locate_shared (Table.sharedPlace?_eq_some_iff.mpr (.inr ⟨hne, hmem, rfl⟩))
  | seat hmem =>
    exact locate_ofPlayer (Table.seat?_eq_some_iff.mpr ⟨Int.natCast_succ _, Table.lt_players_of_mem hmem⟩) hmem

/-- An expression stands for a pile, whatever the table is, and to evaluate it changes nothing. -/
def StandsFor (env : Env) (call : Invoke) (scope : Scope) (e : Expr) (r : PileRef) : Prop :=
  ∀ w, eval env call scope e w = .ok (.pile r, w)

/-- A transfer of one card takes it from the front of a pile and puts it on the end of another. -/
lemma exec_one {ref : PileRef} {place' : Place} {c : Card} {rest : Pile} {w : Work}
    (hs : StandsFor env call scope source src) (ht : StandsFor env call scope target ref)
    (hl : w.table.LeadsTo src place) (hl' : w.table.LeadsTo ref place') (hp : w.table.pile place = c :: rest)
    (fn : String) (pos : Pos) :
    exec env call fn scope (.transfer source target .one pos) w =
      .ok (none, { w with table := (w.table.put rest place).push [c] place' }) := by
  have hbetween : transferBetween (eval env call scope) call fn src place ref target.pos .one pos =
      moveTo (eval env call scope) call fn src place ref target.pos .one pos := by
    cases hl' <;> rfl
  have hpile : pileAt place w = .ok (c :: rest, w) := congrArg (fun q => Except.ok (q, w)) hp
  have htake : takeFrom src place 1 pos w = .ok ([c], { w with table := w.table.put rest place }) := by
    rw [takeFrom_enough (by rw [hp, List.length_cons]; omega), hp]
    rfl
  rw [exec, bind_transfer (hs w) (ht w) (locate_of_leadsTo hl), hbetween, moveTo, bind_assoc,
    bind_of_ok (locate_of_leadsTo hl')]
  simp only [bind_assoc]
  rw [bind_of_ok hpile]
  exact bind_of_ok htake

/-- Transfers of one card each from a source to the hands of the players, one after another from a given turn on. -/
def singles (source : Expr) (hand : Nat → Expr) (players : Nat) (pos : Pos) (turn n : Nat) : List Stmt :=
  (List.range' turn n).map fun i => .transfer source (hand (i % players)) .one pos

/-- Single transfers of the cards in front of a pile leave the table that is left when those cards are gone from the
pile and are then dealt. -/
lemma execAll_singles (hs : StandsFor env call scope source src) {players : Nat}
    (hh : ∀ seat < players, StandsFor env call scope (hand seat) (.ofPlayer (seat + 1) name)) (hpos : 0 < players)
    {t : Table} (hl : t.LeadsTo src place) (hplayers : t.players = players)
    (hall : ∀ seat < players, .seat seat name ∈ t.places) (fn : String) (pos pos' : Pos) (turn : Nat) (cs left : Pile)
    (moves : Option (List String)) :
    execAll env call fn scope (singles source hand players pos turn cs.length) ⟨t.put (cs ++ left) place, moves⟩ =
      (dealFrom name pos' turn cs >>= fun _ => pure none) ⟨t.put left place, moves⟩ := by
  induction cs generalizing t turn left with
  | nil => rfl
  | cons c cs ih =>
    have hlt : turn % players < players := Nat.mod_lt _ hpos
    have hmem := hl.mem_places
    obtain ⟨t', left', hplaces, hplayers', hput⟩ :=
      t.exists_put_eq_push hmem (.seat (turn % players) name) c left
    have hrest := ih (hl.congr hplaces) (hplayers'.trans hplayers) (hplaces ▸ hall) (turn + 1) left'
    -- the first single transfer, on the table where all cards still wait
    have hone : exec env call fn scope (.transfer source (hand (turn % players)) .one pos)
        ⟨t.put (c :: cs ++ left) place, moves⟩ = .ok (none, ⟨t'.put (cs ++ left') place, moves⟩) := by
      have htarget : t.LeadsTo (.ofPlayer (turn % players + 1) name) (.seat (turn % players) name) :=
        .seat (hall _ hlt)
      rw [exec_one hs (hh _ hlt) (hl.congr (Table.places_put ..)) (htarget.congr (Table.places_put ..))
        (Table.pile_put_self hmem _), Table.put_put, ← hput cs]
      rfl
    -- the first card that is dealt, on the table where they are all gone
    have hdeal : dealFrom name pos' turn (c :: cs) ⟨t.put left place, moves⟩ =
        dealFrom name pos' (turn + 1) cs ⟨t'.put left' place, moves⟩ := by
      have hturn : turn % (t.put left place).players = turn % players := by rw [Table.players_put, hplayers]
      rw [dealFrom_cons (by rw [hturn, Table.places_put]; exact hall _ hlt), hturn]
      exact congrArg (fun t => dealFrom name pos' (turn + 1) cs ⟨t, moves⟩) (hput [])
    have hdeal' : (dealFrom name pos' turn (c :: cs) >>= fun _ => (pure none : Run (Option Value)))
        ⟨t.put left place, moves⟩ =
        (dealFrom name pos' (turn + 1) cs >>= fun _ => pure none) ⟨t'.put left' place, moves⟩ := by
      show Except.bind (dealFrom name pos' turn (c :: cs) ⟨t.put left place, moves⟩) _ = _
      rw [hdeal]
      rfl
    rw [hdeal', ← hrest, List.length_cons, singles, List.range'_succ, List.map_cons, execAll, bind_of_ok hone]
    rfl

/-- A deal that takes so many cards from a pile leaves the table that as many single transfers leave. -/
lemma exec_deal_eq_singles {w : Work} (hs : StandsFor env call scope source src)
    (ht : StandsFor env call scope target (.everyPlayer name))
    (hh : ∀ seat < w.table.players, StandsFor env call scope (hand seat) (.ofPlayer (seat + 1) name))
    (hpos : 0 < w.table.players) (hl : w.table.LeadsTo src place)
    (hall : ∀ seat < w.table.players, .seat seat name ∈ w.table.places) (hc : w.table.Coherent) (fn : String)
    (pos pos' : Pos) {amount : Amount} {need : Nat} (hle : need ≤ (w.table.pile place).length)
    (hneed : amountTaken amount w.table.players (w.table.pile place).length = need) :
    ∃ t', exec env call fn scope (.transfer source target amount pos) w = .ok (none, ⟨t', w.moves⟩) ∧
      execAll env call fn scope (singles source hand w.table.players pos' 0 need) w = .ok (none, ⟨t', w.moves⟩) ∧
      HandedOut name 0 ((w.table.pile place).take need) (w.table.put ((w.table.pile place).drop need) place) t' := by
  let left : Work := { w with table := w.table.put ((w.table.pile place).drop need) place }
  have hplayers : left.table.players = w.table.players := Table.players_put ..
  have hplaces : left.table.places = w.table.places := Table.places_put ..
  have hall' : ∀ seat < left.table.players, .seat seat name ∈ left.table.places := by
    rw [hplayers, hplaces]
    exact hall
  obtain ⟨t', hdeal, hhanded⟩ := dealFrom_handedOut (w := left) hall' fun _ => hplayers ▸ hpos
  refine ⟨t', ?_, ?_, hhanded⟩
  · have htake : takeFrom src place need pos w = .ok ((w.table.pile place).take need, left) :=
      takeFrom_enough (by omega)
    rw [exec_deal_from (hs w) (ht w) (locate_of_leadsTo hl), hneed, bind_of_ok htake]
    exact bind_of_ok hdeal
  · have hsingles := execAll_singles hs hh hpos hl rfl hall fn pos' target.pos 0 ((w.table.pile place).take need)
      ((w.table.pile place).drop need) w.moves
    rw [List.take_append_drop, List.length_take_of_le hle, Table.put_pile_self hc hl.mem_places] at hsingles
    rw [hsingles]
    exact bind_of_ok hdeal

/-- A deal of `n` cards to every player, if the pile holds so many, and a deal of the whole pile leave exactly the table
that single transfers to the players in turn leave: as many as there are cards to be dealt. The pile that they come from
may be the deck, a shared stack or a stack of a player, also one of those that they are dealt to. The pile has lost the
cards, and then the stack of every player has grown by its share: the cards at every so many places. -/
theorem deal_eq_singles {w : Work} (hs : StandsFor env call scope source src)
    (ht : StandsFor env call scope target (.everyPlayer name))
    (hh : ∀ seat < w.table.players, StandsFor env call scope (hand seat) (.ofPlayer (seat + 1) name))
    (hpos : 0 < w.table.players) (hl : w.table.LeadsTo src place)
    (hall : ∀ seat < w.table.players, .seat seat name ∈ w.table.places) (hc : w.table.Coherent)
    (hlen : IsWord (w.table.pile place).length) (fn : String) (pos pos' : Pos) :
    let t := w.table
    let held := t.pile place
    let deal := fun amount => exec env call fn scope (.transfer source target amount pos) w
    let oneByOne := fun n => execAll env call fn scope (singles source hand t.players pos' 0 n) w
    (∀ n : Nat, n * t.players ≤ held.length → ∃ t', deal (.count n) = .ok (none, ⟨t', w.moves⟩) ∧
      oneByOne (n * t.players) = .ok (none, ⟨t', w.moves⟩) ∧
      HandedOut name 0 (held.take (n * t.players)) (t.put (held.drop (n * t.players)) place) t') ∧
    ∃ t', deal .all = .ok (none, ⟨t', w.moves⟩) ∧ oneByOne held.length = .ok (none, ⟨t', w.moves⟩) ∧
      HandedOut name 0 held (t.put [] place) t' := by
  intro t held deal oneByOne
  refine ⟨?_, ?_⟩
  · intro n hn
    have hword : IsWord (n * t.players : Nat) := by
      have hlt : (held.length : Int) < 0x8000000000000000 := hlen.2
      exact ⟨by omega, by omega⟩
    have hneed : amountTaken (.count n) t.players held.length = (n * t.players : Nat) := by
      show wrap (n * t.players) = _
      rw [← Int.natCast_mul, wrap_of_isWord hword]
    exact exec_deal_eq_singles hs ht hh hpos hl hall hc fn pos pos' hn hneed
  · have hneed : amountTaken .all t.players held.length = held.length := rfl
    have hwhole := exec_deal_eq_singles hs ht hh hpos hl hall hc fn pos pos' (Nat.le_refl _) hneed
    rwa [List.take_length, List.drop_length] at hwhole

/-- A hand of five is dealt to three players, one of whom held it: the last round stops after the second player, and
what falls to the player who held the hand goes back to it. -/
theorem own_hand_dealt :
    let c := fun rank => Card.ofCodes rank 0
    let t : Table := ⟨[], [], [[("hand", [c 13])], [("hand", [c 1, c 2, c 3, c 4, c 5])], [("hand", [])]], 1, [], false,
      false, 6, .ofSeeds 1 1⟩
    let env : Env := ⟨⟨"rummy", .name "StandardDeck" .start, 3, 1, [], ["hand"], []⟩, {}⟩
    let call := invoke env (enter env 1)
    let scope : Scope := [("first", .player 1), ("second", .player 2), ("third", .player 3)]
    let hand : Nat → Expr := fun seat => .field (.name (["first", "second", "third"].getD seat "") .start) "hand" .start
    let target : Expr := .field (.name "players" .start) "hand" .start
    ∃ t', exec env call "deal" scope (.transfer (hand 1) target .all .start) ⟨t, none⟩ = .ok (none, ⟨t', none⟩) ∧
      execAll env call "deal" scope (singles (hand 1) hand 3 .start 0 5) ⟨t, none⟩ = .ok (none, ⟨t', none⟩) ∧
      t'.pile (.seat 0 "hand") = [c 13, c 1, c 4] ∧ t'.pile (.seat 1 "hand") = [c 2, c 5] ∧
      t'.pile (.seat 2 "hand") = [c 3] := by
  intro c t env call scope hand target
  have hh : ∀ seat < 3, StandsFor env call scope (hand seat) (.ofPlayer (seat + 1) "hand") := by
    intro seat hseat w
    obtain rfl | rfl | rfl : seat = 0 ∨ seat = 1 ∨ seat = 2 := by omega
    · rfl
    · rfl
    · rfl
  have ht : StandsFor env call scope target (.everyPlayer "hand") := fun w => rfl
  have hall : ∀ seat < t.players, .seat seat "hand" ∈ t.places := by decide +kernel
  have hc : t.Coherent := ⟨by decide +kernel, by decide +kernel⟩
  have hl : t.LeadsTo (.ofPlayer 2 "hand") (.seat 1 "hand") := .seat (hall 1 (by decide))
  obtain ⟨_, t', hdeal, hsingles, hhanded⟩ := deal_eq_singles (w := ⟨t, none⟩) (hh 1 (by decide)) ht hh (by decide) hl
    hall hc (by decide) "deal" .start .start
  refine ⟨t', hdeal, hsingles, ?_, ?_, ?_⟩
  · exact (hhanded.shares 0 (by decide)).trans (by decide +kernel)
  · exact (hhanded.shares 1 (by decide)).trans (by decide +kernel)
  · exact (hhanded.shares 2 (by decide)).trans (by decide +kernel)

end Run

end Croupier
