import Mathlib.Data.Int.CardIntervalMod
import Croupier.Program.Parser
import Croupier.Proofs.Except
import Croupier.Proofs.Run.Transfer
import Croupier.Run.Execute

/-!
# Counted deals

A deal of `n` cards to every player first takes the cards of all players from the front of a pile, and then hands them
out around the table, so that a seat gets the cards at every so many places (`share`). How many cards it takes is a
product of words. If the product of `n` and the number of players is a word, the deal succeeds if and only if the pile
holds so many cards, and every player gets `n` of them. A larger product wraps around: the deal then takes what is left
of it (`counted_deal`), as the deal of an `avalanche` of cards to four players shows.
-/

namespace Croupier.Run

/-- The cards that fall to a seat when cards are dealt around the table, the first of them on a given turn. -/
def share (players seat turn : Nat) (cs : List Card) : List Card :=
  ((cs.zipIdx turn).filter fun x => x.2 % players = seat).map (·.1)

/-- A card falls to the seat whose turn it is. -/
lemma share_cons {players seat turn : Nat} {c : Card} {cs : List Card} :
    share players seat turn (c :: cs) =
      (if turn % players = seat then [c] else []) ++ share players seat (turn + 1) cs := by
  unfold share
  rw [List.zipIdx_cons, List.filter_cons]
  by_cases h : turn % players = seat <;> simp [h]

/-- The shares of the seats differ by one card at most, and the first seats get the larger ones. -/
lemma length_share {players seat : Nat} (hs : seat < players) (cs : List Card) :
    (share players seat 0 cs).length = cs.length / players + if seat < cs.length % players then 1 else 0 := by
  have hcount : (share players seat 0 cs).length = (List.range cs.length).countP (· % players = seat) := by
    have hsnd : List.range cs.length = (cs.zipIdx 0).map (·.2) := by
      rw [List.zipIdx_map_snd, List.range_eq_range']
    rw [hsnd, List.countP_map, share, List.length_map, ← List.countP_eq_length_filter]
    rfl
  have hmod := Nat.count_modEq_card cs.length (Nat.zero_lt_of_lt hs) seat
  simp only [Nat.count, Nat.ModEq, Nat.mod_eq_of_lt hs] at hmod
  rw [hcount, hmod]

/-- Cards have been handed out: the stacks of the players have grown by their shares, and no other pile has changed. -/
structure HandedOut (name : String) (turn : Nat) (cs : List Card) (t t' : Table) : Prop where
  shares : ∀ seat < t.players, t'.pile (.seat seat name) = t.pile (.seat seat name) ++ share t.players seat turn cs
  others : ∀ q, (∀ seat < t.players, q ≠ .seat seat name) → t'.pile q = t.pile q

/-- A card is dealt to the player on turn, and the next one to the next player. -/
lemma dealFrom_cons {name : String} {pos : Pos} {turn : Nat} {c : Card} {cs : List Card} {w : Work}
    (h : .seat (turn % w.table.players) name ∈ w.table.places) :
    dealFrom name pos turn (c :: cs) w = dealFrom name pos (turn + 1) cs
      { w with table := w.table.push [c] (.seat (turn % w.table.players) name) } := by
  have htable : Run.table w = .ok (w.table, w) := rfl
  rw [dealFrom, bind_of_ok htable]
  simp only [Table.seatPlace?_of_mem h]
  rfl

/-- Cards can be dealt to a stack that every player has. -/
lemma dealFrom_handedOut {name : String} {pos : Pos} {turn : Nat} {cs : List Card} {w : Work}
    (hall : ∀ seat < w.table.players, .seat seat name ∈ w.table.places) (hp : cs ≠ [] → 0 < w.table.players) :
    ∃ t, dealFrom name pos turn cs w = .ok ((), { w with table := t }) ∧ HandedOut name turn cs w.table t := by
  induction cs generalizing turn w with
  | nil => exact ⟨w.table, rfl, fun seat _ => (List.append_nil _).symm, fun _ _ => rfl⟩
  | cons c cs ih =>
    have hlt : turn % w.table.players < w.table.players := Nat.mod_lt _ (hp (List.cons_ne_nil c cs))
    have hplace := hall _ hlt
    -- the next card is dealt on the table where the first one lies already
    let w₁ : Work := { w with table := w.table.push [c] (.seat (turn % w.table.players) name) }
    have hplayers : w₁.table.players = w.table.players := Table.players_put ..
    have hplaces : w₁.table.places = w.table.places := Table.places_put ..
    have hall₁ : ∀ seat < w₁.table.players, .seat seat name ∈ w₁.table.places := by
      rw [hplayers, hplaces]
      exact hall
    obtain ⟨t, hdeal, hshares, hothers⟩ := ih hall₁ fun _ => hplayers ▸ hp (List.cons_ne_nil c cs)
    refine ⟨t, ?_, ?_, ?_⟩
    · rw [dealFrom_cons hplace]
      exact hdeal
    · intro seat hseat
      rw [hshares seat (hplayers ▸ hseat), hplayers, share_cons, ← List.append_assoc]
      congr 1
      by_cases h : turn % w.table.players = seat
      · rw [if_pos h, ← h]
        exact Table.pile_push_self hplace _
      · rw [if_neg h, List.append_nil]
        have hne : Place.seat seat name ≠ .seat (turn % w.table.players) name :=
          fun he => h (Place.seat.inj he).1.symm
        exact Table.pile_push_ne hne _
    · intro q hq
      rw [hothers q (by rw [hplayers]; exact hq)]
      exact Table.pile_push_ne (hq _ hlt) _

variable {env : Env} {call : Invoke} {scope : Scope} {src name : String} {source target : Expr} {w w₁ w₂ : Work}
  {place : Place}

/-- A shared place is not at a seat. -/
lemma ne_seat_of_sharedPlace? {t : Table} (h : t.sharedPlace? src = some place) (seat : Nat) :
    place ≠ .seat seat name := by
  rcases Table.sharedPlace?_eq_some_iff.mp h with ⟨_, rfl⟩ | ⟨_, _, rfl⟩
  · exact nofun
  · exact nofun

/-- A deal takes its cards from the front of a pile, and then hands them out. -/
lemma exec_deal_from {sourceRef : PileRef} (hs : eval env call scope source w = .ok (.pile sourceRef, w₁))
    (ht : eval env call scope target w₁ = .ok (.pile (.everyPlayer name), w₂))
    (hl : locate sourceRef source.pos w₂ = .ok (place, w₂)) (fn : String) (amount : Amount) (pos : Pos) :
    exec env call fn scope (.transfer source target amount pos) w = (do
      let dealt ← takeFrom sourceRef place (amountTaken amount w₂.table.players (w₂.table.pile place).length) pos
      dealFrom name target.pos 0 dealt
      pure none) w₂ := by
  have hpile : pileAt place w₂ = .ok (w₂.table.pile place, w₂) := rfl
  have htable : Run.table w₂ = .ok (w₂.table, w₂) := rfl
  rw [exec, bind_transfer hs ht hl, transferBetween]
  simp only [bind_assoc]
  rw [bind_of_ok hpile, bind_of_ok htable]

/-- A counted deal takes its cards from the front of a pile, and then hands them out. -/
lemma exec_deal (hs : eval env call scope source w = .ok (.pile (.shared src), w₁))
    (ht : eval env call scope target w₁ = .ok (.pile (.everyPlayer name), w₂))
    (hplace : w₂.table.sharedPlace? src = some place) (fn : String) (n : Int) (pos : Pos) :
    exec env call fn scope (.transfer source target (.count n) pos) w = (do
      let dealt ← takeFrom (.shared src) place (wrap (n * w₂.table.players)) pos
      dealFrom name target.pos 0 dealt
      pure none) w₂ :=
  exec_deal_from hs ht (locate_shared hplace) fn (.count n) pos

/-- So many cards have been dealt: they are gone from the front of a pile, the stacks of the players have grown by their
shares of them, and no other pile has changed. -/
structure Dealt (place : Place) (name : String) (need : Nat) (t t' : Table) : Prop where
  rest : t'.pile place = (t.pile place).drop need
  shares : ∀ seat < t.players, t'.pile (.seat seat name) =
    t.pile (.seat seat name) ++ share t.players seat 0 ((t.pile place).take need)
  others : ∀ q, q ≠ place → (∀ seat < t.players, q ≠ .seat seat name) → t'.pile q = t.pile q

/-- Cards that have been taken from the front of a pile can be handed out, if there are players to get them. -/
lemma dealFrom_dealt {need : Nat} {t : Table} {moves : Option (List String)} (hplace : t.sharedPlace? src = some place)
    (hall : ∀ seat < t.players, .seat seat name ∈ t.places) (hp : t.players = 0 → need = 0) (pos : Pos) :
    ∃ t', dealFrom name pos 0 ((t.pile place).take need) ⟨t.put ((t.pile place).drop need) place, moves⟩ =
      .ok ((), ⟨t', moves⟩) ∧ Dealt place name need t t' := by
  let left : Work := ⟨t.put ((t.pile place).drop need) place, moves⟩
  have hplayers : left.table.players = t.players := Table.players_put ..
  have hplaces : left.table.places = t.places := Table.places_put ..
  have hall' : ∀ seat < left.table.players, .seat seat name ∈ left.table.places := by
    rw [hplayers, hplaces]
    exact hall
  have hcards : (t.pile place).take need ≠ [] → 0 < left.table.players := by
    rw [hplayers]
    intro hne
    refine Nat.pos_of_ne_zero fun hzero => hne ?_
    rw [hp hzero, List.take_zero]
  obtain ⟨t', hdeal, hshares, hothers⟩ := dealFrom_handedOut hall' hcards
  refine ⟨t', hdeal, ?_, ?_, ?_⟩
  · rw [hothers place fun seat _ => ne_seat_of_sharedPlace? hplace seat]
    exact Table.pile_put_self (Table.mem_places_of_sharedPlace? hplace) _
  · intro seat hseat
    rw [hshares seat (hplayers ▸ hseat), hplayers]
    exact congrArg (· ++ _) (Table.pile_put_ne (ne_seat_of_sharedPlace? hplace seat).symm _)
  · intro q hq hseats
    rw [hothers q (by rw [hplayers]; exact hseats)]
    exact Table.pile_put_ne hq _

/-- Cards that go around the table a whole number of times give every seat so many. -/
lemma length_share_mul {players seat rounds : Nat} (hs : seat < players) {cs : List Card}
    (h : cs.length = rounds * players) : (share players seat 0 cs).length = rounds := by
  rw [length_share hs, h, Nat.mul_div_cancel _ (Nat.zero_lt_of_lt hs), Nat.mul_mod_left,
    if_neg (Nat.not_lt_zero _), Nat.add_zero]

/-- A deal of `n` cards to every player from the deck or a shared stack. What it needs is the product of `n` and the
number of players, as a word. It succeeds if and only if what it needs is not negative and the pile holds it; then the
pile loses so many cards from its front, the stack of every player grows by its share of them, and no other pile
changes; otherwise there are too few cards. If the product is a word, it is what the deal needs, and a share is `n`
cards. -/
theorem counted_deal (hs : eval env call scope source w = .ok (.pile (.shared src), w₁))
    (ht : eval env call scope target w₁ = .ok (.pile (.everyPlayer name), w₂))
    (hplace : w₂.table.sharedPlace? src = some place)
    (hall : ∀ seat < w₂.table.players, .seat seat name ∈ w₂.table.places) (fn : String) (n : Int) (pos : Pos) :
    let t := w₂.table
    let held := t.pile place
    let need := wrap (n * t.players)
    let deal := exec env call fn scope (.transfer source target (.count n) pos) w
    (0 ≤ need ∧ need ≤ held.length →
      ∃ t', deal = .ok (none, ⟨t', w₂.moves⟩) ∧ Dealt place name need.toNat t t') ∧
      (¬(0 ≤ need ∧ need ≤ held.length) → deal = .error (.tooFewCards src need held.length pos)) ∧
      (0 ≤ n → IsWord (n * t.players) →
        ((∃ r, deal = .ok r) ↔ n * t.players ≤ held.length) ∧
        (∀ r w', deal = .ok (r, w') → ∀ seat < t.players,
          ∃ cs, (cs.length : Int) = n ∧ w'.table.pile (.seat seat name) = t.pile (.seat seat name) ++ cs) ∧
        (held.length < n * t.players → deal = .error (.tooFewCards src (n * t.players) held.length pos))) := by
  intro t held need deal
  have hdeal := exec_deal hs ht hplace fn n pos
  have henough : 0 ≤ need ∧ need ≤ held.length →
      ∃ t', deal = .ok (none, ⟨t', w₂.moves⟩) ∧ Dealt place name need.toNat t t' := by
    intro h
    -- without players nothing is needed, and nobody has to be dealt to
    have hnone : t.players = 0 → need.toNat = 0 := by
      intro hzero
      show (wrap (n * t.players)).toNat = 0
      rw [hzero, Int.ofNat_zero, Int.mul_zero]
      rfl
    obtain ⟨t', hout, hdealt⟩ := dealFrom_dealt hplace hall hnone target.pos
    refine ⟨t', ?_, hdealt⟩
    show exec env call fn scope (.transfer source target (.count n) pos) w = _
    rw [hdeal, bind_of_ok (takeFrom_enough h), bind_of_ok hout]
    rfl
  have hfew : ¬(0 ≤ need ∧ need ≤ held.length) → deal = .error (.tooFewCards src need held.length pos) := by
    intro h
    exact hdeal.trans (bind_of_error (takeFrom_tooFew h))
  refine ⟨henough, hfew, ?_⟩
  intro hn hword
  -- from here on the product is a word, and what is needed is the product itself
  have hneed : need = n * t.players := wrap_of_isWord hword
  have hpos : 0 ≤ need := by
    rw [hneed]
    exact Int.mul_nonneg hn (Int.natCast_nonneg _)
  rw [← hneed]
  have hholds : ∀ r, deal = .ok r → need ≤ held.length := by
    intro r hr
    by_contra hlt
    rw [hfew fun h => hlt h.2] at hr
    cases hr
  refine ⟨⟨fun ⟨r, hr⟩ => hholds r hr, ?_⟩, ?_, fun hlt => hfew fun h => absurd h.2 (Int.not_le.mpr hlt)⟩
  · intro hle
    obtain ⟨t', hout, _⟩ := henough ⟨hpos, hle⟩
    exact ⟨_, hout⟩
  · intro r w' hr seat hseat
    have hle := hholds _ hr
    obtain ⟨t', hout, hdealt⟩ := henough ⟨hpos, hle⟩
    rw [hout] at hr
    cases hr
    refine ⟨_, ?_, hdealt.shares seat hseat⟩
    have hlength : (held.take need.toNat).length = n.toNat * t.players := by
      zify
      rw [List.length_take_of_le (by omega), Int.toNat_of_nonneg hpos, Int.toNat_of_nonneg hn, hneed]
    rw [length_share_mul hseat hlength, Int.toNat_of_nonneg hn]

/-- The deck is dealt to four players, thirteen cards to each; there are too few cards for fourteen. -/
theorem whole_deck_dealt :
    let t : Table := ⟨Card.standardDeck, [], List.replicate 4 [("hand", [])], 0, [], false, false, 52, .ofSeeds 1 1⟩
    let env : Env := ⟨⟨"whist", .name "StandardDeck" .start, 4, 1, [], ["hand"], []⟩, {}⟩
    let call := invoke env (enter env 1)
    let target : Expr := .field (.name "players" .start) "hand" .start
    let deal := fun n => exec env call "deal" [] (.transfer (.name "deck" .start) target (.count n) .start) ⟨t, none⟩
    (∃ t', deal 13 = .ok (none, ⟨t', none⟩) ∧
      ∀ seat < 4, ∃ cs, (cs.length : Int) = 13 ∧ t'.pile (.seat seat "hand") = t.pile (.seat seat "hand") ++ cs) ∧
    deal 14 = .error (.tooFewCards "deck" 56 52 .start) := by
  intro t env call target deal
  have hs : eval env call [] (.name "deck" .start) ⟨t, none⟩ = .ok (.pile (.shared "deck"), ⟨t, none⟩) := rfl
  have ht : eval env call [] target ⟨t, none⟩ = .ok (.pile (.everyPlayer "hand"), ⟨t, none⟩) := rfl
  have hall : ∀ seat < t.players, .seat seat "hand" ∈ t.places := by decide +kernel
  have hdeal := counted_deal hs ht rfl hall "deal"
  obtain ⟨henough, _, hword⟩ := hdeal 13 .start
  obtain ⟨t', hout, _⟩ := henough (by decide +kernel)
  refine ⟨⟨t', hout, (hword (by decide) (by decide)).2.1 _ _ hout⟩, ?_⟩
  have hneed : wrap (14 * t.players) = 56 := by decide
  have hheld : (t.pile .deck).length = 52 := Card.length_standardDeck
  have hfails := (hdeal 14 .start).2.1 (by decide +kernel)
  rw [hneed, hheld] at hfails
  exact hfails

/-- A program that deals far more cards than there are to each of four players. -/
def avalanche : String := "name avalanche deck StandardDeck players 4 stack player:hand
  .(2 to the 62 and one) def deal()\x7b deck > players:hand 4611686018427387905 \x7d"

/-- Four times the number of cards to be dealt is 4 as a word: every player gets one card, and the deal succeeds. -/
theorem avalanche_deals_one_card_each :
    ∃ p t fn, Program.ofSource avalanche.toList = .ok p ∧ p.newTable defaultDepth 1 = .ok t ∧
      p.function? "deal" = some fn ∧ t.deck = Card.standardDeck ∧ t.players = 4 ∧
      p.execute defaultDepth fn t {} = .ok (.committed
        { t with deck := t.deck.drop 4, seats := (t.deck.take 4).map fun c => [("hand", [c])] } .empty none) := by
  have h : (Program.ofSource avalanche.toList).toOption.any (fun p => (p.newTable defaultDepth 1).toOption.any fun t =>
      (p.function? "deal").any fun fn => t.deck = Card.standardDeck ∧ t.players = 4 ∧
        (p.execute defaultDepth fn t {}).toOption = some (.committed
          { t with deck := t.deck.drop 4, seats := (t.deck.take 4).map fun c => [("hand", [c])] } .empty none)) =
      true := by
    rw [avalanche, String.toList_ofList]
    decide +kernel
  obtain ⟨p, hp, h⟩ := exists_of_any h
  obtain ⟨t, ht, h⟩ := exists_of_any h
  obtain ⟨fn, hfn, h⟩ := (Option.any_eq_true ..).mp h
  obtain ⟨hdeck, hplayers, hout⟩ := of_decide_eq_true h
  exact ⟨p, t, fn, hp, ht, hfn, hdeck, hplayers, toOption_eq_some.mp hout⟩

end Croupier.Run
