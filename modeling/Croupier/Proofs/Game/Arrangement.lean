import Croupier.Proofs.Game.Conservation
import Croupier.Proofs.Table.Arranged

/-!
# Arranging the table of a game

In every session no card lies twice on the table and the number of cards is right. So a game that waits for a move lets
its table be arranged if and only if the placements can be made (`arrange_iff_arrangeable`), and how the table lies then
depends on nothing but the piles before and the placements (`arrange_leaves_arranged`).
-/

namespace Croupier.Game

variable {source : List Char} {p : Program} {id : String} {o : GameOptions} {g : Game} {es : List Event}

/-- A game that waits for a move arranges its table and nothing else. -/
lemma arrange_of_awaiting {g : Game} (h : g.turn.phase = .awaitingMove) (ps : List Placement) :
    g.arrange ps = (g.table.arrange ps).map fun t => { g with table := t } := by
  rw [arrange]
  simp only [h]
  cases g.table.arrange ps with
  | error e => rfl
  | ok t => rfl

/-- A game that waits for a move lets its table be arranged if and only if every reference refers to a place, no two
refer to the same place, and the cards that are asked for are on the table as often as they are asked for. Otherwise
there is an error, and the game stays as it was. -/
theorem arrange_iff_arrangeable (hp : Program.ofSource source = .ok p) (h : start id p o = .ok (g, es))
    (rs : List Request) (hw : (g.after rs).turn.phase = .awaitingMove) (ps : List Placement) :
    ((∃ g', (g.after rs).arrange ps = .ok g') ↔ (g.after rs).table.Arrangeable ps) ∧
      (¬(g.after rs).table.Arrangeable ps → ∃ e, (g.after rs).arrange ps = .error e ∧
        (g.after rs).handle (.arrange ps) = ⟨.arranged (.error e), g.after rs⟩) := by
  obtain ⟨_, deck, _, _, _, hg⟩ := start_holds hp h
  have hholds := (holds_invariant deck).after (start_settled h) hg rs
  rw [← Table.exists_arrange_iff hholds.places_nodup hholds.total_eq, arrange_of_awaiting hw]
  cases ht : (g.after rs).table.arrange ps with
  | ok t =>
    refine ⟨⟨fun _ => ⟨t, rfl⟩, fun _ => ⟨_, rfl⟩⟩, ?_⟩
    intro hno
    exact absurd ⟨t, rfl⟩ hno
  | error e =>
    refine ⟨⟨nofun, nofun⟩, ?_⟩
    intro _
    refine ⟨e, rfl, handle_arrange_error ?_⟩
    rw [arrange_of_awaiting hw, ht]
    rfl

/-- The ace of the first player can be handed over; to name a hand twice is an error, however its player is written. -/
theorem duel_arrange_iff_arrangeable :
    ∃ p g es, Program.ofSource duel.toList = .ok p ∧ start p.name p {} = .ok (g, es) ∧
      g.turn.phase = .awaitingMove ∧ g.table.Arrangeable [⟨"2:hand", [Card.ofCodes 1 0]⟩] ∧
      ∃ e, g.handle (.arrange [⟨"1:hand", []⟩, ⟨"+01:hand", []⟩]) = ⟨.arranged (.error e), g⟩ := by
  have hg : (ofSource? duel.toList).any (fun g => g.turn.phase = .awaitingMove ∧
      (g.arrange [⟨"2:hand", [Card.ofCodes 1 0]⟩]).toOption.isSome ∧
      ¬(g.arrange [⟨"1:hand", []⟩, ⟨"+01:hand", []⟩]).toOption.isSome) = true := by
    rw [duel, String.toList_ofList]
    decide +kernel
  obtain ⟨p, g, es, hp, hs, hg⟩ := exists_of_ofSource? hg
  obtain ⟨hw, hgives, htwice⟩ := of_decide_eq_true hg
  rw [isSome_toOption] at hgives htwice
  have hiff := arrange_iff_arrangeable hp hs [] hw
  obtain ⟨e, _, herror⟩ := (hiff _).2 fun h => htwice ((hiff _).1.mpr h)
  exact ⟨p, g, es, hp, hs, hw, (hiff _).1.mp hgives, e, herror⟩

/-- If the table of a game can be arranged, it lies as the placements say, and nothing of the game but the piles of the
table has changed. -/
theorem arrange_leaves_arranged (hp : Program.ofSource source = .ok p) (h : start id p o = .ok (g, es))
    (rs : List Request) (ps : List Placement) {g' : Game} (ha : (g.after rs).arrange ps = .ok g') :
    (∃ emptied, (g.after rs).table.Arranged ps emptied g'.table) ∧ g'.turn = (g.after rs).turn ∧
      g'.moves = (g.after rs).moves ∧ g'.history = (g.after rs).history := by
  obtain ⟨_, deck, _, _, hsub, hg⟩ := start_holds hp h
  have hholds := (holds_invariant deck).after (start_settled h) hg rs
  have hcards : (g.after rs).table.cards.Nodup :=
    hholds.cards_perm.nodup_iff.mpr (hsub.nodup Card.nodup_standardDeck)
  obtain ⟨t, ht, rfl⟩ := arrange_ok ha
  exact ⟨Table.arrange_arranged hholds.places_nodup hcards ht, rfl, rfl, rfl⟩

/-- The second player gets a five and the ace of the first player, whose hand is left empty; the deck starts with the
two that the second player had, and then come the cards of the deck but for the five. -/
theorem duel_arrange_leaves_arranged :
    let ps := [⟨"+02:hand", [Card.ofCodes 5 1, Card.ofCodes 1 0]⟩, ⟨"deck", [Card.ofCodes 2 0]⟩]
    ∃ p g es g', Program.ofSource duel.toList = .ok p ∧ start p.name p {} = .ok (g, es) ∧ g.arrange ps = .ok g' ∧
      g.table.pile (.seat 0 "hand") = [Card.ofCodes 1 0] ∧ g.table.pile (.seat 1 "hand") = [Card.ofCodes 2 0] ∧
      g'.table.pile (.seat 0 "hand") = [] ∧
      g'.table.pile (.seat 1 "hand") = [Card.ofCodes 5 1, Card.ofCodes 1 0] ∧
      g'.table.deck = Card.ofCodes 2 0 :: Pile.without (Card.ofCodes 2 0 :: g.table.deck) (Table.requested ps) ∧
      g'.turn = g.turn := by
  intro ps
  have hg : (ofSource? duel.toList).any (fun g => (g.arrange ps).toOption.isSome ∧
      (g.table.find "+02:hand").toOption = some (.seat 1 "hand") ∧ (g.table.find "deck").toOption = some .deck ∧
      .seat 0 "hand" ∈ g.table.places ∧ g.table.pile (.seat 0 "hand") = [Card.ofCodes 1 0] ∧
      g.table.pile (.seat 1 "hand") = [Card.ofCodes 2 0]) = true := by
    rw [duel, String.toList_ofList]
    decide +kernel
  obtain ⟨p, g, es, hp, hs, hg⟩ := exists_of_ofSource? hg
  obtain ⟨hsome, hhand, hdeck, hmem, hfirst, hsecond⟩ := of_decide_eq_true hg
  rw [toOption_eq_some, Table.find_eq_ok_iff] at hhand hdeck
  obtain ⟨g', ha⟩ := isSome_toOption.mp hsome
  obtain ⟨⟨emptied, harranged⟩, hturn, _⟩ := arrange_leaves_arranged hp hs [] ps ha
  have hnamed : g.table.Names [⟨"+02:hand", [Card.ofCodes 5 1, Card.ofCodes 1 0]⟩, ⟨"deck", [Card.ofCodes 2 0]⟩]
      emptied := harranged.named
  obtain _ | ⟨hplace, _ | ⟨hplace', _ | _⟩⟩ := hnamed
  obtain rfl := hplace.eq hhand
  obtain rfl := hplace'.eq hdeck
  have hothers : ∀ q ∈ ps, ¬g.table.Refers q.ref (.seat 0 "hand") := by
    intro q hq hrefers
    rcases List.mem_cons.mp hq with rfl | hq
    · cases hrefers.eq hhand
    · rw [List.mem_singleton.mp hq] at hrefers
      cases hrefers.eq hdeck
  have hkept := harranged.kept _ hmem hothers (by decide)
  have hplaced := harranged.placed _ List.mem_cons_self _ hhand (by decide)
  have hown := harranged.deck_placed ⟨"deck", [Card.ofCodes 2 0]⟩ (List.mem_cons_of_mem _ List.mem_cons_self) hdeck
  have hemptied : [.seat 1 "hand", .deck].flatMap (g.after []).table.pile = Card.ofCodes 2 0 :: g.table.deck := by
    show g.table.pile (.seat 1 "hand") ++ (g.table.deck ++ []) = _
    rw [hsecond, List.append_nil]
    rfl
  rw [hemptied] at hown
  refine ⟨p, g, es, g', hp, hs, ha, hfirst, hsecond, ?_, hplaced, hown, hturn⟩
  rw [hkept]
  show Pile.without (g.table.pile (.seat 0 "hand")) (Table.requested ps) = []
  rw [hfirst]
  decide

end Croupier.Game
