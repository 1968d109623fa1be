import Croupier.Proofs.Game.Session
import Croupier.Proofs.Program.Declarations

/-!
# The cards of a game

Whatever is requested of a game, its places hold the cards of its deck, each once (`Table.Holds`). So no card is lost,
doubled or brought in, and the check that the number of cards has not changed never fails.
-/

namespace Croupier

/-- No place is listed twice, and the places hold the cards of a deck. -/
structure Table.Holds (deck : List Card) (t : Table) : Prop where
  places_nodup : t.places.Nodup
  cards_perm : t.cards.Perm deck
  initial_eq : t.initial = deck.length

variable {deck : List Card}

namespace Table.Holds

/-- On a table that holds the cards of a deck their number is right. -/
lemma total_eq {t : Table} (h : Holds deck t) : t.total = t.initial := by
  rw [total_eq_length, h.cards_perm.length_eq, h.initial_eq]

/-- Steps keep the cards of a deck. -/
lemma steps {t t' : Table} (h : Holds deck t) (hs : Steps t t') : Holds deck t' := by
  obtain ⟨places, _, initial⟩ := hs.sameLayout
  exact ⟨places ▸ h.places_nodup, (hs.cards_perm h.places_nodup).trans h.cards_perm, initial.trans h.initial_eq⟩

/-- An arrangement keeps the cards of a deck. -/
lemma arrange {t t' : Table} {ps : List Placement} (h : Holds deck t) (ha : t.arrange ps = .ok t') :
    Holds deck t' := by
  obtain ⟨hr, hperm⟩ := arrange_ok h.places_nodup ha
  exact ⟨hr.places ▸ h.places_nodup, hperm.trans h.cards_perm, hr.initial.trans h.initial_eq⟩

/-- The cards of a table depend on the piles only. -/
lemma withTurn {t : Table} (h : Holds deck t) (passed : Bool) (current : Nat) :
    Holds deck { t with passed := passed, current := current } :=
  ⟨h.places_nodup, h.cards_perm, h.initial_eq⟩

/-- A new table of a program that was read holds the cards of its deck. -/
lemma of_newTable {source : List Char} {p : Program} {depth : Nat} {seed : UInt64} {t : Table}
    (hp : Program.ofSource source = .ok p) (h : p.newTable depth seed = .ok t) :
    ∃ empty deck, p.layTable [] seed = .ok empty ∧ p.buildDeck depth empty = .ok deck ∧
      deck.Sublist Card.standardDeck ∧ Holds deck t := by
  obtain ⟨empty, deck, he, hd, hl, hsub⟩ := Program.newTable_ok h
  obtain ⟨hshared, hseats, _⟩ := List.nodup_append.mp (Program.stacks_nodup hp)
  refine ⟨empty, deck, he, hd, hsub, places_nodup_of_lay hl hshared hseats, ?_, ?_⟩
  · rw [cards_of_lay hl]
  · obtain ⟨_, _, rfl⟩ := lay_ok hl
    rfl

end Table.Holds

namespace Game

/-- Commits and arrangements keep the cards of a deck. -/
lemma holds_invariant (deck : List Card) : Invariant fun g => g.table.Holds deck where
  commit h hc := by
    cases hc with
    | intro moves steps next => exact (h.steps steps).withTurn _ _
  arrange h ht := h.arrange ht

/-- To carry out an action does not count the cards. -/
lemma act_ne_conservation (g : Game) (m : Move) (t : Table) (moves : List String) :
    g.act m t moves ≠ .error .conservation := by
  unfold act
  split
  · exact nofun
  · refine bind_ne_error (mapError_ne_error nofun _) ?_
    intro outcome _
    cases outcome with
    | committed t v declared => exact nofun
    | rejected r => exact nofun

/-- To put a move to the program does not count the cards. -/
lemma resolve_ne_conservation (g : Game) (m : Move) : g.resolve m ≠ .error .conservation := by
  unfold resolve
  split
  · exact nofun
  · refine bind_ne_error (mapError_ne_error nofun _) ?_
    intro outcome _
    cases outcome with
    | rejected r => exact nofun
    | committed t v declared =>
      simp only
      split
      · exact act_ne_conservation g m t _
      · exact nofun

/-- To ask whether the game is over does not count the cards. -/
lemma isOver_ne_conservation (g : Game) (m : Move) (t : Table) : g.isOver m t ≠ .error .conservation := by
  unfold isOver
  split
  · exact nofun
  · refine bind_ne_error (mapError_ne_error nofun _) ?_
    intro outcome _
    split <;> exact nofun

/-- To resolve a move of a table that holds the cards of a deck does not lose one. -/
lemma play_ne_conservation {g : Game} (h : g.table.Holds deck) (m : Move) : g.play m ≠ .error .conservation := by
  refine bind_ne_error (resolve_ne_conservation g m) ?_
  intro resolution hr
  cases resolution with
  | rejected r => exact nofun
  | accepted t moves =>
    refine bind_ne_error (isOver_ne_conservation g m t) ?_
    intro finished _
    -- the cards are counted after the steps of the functions, before the turn goes on
    have htotal : t.total = t.initial := (h.steps (resolve_steps hr)).total_eq
    simp only [htotal, ne_eq, not_true_eq_false, if_false]
    exact bind_ne_error (mapError_ne_error nofun _) fun turn _ => nofun

/-- No move that is submitted finds that cards are lost. -/
lemma submit_ne_conservation {g : Game} (hs : g.Settled) (h : g.table.Holds deck) (m : Move) :
    (g.submit m).reply ≠ .error .conservation := by
  rcases hs with hp | hp
  · rw [submit_eq hp]
    cases hplay : g.resolving.play m with
    | ok out => exact nofun
    | error e =>
      intro he
      cases he
      have hr : g.resolving.table.Holds deck := h
      exact play_ne_conservation hr m hplay
  · rw [submit_ended hp]
    exact nofun

/-- No arrangement finds that cards are lost. -/
lemma arrange_ne_conservation {g : Game} (h : g.table.Holds deck) (ps : List Placement) :
    g.arrange ps ≠ .error .conservation := by
  unfold arrange
  split
  · exact nofun
  · exact nofun
  · exact bind_ne_error (Table.arrange_ne_conservation h.places_nodup h.total_eq ps) fun t _ => nofun

/-- The setup does not count the cards. -/
lemma setup_ne_conservation (p : Program) (depth : Nat) (t : Table) : setup p depth t ≠ .error .conservation := by
  unfold setup
  split
  · exact nofun
  · refine bind_ne_error (mapError_ne_error nofun _) ?_
    intro outcome _
    cases outcome with
    | committed t v moves => exact nofun
    | rejected r => exact nofun

/-- No game of a program that was read loses cards before it starts. -/
lemma start_ne_conservation {source : List Char} {p : Program} (hp : Program.ofSource source = .ok p) (id : String)
    (o : GameOptions) : start id p o ≠ .error .conservation := by
  refine bind_ne_error (mapError_ne_error nofun _) ?_
  intro laid hl
  refine bind_ne_error (setup_ne_conservation p _ laid) ?_
  intro t ht
  obtain ⟨_, deck, _, _, _, hholds⟩ := Table.Holds.of_newTable hp (mapError_eq_ok.mp hl)
  have htotal : t.total = t.initial := (hholds.steps (setup_steps ht)).total_eq
  simp only [htotal, ne_eq, not_true_eq_false, if_false]
  exact bind_ne_error (mapError_ne_error nofun _) fun turn _ => nofun

/-- A game starts with the cards of its deck, which are standard cards in their order. -/
lemma start_holds {source : List Char} {p : Program} {id : String} {o : GameOptions} {g : Game} {es : List Event}
    (hp : Program.ofSource source = .ok p) (h : start id p o = .ok (g, es)) :
    ∃ empty deck, p.layTable [] o.seed = .ok empty ∧ p.buildDeck (depthLimit o.maxDepth) empty = .ok deck ∧
      deck.Sublist Card.standardDeck ∧ g.table.Holds deck := by
  obtain ⟨laid, t, hl, hs, rfl⟩ := start_ok h
  obtain ⟨empty, deck, he, hd, hsub, hholds⟩ := Table.Holds.of_newTable hp hl
  exact ⟨empty, deck, he, hd, hsub, (hholds.steps hs).withTurn _ _⟩

/-- In every session of a program that was read, the places of the table hold the cards of its deck, which are standard
cards in their order. So no card is there twice, none is foreign, the number of cards stays, and the check of that
number does not fail. -/
theorem cards_conserved {source : List Char} {p : Program} (hp : Program.ofSource source = .ok p) (id : String)
    (o : GameOptions) :
    start id p o ≠ .error .conservation ∧
      ∀ g es, start id p o = .ok (g, es) →
        ∃ empty deck, p.layTable [] o.seed = .ok empty ∧ p.buildDeck (depthLimit o.maxDepth) empty = .ok deck ∧
          deck.Sublist Card.standardDeck ∧
          ∀ rs : List Request,
            (g.after rs).table.cards.Perm deck ∧
            (g.after rs).table.cards.Nodup ∧
            (∀ c ∈ (g.after rs).table.cards, c ∈ Card.standardDeck) ∧
            (g.after rs).table.total = (g.after rs).table.initial ∧
            (∀ m, ((g.after rs).submit m).reply ≠ .error .conservation) ∧
            ∀ ps, (g.after rs).arrange ps ≠ .error .conservation := by
  refine ⟨start_ne_conservation hp id o, ?_⟩
  intro g es h
  obtain ⟨empty, deck, he, hd, hsub, hg⟩ := start_holds hp h
  refine ⟨empty, deck, he, hd, hsub, ?_⟩
  intro rs
  have hs := after_settled (start_settled h) rs
  have hrs := (holds_invariant deck).after (start_settled h) hg rs
  refine ⟨hrs.cards_perm, ?_, ?_, hrs.total_eq, submit_ne_conservation hs hrs, arrange_ne_conservation hrs⟩
  · exact hrs.cards_perm.nodup_iff.mpr (hsub.nodup Card.nodup_standardDeck)
  · intro c hc
    exact hsub.subset (hrs.cards_perm.subset hc)

/-- A card dropped, and a pile emptied into the deck: the cards are those of the deck. -/
theorem duel_cards_conserved :
    ∃ p g es deck, Program.ofSource duel.toList = .ok p ∧ start p.name p {} = .ok (g, es) ∧
      deck.Sublist Card.standardDeck ∧
      (g.after [.submit ⟨0, "drop", [], []⟩, .arrange [⟨"pile", []⟩]]).table.cards.Perm deck := by
  have hg : (ofSource? duel.toList).any (·.isEnded == false) = true := by
    rw [duel, String.toList_ofList]
    decide +kernel
  obtain ⟨p, g, es, hp, hs, _⟩ := exists_of_ofSource? hg
  obtain ⟨_, deck, _, _, hsub, hrs⟩ := (cards_conserved hp p.name {}).2 g es hs
  exact ⟨p, g, es, deck, hp, hs, hsub, (hrs _).1⟩

end Game

end Croupier
