import Croupier.Proofs.Run.Eval
import Croupier.Proofs.Table.Layout

/-!
# The deck of a program

Whatever expression declares a deck, and whatever functions run while it is evaluated, the deck is a part of the standard
deck in its order (`buildDeck_sublist`). It is evaluated on a table without cards and without a move, so the only cards
that it can get hold of are those of the standard deck, and the only thing it can do with them is to leave some out.
-/

namespace Croupier

open Run

/-- A table without cards. -/
def Table.Bare (t : Table) : Prop := ∀ p, t.pile p = []

/-- To put no cards somewhere leaves a table without cards. -/
lemma Table.Bare.put {t : Table} (h : t.Bare) {p : Place} (hp : p ∈ t.places) : (t.put [] p).Bare := by
  intro p'
  by_cases he : p' = p
  · rw [he, pile_put_self hp]
  · rw [pile_put_ne he, h]

/-- A step cannot bring cards to a table without cards. -/
lemma Table.Step.bare {t t' : Table} (st : Step t t') (h : t.Bare) : t'.Bare := by
  cases st with
  | @transfer source target taken rest hs ht hp =>
    rw [h source] at hp
    obtain ⟨rfl, rfl⟩ := List.append_eq_nil_iff.mp hp.eq_nil
    have hb : (t.put [] source).Bare := h.put hs
    rw [push, hb target]
    exact hb.put (by simpa using ht)
  | @shuffle p hp =>
    have hs : (t.generator.shuffle (t.pile p)).1 = [] := by
      have hperm := Generator.shuffle_perm (t.pile p) t.generator
      exact (hperm.trans (.of_eq (h p))).eq_nil
    intro p'
    exact (congrArg (fun q => (t.put q p).pile p') hs).trans (h.put hp p')
  | finish => exact h
  | win hw =>
    rcases win?_eq_some hw with rfl | ⟨seat, _, _, rfl⟩
    · exact h
    · exact h
  | pass => exact h

/-- While a deck is evaluated there are no cards on the table and there is no move, and every value stands for a part of
the standard deck in its order. -/
def Run.Law.deck : Law := ⟨Table.Bare, (·.Sublist Card.standardDeck), fun _ => False⟩

/-- The law of decks is sound. -/
lemma Run.Law.deck_sound : Law.deck.Sound where
  step st h := st.bare h
  pile {t p} h := by
    rw [h p]
    exact List.nil_sublist _
  standardDeck := .refl _
  sublist h h' := h.trans h'
  moveCards h := h.elim
  moveTarget h := h.elim

namespace Program

/-- A deck that is evaluated on a table without cards is a part of the standard deck in its order. -/
lemma buildDeck_sublist {p : Program} {depth : Nat} {t : Table} {deck : Pile} (ht : t.Bare)
    (h : p.buildDeck depth t = .ok deck) : deck.Sublist Card.standardDeck := by
  have hcall : KeepsCalls Law.deck (invoke ⟨p, {}⟩ (enter ⟨p, {}⟩ depth)) :=
    invoke_keeps Law.deck_sound (enter_keeps Law.deck_sound (by simp) depth)
  have hkeeps : Keeps Law.deck Law.deck.cards (p.evalDeck depth) := by
    refine .bind Law.deck_sound .table fun t _ => ?_
    refine .bind Law.deck_sound (eval_keeps Law.deck_sound hcall (scope_lawful (by simp) (by simp)) p.deck) ?_
    exact fun v hv => cardsOf_keeps Law.deck_sound hcall hv
  unfold buildDeck at h
  cases hr : p.evalDeck depth ⟨t, none⟩ with
  | error f => simp [hr, Except.map] at h
  | ok r =>
    obtain ⟨cs, w⟩ := r
    simp only [hr, Except.map, Except.ok.injEq] at h
    subst h
    exact (hkeeps (w := ⟨t, none⟩) ht hr).2

/-- A new table comes from a deck that is a part of the standard deck in its order. -/
lemma newTable_ok {p : Program} {depth : Nat} {seed : UInt64} {t : Table} (h : p.newTable depth seed = .ok t) :
    ∃ empty deck, p.layTable [] seed = .ok empty ∧ p.buildDeck depth empty = .ok deck ∧
      p.layTable deck seed = .ok t ∧ deck.Sublist Card.standardDeck := by
  obtain ⟨empty, he, h⟩ := bind_eq_ok.mp h
  obtain ⟨deck, hd, h⟩ := bind_eq_ok.mp h
  rw [mapError_eq_ok] at he hd h
  have hb : empty.Bare := by
    intro p'
    by_cases hp : p' = .deck
    · obtain ⟨_, _, rfl⟩ := Table.lay_ok he
      rw [hp]
      rfl
    · exact Table.pile_of_lay he hp
  exact ⟨empty, deck, he, hd, h, buildDeck_sublist hb hd⟩

end Program

end Croupier
