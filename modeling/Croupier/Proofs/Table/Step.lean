import Mathlib.Logic.Relation
import Croupier.Proofs.Table.Conservation

/-!
# The steps of a table

The changes that a run can make to a table, one by one: cards go from a place to a place, a pile is shuffled, the game
is ended, a player wins, the turn is passed on. Whatever every step keeps, every number of steps keeps (`Steps.keeps`):
the places, the number of players and the number of cards at the start; the cards themselves, if no place is listed
twice (`Steps.cards_perm`); and that the players on turn and the winners have a seat (`Steps.seated`). That the runs of
a program make no other changes is shown for the evaluator as a whole.
-/

namespace Croupier.Table

/-- One change that a run makes to a table. -/
inductive Step : Table → Table → Prop where
  | transfer {t : Table} {source target : Place} {taken rest : Pile} (hs : source ∈ t.places)
      (ht : target ∈ t.places) (hp : (taken ++ rest).Perm (t.pile source)) :
      Step t ((t.put rest source).push taken target)
  | shuffle {t : Table} {p : Place} (hp : p ∈ t.places) : Step t (t.shuffle p)
  | finish {t : Table} : Step t { t with ended := true }
  | win {t t' : Table} {id : Int} (h : t.win? id = some t') : Step t t'
  | pass {t : Table} : Step t t.pass

/-- Any number of changes. -/
abbrev Steps : Table → Table → Prop := Relation.ReflTransGen Step

/-- What every step keeps, every number of steps keeps. -/
lemma Steps.keeps {P : Table → Prop} (hstep : ∀ {t t'}, Step t t' → P t → P t') {t t' : Table} (h : Steps t t')
    (hp : P t) : P t' := by
  induction h with
  | refl => exact hp
  | tail _ st ih => exact hstep st ih

/-- A player who wins is added to the winners, or has been one. -/
lemma win?_eq_some {t t' : Table} {id : Int} (h : t.win? id = some t') :
    t' = t ∨ ∃ seat, seat < t.players ∧ seat + 1 ∉ t.winners ∧ t' = { t with winners := t.winners ++ [seat + 1] } := by
  unfold win? at h
  obtain ⟨seat, hseat, h⟩ := Option.bind_eq_some_iff.mp h
  obtain ⟨_, hlt⟩ := seat?_eq_some_iff.mp hseat
  split at h
  · cases h
    exact .inl rfl
  · next hc =>
    cases h
    exact .inr ⟨seat, hlt, by simpa using hc, rfl⟩

/-- Two tables for one game: they have the same places and players, and started with the same number of cards. -/
structure SameLayout (t t' : Table) : Prop where
  places : t'.places = t.places
  players : t'.players = t.players
  initial : t'.initial = t.initial

/-- A table has its own layout. -/
lemma SameLayout.refl (t : Table) : SameLayout t t := ⟨rfl, rfl, rfl⟩

/-- The layout of a table is carried on from table to table. -/
lemma SameLayout.trans {t t' t'' : Table} (h : SameLayout t t') (h' : SameLayout t' t'') : SameLayout t t'' :=
  ⟨h'.places.trans h.places, h'.players.trans h.players, h'.initial.trans h.initial⟩

/-- A change at a place keeps the layout. -/
lemma SameLayout.put (t : Table) (q : Pile) (p : Place) : SameLayout t (t.put q p) :=
  ⟨places_put t q p, players_put t q p, initial_put t q p⟩

/-- Every step keeps the layout. -/
lemma Step.sameLayout {t t' : Table} (st : Step t t') : SameLayout t t' := by
  cases st with
  | transfer hs ht hp => exact (SameLayout.put ..).trans (SameLayout.put ..)
  | shuffle hp =>
    obtain ⟨places, players, initial⟩ := SameLayout.put t (t.generator.shuffle (t.pile _)).1 _
    exact ⟨places, players, initial⟩
  | finish => exact ⟨rfl, rfl, rfl⟩
  | win h =>
    rcases win?_eq_some h with rfl | ⟨seat, _, _, rfl⟩
    · exact .refl _
    · exact ⟨rfl, rfl, rfl⟩
  | pass => exact ⟨rfl, rfl, rfl⟩

/-- Any number of steps keeps the layout. -/
lemma Steps.sameLayout {t t' : Table} (h : Steps t t') : SameLayout t t' :=
  h.keeps (fun st ih => ih.trans st.sameLayout) (.refl t)

/-- A step keeps the cards if no place is listed twice. -/
lemma Step.cards_perm {t t' : Table} (st : Step t t') (hn : t.places.Nodup) : t'.cards.Perm t.cards := by
  cases st with
  | transfer hs ht hp => exact transfer_cards_perm hn hs ht hp
  | shuffle hp => exact put_cards_perm hn hp (Generator.shuffle_perm ..)
  | finish => exact .refl _
  | win h =>
    rcases win?_eq_some h with rfl | ⟨seat, _, _, rfl⟩
    · exact .refl _
    · exact .refl _
  | pass => exact .refl _

/-- Steps keep the cards. -/
lemma Steps.cards_perm {t t' : Table} (h : Steps t t') (hn : t.places.Nodup) : t'.cards.Perm t.cards := by
  induction h with
  | refl => exact .refl _
  | tail h st ih => exact (st.cards_perm ((Steps.sameLayout h).places ▸ hn)).trans ih

/-- The player on turn has a seat, and so has every winner; no winner is named twice. -/
structure Seated (t : Table) : Prop where
  current_lt : t.current < t.players
  winners_nodup : t.winners.Nodup
  winners_le : ∀ id ∈ t.winners, 1 ≤ id ∧ id ≤ t.players

/-- Whether players are seated depends on the players, the one on turn and the winners alone. -/
lemma Seated.congr {t t' : Table} (h : Seated t) (hp : t'.players = t.players) (hc : t'.current = t.current)
    (hw : t'.winners = t.winners) : Seated t' :=
  ⟨hp ▸ hc ▸ h.current_lt, hw ▸ h.winners_nodup, hp ▸ hw ▸ h.winners_le⟩

/-- A step that passes the turn on or names a winner chooses a player with a seat, and the others leave both alone. -/
lemma Step.seated {t t' : Table} (st : Step t t') (h : Seated t) : Seated t' := by
  cases st with
  | transfer hs ht hp => exact h.congr (by simp [push]) (by simp [push]) (by simp [push])
  | shuffle hp => exact h.congr (players_put ..) (current_put ..) (winners_put ..)
  | finish => exact h.congr rfl rfl rfl
  | win hw =>
    rcases win?_eq_some hw with rfl | ⟨seat, hlt, hnew, rfl⟩
    · exact h
    · refine ⟨h.current_lt, ?_, ?_⟩
      · exact List.nodup_append_comm.mp (List.nodup_cons.mpr ⟨hnew, h.winners_nodup⟩)
      · intro id hid
        rcases List.mem_append.mp hid with hid | hid
        · exact h.winners_le id hid
        · rw [List.mem_singleton.mp hid]
          exact ⟨by omega, hlt⟩
  | pass => exact ⟨Nat.mod_lt _ (Nat.zero_lt_of_lt h.current_lt), h.winners_nodup, h.winners_le⟩

/-- Any number of steps leaves the players seated. -/
lemma Steps.seated {t t' : Table} (h : Steps t t') (hs : Seated t) : Seated t' := h.keeps Step.seated hs

end Croupier.Table
