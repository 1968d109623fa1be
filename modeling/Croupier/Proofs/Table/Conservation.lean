import Croupier.Proofs.Table.Places

/-!
# Counting the cards of a table

How often a card lies on a table. If no place is listed twice, a change at one place adds what is put there and takes
away what was there (`count_cards_put`), and nothing else; every law of conservation is a balance of such changes.
Shuffling a pile only changes its order (`shuffle_perm`).
-/

namespace Croupier

namespace Generator

/-- Swapping two members only changes the order. -/
lemma swapIfInBounds_perm {α : Type} (xs : Array α) (i j : Nat) : (xs.swapIfInBounds i j).toList.Perm xs.toList := by
  unfold Array.swapIfInBounds
  split
  · split
    · exact Array.perm_iff_toList_perm.mp (Array.swap_perm _ _)
    · exact .refl _
  · exact .refl _

/-- Every round of a shuffle swaps two members. -/
lemma shuffleFrom_perm {α : Type} (i : Nat) (xs : Array α) (g : Generator) :
    (shuffleFrom i xs g).1.toList.Perm xs.toList := by
  induction i generalizing xs g with
  | zero => exact .refl _
  | succ i ih => exact (ih _ _).trans (swapIfInBounds_perm xs _ _)

/-- A shuffle only changes the order. -/
lemma shuffle_perm {α : Type} (xs : List α) (g : Generator) : (g.shuffle xs).1.Perm xs :=
  shuffleFrom_perm (xs.length - 1) xs.toArray g

end Generator

namespace Table

/-- The number of cards on a table is the number of those that lie at its places. -/
lemma total_eq_length (t : Table) : t.total = t.cards.length := by
  unfold total cards
  induction t.places with
  | nil => rfl
  | cons p ps ih => rw [List.foldr_cons, ih, List.flatMap_cons, List.length_append]

/-- A change away from some places leaves their cards alone. -/
lemma flatMap_pile_put {t : Table} {p : Place} {ps : List Place} (hp : p ∉ ps) (q : Pile) :
    ps.flatMap (t.put q p).pile = ps.flatMap t.pile := by
  refine List.flatMap_congr fun p' hp' => pile_put_ne ?_ q
  rintro rfl
  exact hp hp'

/-- A change at one of some places adds what is put there and takes away what was there. -/
lemma count_flatMap_put {t : Table} {ps : List Place} (hn : ps.Nodup) {p : Place} (hp : p ∈ ps) (hm : p ∈ t.places)
    (q : Pile) (c : Card) :
    (ps.flatMap (t.put q p).pile).count c + (t.pile p).count c = (ps.flatMap t.pile).count c + q.count c := by
  -- the place is listed once, so the change touches neither the places before it nor those after it
  obtain ⟨before, after, rfl⟩ := List.append_of_mem hp
  have hb : p ∉ before := fun h => (List.nodup_append.mp hn).2.2 p h p (List.mem_cons_self ..) rfl
  have ha : p ∉ after := (List.nodup_cons.mp (List.nodup_append.mp hn).2.1).1
  rw [List.flatMap_append, List.flatMap_cons, flatMap_pile_put hb, flatMap_pile_put ha, pile_put_self hm,
    List.flatMap_append, List.flatMap_cons]
  simp only [List.count_append]
  omega

/-- A change at a place adds what is put there and takes away what was there. -/
lemma count_cards_put {t : Table} (hn : t.places.Nodup) {p : Place} (hp : p ∈ t.places) (q : Pile) (c : Card) :
    (t.put q p).cards.count c + (t.pile p).count c = t.cards.count c + q.count c := by
  rw [cards, places_put]
  exact count_flatMap_put hn hp hp q c

/-- Cards that are put on a pile are added. -/
lemma count_cards_push {t : Table} (hn : t.places.Nodup) {p : Place} (hp : p ∈ t.places) (cs : List Card) (c : Card) :
    (t.push cs p).cards.count c = t.cards.count c + cs.count c := by
  have h := count_cards_put hn hp (t.pile p ++ cs) c
  rw [List.count_append] at h
  unfold push
  omega

/-- Cards that go from one place to another are neither lost nor doubled. -/
lemma transfer_cards_perm {t : Table} (hn : t.places.Nodup) {source target : Place} (hs : source ∈ t.places)
    (ht : target ∈ t.places) {taken rest : Pile} (h : (taken ++ rest).Perm (t.pile source)) :
    ((t.put rest source).push taken target).cards.Perm t.cards := by
  refine List.perm_iff_count.mpr fun c => ?_
  have hput := count_cards_put hn hs rest c
  have hpush := count_cards_push (t := t.put rest source) (by simpa using hn) (by simpa using ht) taken c
  have hcount := h.count_eq c
  rw [List.count_append] at hcount
  omega

/-- A pile that is put in another order holds the same cards. -/
lemma put_cards_perm {t : Table} (hn : t.places.Nodup) {p : Place} (hp : p ∈ t.places) {q : Pile}
    (h : q.Perm (t.pile p)) : (t.put q p).cards.Perm t.cards := by
  refine List.perm_iff_count.mpr fun c => ?_
  have hput := count_cards_put hn hp q c
  have hcount := h.count_eq c
  omega

end Table

end Croupier
