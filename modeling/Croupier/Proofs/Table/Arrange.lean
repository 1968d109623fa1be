import Croupier.Game.Arrange
import Croupier.Proofs.Except
import Croupier.Proofs.Pile.Removal
import Croupier.Proofs.Table.Reference
import Croupier.Proofs.Table.Step

/-!
# Arranging loses no card

While a table is arranged some cards are loose: they have been taken from the places that are to be filled. Every move
of the arrangement is a balance between the table and the loose cards (`Balanced`): to clear a place makes its cards
loose, to place a card takes it from the loose cards or from another place. The cards that all placements ask for are
placed one after another (`Filling`), so what one card keeps the whole filling keeps. At the end the loose cards go to
the deck, and the table holds the cards that it held before (`arrange_ok`); only its piles have changed.
-/

namespace Croupier.Table

/-- Tables that differ in their piles only. -/
structure Rearranged (t t' : Table) : Prop extends SameLayout t t' where
  current : t'.current = t.current
  winners : t'.winners = t.winners
  ended : t'.ended = t.ended
  passed : t'.passed = t.passed
  generator : t'.generator = t.generator

/-- A change at a place changes nothing but a pile. -/
lemma Rearranged.put (t : Table) (q : Pile) (p : Place) : Rearranged t (t.put q p) :=
  { SameLayout.put t q p with
    current := current_put t q p
    winners := winners_put t q p
    ended := ended_put t q p
    passed := passed_put t q p
    generator := generator_put t q p }

/-- A table differs from itself in no pile. -/
lemma Rearranged.refl (t : Table) : Rearranged t t := { SameLayout.refl t with
  current := rfl
  winners := rfl
  ended := rfl
  passed := rfl
  generator := rfl }

/-- Tables that differ in their piles only do so across a third. -/
lemma Rearranged.trans {t t' t'' : Table} (h : Rearranged t t') (h' : Rearranged t' t'') : Rearranged t t'' :=
  { h.toSameLayout.trans h'.toSameLayout with
    current := h'.current.trans h.current
    winners := h'.winners.trans h.winners
    ended := h'.ended.trans h.ended
    passed := h'.passed.trans h.passed
    generator := h'.generator.trans h.generator }

/-- A rearrangement after which the table and the loose cards hold together what they held before. -/
structure Balanced (t : Table) (loose : List Card) (t' : Table) (loose' : List Card) : Prop
    extends Rearranged t t' where
  cards_perm : (t'.cards ++ loose').Perm (t.cards ++ loose)

/-- If nothing is loose before and after, the number of cards stays right. -/
lemma Balanced.total_eq {t t' : Table} (h : Balanced t [] t' []) (ht : t.total = t.initial) :
    t'.total = t'.initial := by
  have hlen := h.cards_perm.length_eq
  rw [List.append_nil, List.append_nil, ← total_eq_length, ← total_eq_length] at hlen
  rw [hlen, ht, h.initial]

/-- Nothing is lost where nothing is done. -/
lemma Balanced.refl (t : Table) (loose : List Card) : Balanced t loose t loose := ⟨.refl t, .refl _⟩

/-- Two moves that keep the balance keep it one after the other. -/
lemma Balanced.trans {t t' t'' : Table} {loose loose' loose'' : List Card} (h : Balanced t loose t' loose')
    (h' : Balanced t' loose' t'' loose'') : Balanced t loose t'' loose'' :=
  ⟨h.toRearranged.trans h'.toRearranged, h'.cards_perm.trans h.cards_perm⟩

/-- Placements name places: each refers to the place that stands where it stands. -/
inductive Names (t : Table) : List Placement → List Place → Prop where
  | nil : Names t [] []
  | cons {q : Placement} {place : Place} {ps : List Placement} {places : List Place} : t.Refers q.ref place →
      Names t ps places → Names t (q :: ps) (place :: places)

/-- The places that are to be filled are those that the placements refer to, and none is named twice. -/
lemma targets_eq_ok_iff {t : Table} {seen places : List Place} {ps : List Placement} (hn : seen.Nodup) :
    t.targets seen ps = .ok places ↔
      ∃ named, t.Names ps named ∧ places = seen ++ named ∧ places.Nodup := by
  induction ps generalizing seen with
  | nil =>
    rw [targets, Except.ok.injEq]
    constructor
    · rintro rfl
      exact ⟨[], .nil, (List.append_nil seen).symm, hn⟩
    · rintro ⟨_, ⟨⟩, rfl, _⟩
      exact (List.append_nil seen).symm
  | cons q ps ih =>
    rw [targets, bind_eq_ok]
    constructor
    · rintro ⟨place, hplace, h⟩
      rw [mapError_eq_ok, find_eq_ok_iff] at hplace
      split at h
      · cases h
      · next hnew =>
        have hn' : (seen ++ [place]).Nodup :=
          List.nodup_append_comm.mp (List.nodup_cons.mpr ⟨by simpa using hnew, hn⟩)
        obtain ⟨named, hnamed, rfl, hnodup⟩ := (ih hn').mp h
        exact ⟨place :: named, .cons hplace hnamed, by simp, hnodup⟩
    · rintro ⟨_, hnamed, rfl, hnodup⟩
      cases hnamed with
      | @cons _ place _ named hplace hnamed =>
        have happ : seen ++ place :: named = (seen ++ [place]) ++ named := by simp
        rw [happ] at hnodup
        have hn' : (seen ++ [place]).Nodup := (List.nodup_append.mp hnodup).1
        have hnew : place ∉ seen := fun h => (List.nodup_append.mp hn').2.2 place h place (by simp) rfl
        refine ⟨place, mapError_eq_ok.mpr (find_eq_ok_iff.mpr hplace), ?_⟩
        rw [if_neg (by simpa using hnew)]
        exact (ih hn').mpr ⟨named, hnamed, happ, happ ▸ hnodup⟩

/-- A place that placements name is named by one of them. -/
lemma Names.exists_refers {t : Table} {ps : List Placement} {places : List Place} (h : t.Names ps places)
    {place : Place} (hp : place ∈ places) : ∃ q ∈ ps, t.Refers q.ref place := by
  induction h with
  | nil => cases hp
  | cons hrefers _ ih =>
    rcases List.mem_cons.mp hp with rfl | hp
    · exact ⟨_, List.mem_cons_self .., hrefers⟩
    · obtain ⟨q, hq, hrefers⟩ := ih hp
      exact ⟨q, List.mem_cons_of_mem _ hq, hrefers⟩

/-- There is one place for each placement. -/
lemma Names.length_eq {t : Table} {ps : List Placement} {places : List Place} (h : t.Names ps places) :
    ps.length = places.length := by
  induction h with
  | nil => rfl
  | cons _ _ ih => exact congrArg (· + 1) ih

/-- The places that placements name are on the table. -/
lemma Names.mem_places {t : Table} {ps : List Placement} {places : List Place} (h : t.Names ps places) :
    ∀ p ∈ places, p ∈ t.places := by
  intro p hp
  obtain ⟨q, _, hrefers⟩ := h.exists_refers hp
  exact hrefers.mem_places

/-- A placement is paired with the place that it names. -/
lemma Names.mem_zip {t : Table} {ps : List Placement} {places : List Place} (h : t.Names ps places) {q : Placement}
    (hq : q ∈ ps) {place : Place} (hp : t.Refers q.ref place) : (q, place) ∈ ps.zip places := by
  induction h with
  | nil => cases hq
  | cons hrefers _ ih =>
    rw [List.zip_cons_cons]
    rcases List.mem_cons.mp hq with rfl | hq
    · rw [hp.eq hrefers]
      exact List.mem_cons_self ..
    · exact List.mem_cons_of_mem _ (ih hq)

/-- The places that are to be filled are there, and none is named twice. -/
lemma targets_ok {t : Table} {places : List Place} {ps : List Placement} (h : t.targets [] ps = .ok places) :
    t.Names ps places ∧ places.Nodup ∧ ∀ p ∈ places, p ∈ t.places := by
  obtain ⟨named, hnamed, rfl, hn⟩ := (targets_eq_ok_iff List.nodup_nil).mp h
  exact ⟨hnamed, hn, hnamed.mem_places⟩

/-- To clear places makes their cards loose. -/
lemma clear_balanced {t : Table} (hn : t.places.Nodup) {places : List Place} (hp : places.Nodup)
    (hs : ∀ p ∈ places, p ∈ t.places) : Balanced t [] (t.clear places) (places.flatMap t.pile) := by
  induction places generalizing t with
  | nil => exact .refl t []
  | cons p places ih =>
    have hpm : p ∈ t.places := hs p (List.mem_cons_self ..)
    have hrest := ih (t := t.put [] p) (by simpa using hn) (List.nodup_cons.mp hp).2
      (fun p' hp' => by simpa using hs p' (List.mem_cons_of_mem _ hp'))
    rw [flatMap_pile_put (List.nodup_cons.mp hp).1] at hrest
    refine ⟨(Rearranged.put t [] p).trans hrest.toRearranged, List.perm_iff_count.mpr fun c => ?_⟩
    have hput := count_cards_put hn hpm [] c
    have hcount := hrest.cards_perm.count_eq c
    have hclear : t.clear (p :: places) = (t.put [] p).clear places := rfl
    rw [hclear, List.flatMap_cons]
    simp only [List.count_append, List.count_nil] at hcount hput ⊢
    omega

/-- A card that is taken from elsewhere comes from a place that is not to be filled. -/
lemma takeElsewhere_ok {t t' : Table} {filled : List Place} {c : Card} (h : t.takeElsewhere filled c = some t') :
    ∃ p ∈ t.places, p ∉ filled ∧ c ∈ t.pile p ∧ t' = t.put ((t.pile p).erase c) p := by
  obtain ⟨p, hp, h⟩ := List.exists_of_findSome?_eq_some h
  obtain ⟨hpm, hpf⟩ := List.mem_filter.mp hp
  obtain ⟨rest, hr, rfl⟩ := Option.map_eq_some_iff.mp h
  obtain ⟨hc, rfl⟩ := Pile.remove?_singleton.mp hr
  exact ⟨p, hpm, by simpa using hpf, hc, rfl⟩

/-- A card that is taken from a place becomes loose. -/
lemma erase_balanced {t : Table} (hn : t.places.Nodup) {p : Place} (hp : p ∈ t.places) {c : Card} (hc : c ∈ t.pile p)
    (loose : List Card) : Balanced t loose (t.put ((t.pile p).erase c) p) (c :: loose) := by
  refine ⟨.put t _ p, List.perm_iff_count.mpr fun x => ?_⟩
  have hput := count_cards_put hn hp ((t.pile p).erase c) x
  have hcount := (List.perm_cons_erase hc).count_eq x
  simp only [List.count_append, List.count_cons] at hcount ⊢
  omega

/-- A loose card that is put in a place is loose no longer. -/
lemma push_balanced {t : Table} (hn : t.places.Nodup) {p : Place} (hp : p ∈ t.places) (cs loose : List Card) :
    Balanced t (cs ++ loose) (t.push cs p) loose := by
  refine ⟨.put t _ p, List.perm_iff_count.mpr fun x => ?_⟩
  have hpush := count_cards_push hn hp cs x
  simp only [List.count_append] at hpush ⊢
  omega

/-- A card that is placed was loose; or else it was not, and comes from a place that is not to be filled. -/
lemma placeCard_cases {t t' : Table} {filled : List Place} {target : Place} {loose loose' : List Card} {c : Card}
    (h : placeCard filled target t loose c = some (t', loose')) :
    (c ∈ loose ∧ loose' = loose.erase c ∧ t' = t.push [c] target) ∨
      (c ∉ loose ∧ loose' = loose ∧ ∃ p ∈ t.places, p ∉ filled ∧ c ∈ t.pile p ∧
        t' = (t.put ((t.pile p).erase c) p).push [c] target) := by
  rw [placeCard] at h
  split at h
  · next hc =>
    cases h
    exact .inl ⟨by simpa using hc, rfl, rfl⟩
  · next hc =>
    obtain ⟨t₁, h₁, he⟩ := Option.map_eq_some_iff.mp h
    cases he
    obtain ⟨p, hp, hpf, hheld, rfl⟩ := takeElsewhere_ok h₁
    exact .inr ⟨by simpa using hc, rfl, p, hp, hpf, hheld, rfl⟩

/-- To place a card keeps the balance, wherever it is found. -/
lemma placeCard_balanced {t t' : Table} (hn : t.places.Nodup) {filled : List Place} {target : Place}
    (ht : target ∈ t.places) {loose loose' : List Card} {c : Card}
    (h : placeCard filled target t loose c = some (t', loose')) : Balanced t loose t' loose' := by
  rcases placeCard_cases h with ⟨hc, rfl, rfl⟩ | ⟨_, rfl, p, hp, _, hc, rfl⟩
  · have hloose : Balanced t loose t (c :: loose.erase c) :=
      ⟨.refl t, (List.perm_cons_erase hc).symm.append_left t.cards⟩
    exact hloose.trans (push_balanced hn ht [c] _)
  · refine (erase_balanced hn hp hc loose').trans (push_balanced ?_ ?_ [c] loose')
    · rwa [places_put]
    · rwa [places_put]

/-- Cards are put in places one after another, as long as there are such cards. -/
inductive Filling (filled : List Place) : List (Place × Card) → Table → List Card → Table → List Card → Prop where
  | nil {t : Table} {loose : List Card} : Filling filled [] t loose t loose
  | cons {target : Place} {c : Card} {orders : List (Place × Card)} {t t₁ t' : Table}
      {loose loose₁ loose' : List Card} : placeCard filled target t loose c = some (t₁, loose₁) →
      Filling filled orders t₁ loose₁ t' loose' → Filling filled ((target, c) :: orders) t loose t' loose'

/-- The cards that placements ask for, one by one, each with its place. -/
def orders (pairs : List (Placement × Place)) : List (Place × Card) := pairs.flatMap fun e => e.1.cards.map (e.2, ·)

/-- To fill some orders and then others is to fill all of them in a row. -/
lemma Filling.append_iff {filled : List Place} {os os' : List (Place × Card)} {t t'' : Table}
    {loose loose'' : List Card} : Filling filled (os ++ os') t loose t'' loose'' ↔
      ∃ t' loose', Filling filled os t loose t' loose' ∧ Filling filled os' t' loose' t'' loose'' := by
  induction os generalizing t loose with
  | nil =>
    constructor
    · exact fun h => ⟨t, loose, .nil, h⟩
    · rintro ⟨_, _, ⟨⟩, h⟩
      exact h
  | cons o os ih =>
    constructor
    · intro h
      cases h with
      | cons hcard h =>
        obtain ⟨t', loose', hos, hos'⟩ := ih.mp h
        exact ⟨t', loose', .cons hcard hos, hos'⟩
    · rintro ⟨t', loose', hos, hos'⟩
      cases hos with
      | cons hcard hos => exact .cons hcard (ih.mpr ⟨t', loose', hos, hos'⟩)

/-- To place the cards of one placement is to fill its orders. -/
lemma placeCards_eq_ok_iff {filled : List Place} {ref : String} {target : Place} {cs : List Card} {t t' : Table}
    {loose loose' : List Card} : placeCards filled ref target cs t loose = .ok (t', loose') ↔
      Filling filled (cs.map (target, ·)) t loose t' loose' := by
  induction cs generalizing t loose with
  | nil =>
    constructor
    · rintro ⟨⟩
      exact .nil
    · rintro ⟨⟩
      rfl
  | cons c cs ih =>
    rw [placeCards]
    cases hcard : placeCard filled target t loose c with
    | none =>
      constructor
      · rintro ⟨⟩
      · intro h
        cases h with
        | cons hcard' h =>
          rw [hcard] at hcard'
          cases hcard'
    | some placed =>
      constructor
      · exact fun h => .cons hcard (ih.mp h)
      · intro h
        cases h with
        | cons hcard' h =>
          rw [hcard] at hcard'
          cases hcard'
          exact ih.mpr h

/-- To fill the places of placements is to place the cards that they ask for. -/
lemma fill_eq_ok_iff {filled : List Place} {pairs : List (Placement × Place)} {t t' : Table}
    {loose loose' : List Card} : fill filled pairs t loose = .ok (t', loose') ↔
      Filling filled (orders pairs) t loose t' loose' := by
  induction pairs generalizing t loose with
  | nil =>
    constructor
    · rintro ⟨⟩
      exact .nil
    · rintro ⟨⟩
      rfl
  | cons e pairs ih =>
    rw [fill, bind_eq_ok, orders, List.flatMap_cons, Filling.append_iff]
    constructor
    · rintro ⟨⟨t₁, loose₁⟩, hcards, h⟩
      exact ⟨t₁, loose₁, placeCards_eq_ok_iff.mp hcards, ih.mp h⟩
    · rintro ⟨t₁, loose₁, hcards, h⟩
      exact ⟨(t₁, loose₁), placeCards_eq_ok_iff.mpr hcards, ih.mpr h⟩

/-- Orders are given at the places that the placements name. -/
lemma mem_of_mem_orders {ps : List Placement} {places : List Place} {o : Place × Card}
    (h : o ∈ orders (ps.zip places)) : o.1 ∈ places := by
  obtain ⟨e, he, ho⟩ := List.mem_flatMap.mp h
  obtain ⟨c, _, rfl⟩ := List.mem_map.mp ho
  exact (List.of_mem_zip he).2

/-- To fill orders at places of the table keeps the balance. -/
lemma Filling.balanced {filled : List Place} {os : List (Place × Card)} {t t' : Table} {loose loose' : List Card}
    (h : Filling filled os t loose t' loose') (hn : t.places.Nodup) (hs : ∀ o ∈ os, o.1 ∈ t.places) :
    Balanced t loose t' loose' := by
  induction h with
  | nil => exact .refl _ _
  | cons hcard h ih =>
    have hbalanced := placeCard_balanced hn (hs _ (List.mem_cons_self ..)) hcard
    refine hbalanced.trans (ih (hbalanced.places ▸ hn) ?_)
    intro o ho
    exact hbalanced.places ▸ hs o (List.mem_cons_of_mem _ ho)

/-- What an arrangement does before it counts the cards: it only rearranges the table, and no card is lost. -/
lemma arrange_balanced {t t' : Table} (hn : t.places.Nodup) {ps : List Placement} {places : List Place}
    {loose : List Card} (hp : t.targets [] ps = .ok places)
    (h : fill places (ps.zip places) (t.clear places) (places.flatMap t.pile) = .ok (t', loose)) :
    Balanced t [] (t'.push loose .deck) [] := by
  obtain ⟨_, hplaces, hsub⟩ := targets_ok hp
  have hclear := clear_balanced hn hplaces hsub
  have hfill := (fill_eq_ok_iff.mp h).balanced (hclear.places ▸ hn)
    fun o ho => hclear.places ▸ hsub o.1 (mem_of_mem_orders ho)
  have hall := hclear.trans hfill
  have hpush := push_balanced (hall.places ▸ hn) (deck_mem_places t') loose []
  rw [List.append_nil] at hpush
  exact hall.trans hpush

/-- A table has been arranged if the places that the placements name have been filled, what is loose has gone to the
deck, and no card is lost. -/
lemma arrange_eq_ok_iff {t t' : Table} {ps : List Placement} :
    t.arrange ps = .ok t' ↔
      ∃ places t₁ loose, t.targets [] ps = .ok places ∧
        fill places (ps.zip places) (t.clear places) (places.flatMap t.pile) = .ok (t₁, loose) ∧
        t' = t₁.push loose .deck ∧ t'.total = t'.initial := by
  rw [arrange, bind_eq_ok]
  constructor
  · rintro ⟨places, hp, h⟩
    obtain ⟨⟨t₁, loose⟩, hf, h⟩ := bind_eq_ok.mp h
    simp only at h
    split at h
    · cases h
    · next htotal =>
      cases h
      exact ⟨places, t₁, loose, hp, hf, rfl, not_not.mp htotal⟩
  · rintro ⟨places, t₁, loose, hp, hf, rfl, htotal⟩
    refine ⟨places, hp, bind_eq_ok.mpr ⟨(t₁, loose), hf, ?_⟩⟩
    simp only [htotal, ne_eq, not_true_eq_false, if_false]

/-- An arrangement only rearranges the table, and no card is lost. -/
lemma arrange_ok {t t' : Table} (hn : t.places.Nodup) {ps : List Placement} (h : t.arrange ps = .ok t') :
    Rearranged t t' ∧ t'.cards.Perm t.cards := by
  obtain ⟨places, t₁, loose, hp, hf, rfl, _⟩ := arrange_eq_ok_iff.mp h
  have hb := arrange_balanced hn hp hf
  exact ⟨hb.toRearranged, by simpa using hb.cards_perm⟩

/-- To look for the places does not count the cards. -/
lemma targets_ne_conservation (t : Table) (seen : List Place) (placements : List Placement) :
    t.targets seen placements ≠ .error .conservation := by
  induction placements generalizing seen with
  | nil => exact nofun
  | cons placement placements ih =>
    refine bind_ne_error (mapError_ne_error nofun _) ?_
    intro place _
    split
    · exact nofun
    · exact ih _

/-- To place the cards of one placement does not count them. -/
lemma placeCards_ne_conservation (filled : List Place) (ref : String) (target : Place) (cs : List Card) (t : Table)
    (loose : List Card) : placeCards filled ref target cs t loose ≠ .error .conservation := by
  induction cs generalizing t loose with
  | nil => exact nofun
  | cons c cs ih =>
    unfold placeCards
    split
    · exact nofun
    · exact ih _ _

/-- To fill all places does not count the cards. -/
lemma fill_ne_conservation (filled : List Place) (pairs : List (Placement × Place)) (t : Table) (loose : List Card) :
    fill filled pairs t loose ≠ .error .conservation := by
  induction pairs generalizing t loose with
  | nil => exact nofun
  | cons e pairs ih => exact bind_ne_error (placeCards_ne_conservation _ _ _ _ _ _) fun filling _ => ih _ _

/-- An arrangement never finds that cards are lost. -/
lemma arrange_ne_conservation {t : Table} (hn : t.places.Nodup) (ht : t.total = t.initial)
    (placements : List Placement) : t.arrange placements ≠ .error .conservation := by
  refine bind_ne_error (targets_ne_conservation t [] placements) ?_
  intro places hp
  refine bind_ne_error (fill_ne_conservation _ _ _ _) ?_
  rintro ⟨t₁, loose⟩ hf
  have htotal := (arrange_balanced hn hp hf).total_eq ht
  simp only [htotal, ne_eq, not_true_eq_false, if_false]
  exact nofun

end Croupier.Table
