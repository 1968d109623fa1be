import Mathlib.Data.List.Lattice
import Mathlib.Data.List.Pairwise
import Croupier.Proofs.Table.Supply

/-!
# How a table lies when it has been arranged

If no card is in the supply twice, there is only one place where a card that is asked for can be found. So a filling
takes exactly the cards that are asked for away from the loose cards and from the places that are not filled, and what
remains there keeps its order; the places that are filled get what they are asked for, in order
(`Filling.leaves_filled`). On a table without doubles this tells how every pile lies after an arrangement (`Arranged`,
`arrange_arranged`).
-/

namespace Croupier

namespace Pile

/-- The cards of a pile that are not among some cards, in their order. -/
def without (p : Pile) (cs : List Card) : Pile := p.filter (· ∉ cs)

/-- Without no cards a pile is as it was. -/
lemma without_nil (p : Pile) : p.without [] = p := by
  rw [without, List.filter_eq_self]
  intro c _
  simp

/-- Cards can be left out one after another. -/
lemma without_cons (p : Pile) (c : Card) (cs : List Card) : p.without (c :: cs) = (p.without [c]).without cs := by
  rw [without, without, without, List.filter_filter]
  refine List.filter_congr fun x _ => ?_
  rw [← Bool.decide_and, decide_eq_decide, List.mem_cons, List.mem_singleton, not_or, and_comm]

/-- To leave out a card that is not there changes nothing. -/
lemma without_of_notMem {p : Pile} {c : Card} (h : c ∉ p) : p.without [c] = p := by
  rw [without, List.filter_eq_self]
  intro x hx
  have hne : x ≠ c := fun he => h (he ▸ hx)
  simpa using hne

/-- If no card is in a pile twice, one is erased by leaving it out. -/
lemma erase_eq_without {p : Pile} (hn : p.Nodup) (c : Card) : p.erase c = p.without [c] := by
  rw [List.Nodup.erase_eq_filter hn, without]
  refine List.filter_congr fun x _ => ?_
  rw [Bool.eq_iff_iff, bne_iff_ne, decide_eq_true_iff, List.mem_singleton]

end Pile

namespace Table

variable {t t' : Table} {filled places : List Place} {target : Place} {c : Card} {loose loose' : List Card}
  {ps : List Placement} {os : List (Place × Card)}

/-- A card of the supply lies at one place only. -/
lemma notMem_pile_of_ne (hn : (t.supply filled loose).Nodup) {p p' : Place} (hp : p ∈ t.spare filled)
    (hp' : p' ∈ t.spare filled) (hne : p ≠ p') (hc : c ∈ t.pile p) : c ∉ t.pile p' := by
  have hdisjoint := (List.nodup_flatMap.mp (List.nodup_append.mp hn).2.1).2
  have hsymm : Std.Symm (Function.onFun List.Disjoint t.pile) := ⟨fun _ _ h => List.Disjoint.symm h⟩
  exact fun hc' => hdisjoint.forall hp hp' hne hc hc'

/-- A loose card of the supply lies at no place. -/
lemma notMem_pile_of_loose (hn : (t.supply filled loose).Nodup) {p : Place} (hp : p ∈ t.spare filled)
    (hc : c ∈ loose) : c ∉ t.pile p := by
  intro hheld
  have hmem : c ∈ (t.spare filled).flatMap t.pile := List.mem_flatMap.mpr ⟨p, hp, hheld⟩
  exact (List.nodup_append.mp hn).2.2 c hc c hmem rfl

/-- A card that is placed is gone from the loose cards and from every place that is not filled. -/
lemma placeCard_without (hn : (t.supply filled loose).Nodup) (ht : target ∈ filled)
    (h : placeCard filled target t loose c = some (t', loose')) :
    loose' = Pile.without loose [c] ∧ ∀ p ∈ t.spare filled, t'.pile p = (t.pile p).without [c] := by
  have hloose : loose.Nodup := (List.nodup_append.mp hn).1
  have hpiles := (List.nodup_flatMap.mp (List.nodup_append.mp hn).2.1).1
  have htarget {p : Place} (hp : p ∈ t.spare filled) : p ≠ target := fun he => (mem_spare.mp hp).2 (he ▸ ht)
  rcases placeCard_cases h with ⟨hc, rfl, rfl⟩ | ⟨hc, rfl, p, hp, hpf, hheld, rfl⟩
  · refine ⟨Pile.erase_eq_without hloose c, ?_⟩
    intro p hp
    rw [pile_push_ne (htarget hp), Pile.without_of_notMem (notMem_pile_of_loose hn hp hc)]
  · refine ⟨(Pile.without_of_notMem hc).symm, ?_⟩
    intro p' hp'
    rw [pile_push_ne (htarget hp')]
    by_cases he : p' = p
    · rw [he, pile_put_self hp, Pile.erase_eq_without (hpiles p (he ▸ hp'))]
    · have hother := notMem_pile_of_ne hn (mem_spare.mpr ⟨hp, hpf⟩) hp' (Ne.symm he) hheld
      rw [pile_put_ne he, Pile.without_of_notMem hother]

/-- A card that is placed lies at the end of its pile, and the other places that are filled are left alone. -/
lemma placeCard_pile (ht : target ∈ t.places) (h : placeCard filled target t loose c = some (t', loose')) {p : Place}
    (hp : p ∈ filled) : t'.pile p = t.pile p ++ if target = p then [c] else [] := by
  rcases placeCard_cases h with ⟨_, _, rfl⟩ | ⟨_, _, p', _, hpf, _, rfl⟩
  · by_cases he : target = p
    · rw [if_pos he, ← he, pile_push_self ht]
    · rw [if_neg he, pile_push_ne (Ne.symm he), List.append_nil]
  · have hne : p ≠ p' := fun he => hpf (he ▸ hp)
    by_cases he : target = p
    · rw [if_pos he, ← he, pile_push_self (by rwa [places_put]), pile_put_ne (he ▸ hne)]
    · rw [if_neg he, pile_push_ne (Ne.symm he), pile_put_ne hne, List.append_nil]

/-- The cards that are asked for at a place. -/
def ordersAt (os : List (Place × Card)) (p : Place) : List Card := (os.filter (·.1 = p)).map Prod.snd

/-- An order counts at its own place. -/
lemma ordersAt_cons {o : Place × Card} {p : Place} :
    ordersAt (o :: os) p = (if o.1 = p then [o.2] else []) ++ ordersAt os p := by
  rw [ordersAt, List.filter_cons]
  by_cases h : o.1 = p <;> simp [h, ordersAt]

/-- Orders that are given later are filled later. -/
lemma ordersAt_append (os os' : List (Place × Card)) (p : Place) :
    ordersAt (os ++ os') p = ordersAt os p ++ ordersAt os' p := by
  rw [ordersAt, List.filter_append, List.map_append]
  rfl

/-- Orders that are all given at a place are all filled there. -/
lemma ordersAt_map_self (cs : List Card) (p : Place) : ordersAt (cs.map (p, ·)) p = cs := by
  rw [ordersAt, List.filter_eq_self.mpr (by simp), List.map_map]
  exact List.map_id' _

/-- At a place where no order is given nothing is filled. -/
lemma ordersAt_eq_nil {p : Place} (hp : ∀ o ∈ os, o.1 ≠ p) : ordersAt os p = [] := by
  rw [ordersAt, List.filter_eq_nil_iff.mpr (by simpa using hp)]
  rfl

/-- The cards that are asked for are gone from the loose cards and from the places that are not filled, and lie, in
order, at the places that are. -/
structure Filled (filled : List Place) (os : List (Place × Card)) (t : Table) (loose : List Card) (t' : Table)
    (loose' : List Card) : Prop where
  loose_eq : loose' = Pile.without loose (os.map Prod.snd)
  pile_spare : ∀ p ∈ t.spare filled, t'.pile p = (t.pile p).without (os.map Prod.snd)
  pile_filled : ∀ p ∈ filled, t'.pile p = t.pile p ++ ordersAt os p

/-- Cards that are in the supply once are found where they are, so a filling takes them from there and nothing else. -/
lemma Filling.leaves_filled (h : Filling filled os t loose t' loose') (hp : t.places.Nodup)
    (hn : (t.supply filled loose).Nodup) (hs : ∀ o ∈ os, o.1 ∈ filled ∧ o.1 ∈ t.places) :
    Filled filled os t loose t' loose' := by
  induction h with
  | nil => exact ⟨(Pile.without_nil _).symm, fun p _ => (Pile.without_nil _).symm, fun p _ => (List.append_nil _).symm⟩
  | @cons target c os t t₁ t' loose loose₁ loose' hcard h ih =>
    obtain ⟨⟨htf, htp⟩, hs⟩ := List.forall_mem_cons.mp hs
    have hplaces := placeCard_places hcard
    have hspare : t₁.spare filled = t.spare filled := by rw [Table.spare, hplaces]; rfl
    have hsupply : (c :: t₁.supply filled loose₁).Nodup := (placeCard_supply hp htf hcard).nodup_iff.mpr hn
    obtain ⟨hloose, hpiles⟩ := placeCard_without hn htf hcard
    have hrest := ih (hplaces ▸ hp) (List.nodup_cons.mp hsupply).2 (hplaces ▸ hs)
    refine ⟨?_, ?_, ?_⟩
    · rw [List.map_cons, Pile.without_cons loose, hrest.loose_eq, hloose]
    · intro p hp
      rw [List.map_cons, Pile.without_cons (t.pile p), hrest.pile_spare p (hspare ▸ hp), hpiles p hp]
    · intro p hp
      rw [hrest.pile_filled p hp, placeCard_pile htp hcard hp, ordersAt_cons, List.append_assoc]

/-- A placement asks for its cards at its place, and no other placement does. -/
lemma ordersAt_of_mem_zip (hn : places.Nodup) {q : Placement} {place : Place} (h : (q, place) ∈ ps.zip places) :
    ordersAt (orders (ps.zip places)) place = q.cards := by
  induction ps generalizing places with
  | nil => cases h
  | cons q' ps ih =>
    cases places with
    | nil => cases h
    | cons place' places =>
      obtain ⟨hnew, hn⟩ := List.nodup_cons.mp hn
      rw [List.zip_cons_cons] at h ⊢
      have horders : orders ((q', place') :: ps.zip places) =
          q'.cards.map (place', ·) ++ orders (ps.zip places) := List.flatMap_cons
      rw [horders, ordersAt_append]
      rcases List.mem_cons.mp h with he | h
      · cases he
        have hrest : ∀ o ∈ orders (ps.zip places), o.1 ≠ place := fun o ho he => hnew (he ▸ mem_of_mem_orders ho)
        rw [ordersAt_map_self, ordersAt_eq_nil hrest, List.append_nil]
      · have hne : place' ≠ place := fun he => hnew (he ▸ (List.of_mem_zip h).2)
        rw [ordersAt_eq_nil (by simpa using fun _ _ => hne), ih hn h, List.nil_append]

/-- Places that are cleared are empty. -/
lemma pile_clear_of_mem {p : Place} (hp : p ∈ places) (hs : p ∈ t.places) : (t.clear places).pile p = [] := by
  induction places generalizing t with
  | nil => cases hp
  | cons p' places ih =>
    have hs' : p ∈ (t.put [] p').places := by rwa [places_put]
    by_cases hin : p ∈ places
    · exact ih hin hs'
    · obtain rfl : p = p' := (List.mem_cons.mp hp).resolve_right hin
      exact (pile_clear_of_notMem hin).trans (pile_put_self hs [])

/-- A table has been arranged: the places that the placements refer to have been emptied and filled. Other than the
deck, a place that a placement refers to holds the cards of the placement, and one that none refers to keeps the cards
that are not asked for. The deck holds its own cards, those of its placement or those that it keeps, and after them the
cards of the emptied places that are not asked for. Nothing but the piles has changed. -/
structure Arranged (t : Table) (ps : List Placement) (emptied : List Place) (t' : Table) : Prop
    extends Rearranged t t' where
  named : t.Names ps emptied
  placed : ∀ q ∈ ps, ∀ place, t.Refers q.ref place → place ≠ .deck → t'.pile place = q.cards
  kept : ∀ place ∈ t.places, (∀ q ∈ ps, ¬t.Refers q.ref place) → place ≠ .deck →
    t'.pile place = (t.pile place).without (requested ps)
  deck_placed : ∀ q ∈ ps, t.Refers q.ref .deck →
    t'.deck = q.cards ++ Pile.without (emptied.flatMap t.pile) (requested ps)
  deck_kept : (∀ q ∈ ps, ¬t.Refers q.ref .deck) →
    t'.deck = Pile.without t.deck (requested ps) ++ Pile.without (emptied.flatMap t.pile) (requested ps)

/-- To arrange a table on which no card lies twice leaves it arranged. -/
lemma arrange_arranged (hp : t.places.Nodup) (hn : t.cards.Nodup) (h : t.arrange ps = .ok t') :
    ∃ emptied, t.Arranged ps emptied t' := by
  have hrearranged := (arrange_ok hp h).1
  obtain ⟨places, t₁, loose, htargets, hfill, rfl, _⟩ := arrange_eq_ok_iff.mp h
  obtain ⟨hnamed, hnodup, hsub⟩ := targets_ok htargets
  have hsupply := (supply_clear_perm hp hnodup hsub).nodup_iff.mpr hn
  have hfilled := (fill_eq_ok_iff.mp hfill).leaves_filled (by rwa [places_clear]) hsupply fun o ho => by
    rw [places_clear]
    exact ⟨mem_of_mem_orders ho, hsub o.1 (mem_of_mem_orders ho)⟩
  obtain ⟨rfl, hspare, hfilled⟩ := hfilled
  rw [map_snd_orders hnamed.length_eq] at hspare
  -- the piles before the rest of the loose cards goes to the deck
  have hplaced {q : Placement} {place : Place} (hq : q ∈ ps) (hr : t.Refers q.ref place) : t₁.pile place = q.cards := by
    have hzip := hnamed.mem_zip hq hr
    have hmem := (List.of_mem_zip hzip).2
    rw [hfilled place hmem, pile_clear_of_mem hmem (hsub place hmem), ordersAt_of_mem_zip hnodup hzip, List.nil_append]
  have hkept {place : Place} (hm : place ∈ t.places) (hr : ∀ q ∈ ps, ¬t.Refers q.ref place) :
      t₁.pile place = (t.pile place).without (requested ps) := by
    have hmem : place ∉ places := by
      intro hmem
      obtain ⟨q, hq, hrefers⟩ := hnamed.exists_refers hmem
      exact hr q hq hrefers
    have hin : place ∈ (t.clear places).spare places := mem_spare.mpr ⟨by rwa [places_clear], hmem⟩
    rw [hspare place hin, pile_clear_of_notMem hmem]
  have hdeck : (t₁.push (Pile.without (places.flatMap t.pile) (requested ps)) .deck).deck =
      t₁.pile .deck ++ Pile.without (places.flatMap t.pile) (requested ps) := rfl
  rw [map_snd_orders hnamed.length_eq] at hrearranged ⊢
  refine ⟨places, { hrearranged with named := hnamed, placed := ?_, kept := ?_, deck_placed := ?_, deck_kept := ?_ }⟩
  · intro q hq place hr hne
    rw [pile_push_ne hne, hplaced hq hr]
  · intro place hm hr hne
    rw [pile_push_ne hne, hkept hm hr]
  · intro q hq hr
    rw [hdeck, hplaced hq hr]
  · intro hr
    rw [hdeck, hkept (deck_mem_places t) hr]
    rfl

end Table

end Croupier
