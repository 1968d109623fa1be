import Croupier.Proofs.Table.Arrange

/-!
# When a table can be arranged

The cards that a filling can draw on are its supply: the loose cards, and those at the places that are not to be filled.
A card is placed if and only if it is in the supply (`placeCard_isSome`), wherever it is found, and it is then missing
there once (`placeCard_supply`). So the search, which takes the first card that it finds, never misses an assignment:
all cards can be placed if and only if the supply holds them as often as they are asked for (`exists_filling_iff`). At
the beginning the supply is the whole table, which tells when a table can be arranged (`exists_arrange_iff`).
-/

namespace Croupier.Table

variable {t t' : Table} {filled : List Place} {target : Place} {c : Card} {loose loose' : List Card}

/-- The places that are not to be filled. -/
def spare (t : Table) (filled : List Place) : List Place := t.places.filter fun p => !filled.contains p

/-- The cards that a filling can draw on. -/
def supply (t : Table) (filled : List Place) (loose : List Card) : List Card :=
  loose ++ (t.spare filled).flatMap t.pile

/-- A place is spare if it is there and not to be filled. -/
lemma mem_spare {p : Place} : p ∈ t.spare filled ↔ p ∈ t.places ∧ p ∉ filled := by simp [spare]

/-- No spare place is listed twice if no place is. -/
lemma spare_nodup (hn : t.places.Nodup) : (t.spare filled).Nodup := hn.filter _

/-- A change at a place keeps the spare places. -/
@[simp]
lemma spare_put (q : Pile) (p : Place) : (t.put q p).spare filled = t.spare filled := by
  rw [spare, places_put]
  rfl

/-- Places that are not cleared keep their piles. -/
lemma pile_clear_of_notMem {places : List Place} {p : Place} (hp : p ∉ places) :
    (t.clear places).pile p = t.pile p := by
  induction places generalizing t with
  | nil => rfl
  | cons p' places ih =>
    obtain ⟨hne, hp⟩ := List.ne_and_not_mem_of_not_mem_cons hp
    exact (ih hp).trans (pile_put_ne hne [])

/-- To clear places keeps the places. -/
@[simp]
lemma places_clear (places : List Place) : (t.clear places).places = t.places := by
  induction places generalizing t with
  | nil => rfl
  | cons p places ih => exact ih.trans (places_put t [] p)

/-- A card can be taken from elsewhere if and only if it lies at a place that is not to be filled. -/
lemma takeElsewhere_isSome : (t.takeElsewhere filled c).isSome ↔ c ∈ (t.spare filled).flatMap t.pile := by
  rw [takeElsewhere, List.findSome?_isSome_iff, List.mem_flatMap]
  refine exists_congr fun p => and_congr_right fun _ => ?_
  rw [Option.isSome_map, Option.isSome_iff_exists]
  constructor
  · rintro ⟨rest, hrest⟩
    exact (Pile.remove?_singleton.mp hrest).1
  · intro hc
    exact ⟨_, Pile.remove?_singleton.mpr ⟨hc, rfl⟩⟩

/-- A card can be placed if and only if it is in the supply. -/
lemma placeCard_isSome : (placeCard filled target t loose c).isSome ↔ c ∈ t.supply filled loose := by
  rw [placeCard, supply, List.mem_append, ← takeElsewhere_isSome]
  by_cases hc : c ∈ loose
  · simp [hc]
  · simp [hc, Option.isSome_map]

/-- What lies at places that are to be filled is not in the supply. -/
lemma supply_push (ht : target ∈ filled) (cs : List Card) :
    (t.push cs target).supply filled loose = t.supply filled loose := by
  have hspare : target ∉ t.spare filled := fun h => (mem_spare.mp h).2 ht
  rw [supply, push, spare_put, flatMap_pile_put hspare]
  rfl

/-- A card that is placed leaves the supply. -/
lemma placeCard_supply (hn : t.places.Nodup) (ht : target ∈ filled)
    (h : placeCard filled target t loose c = some (t', loose')) :
    (c :: t'.supply filled loose').Perm (t.supply filled loose) := by
  rcases placeCard_cases h with ⟨hc, rfl, rfl⟩ | ⟨_, rfl, p, hp, hpf, hc, rfl⟩
  · rw [supply_push ht]
    exact ((List.perm_cons_erase hc).symm).append_right ((t.spare filled).flatMap t.pile)
  · rw [supply_push ht, List.perm_iff_count]
    intro x
    have hput := count_flatMap_put (spare_nodup hn) (mem_spare.mpr ⟨hp, hpf⟩) hp ((t.pile p).erase c) x
    have hcount := (List.perm_cons_erase hc).count_eq x
    simp only [supply, spare_put, List.count_append, List.count_cons] at hcount ⊢
    omega

/-- A card that is placed leaves the places as they are. -/
lemma placeCard_places (h : placeCard filled target t loose c = some (t', loose')) : t'.places = t.places := by
  rcases placeCard_cases h with ⟨_, _, rfl⟩ | ⟨_, _, p, _, _, _, rfl⟩
  · exact places_put ..
  · exact (places_put ..).trans (places_put ..)

/-- All cards that are asked for can be placed if and only if the supply holds them as often as they are asked for. -/
lemma exists_filling_iff {os : List (Place × Card)} (hn : t.places.Nodup) (hf : ∀ o ∈ os, o.1 ∈ filled) :
    (∃ t' loose', Filling filled os t loose t' loose') ↔
      ∀ c, (os.map Prod.snd).count c ≤ (t.supply filled loose).count c := by
  induction os generalizing t loose with
  | nil => exact ⟨fun _ c => Nat.zero_le _, fun _ => ⟨t, loose, .nil⟩⟩
  | cons o os ih =>
    obtain ⟨target, c⟩ := o
    obtain ⟨ht, hf⟩ := List.forall_mem_cons.mp hf
    -- whatever the first card leaves, the other cards find it missing once
    have hrest {t₁ : Table} {loose₁ : List Card} (hcard : placeCard filled target t loose c = some (t₁, loose₁)) :
        (∃ t' loose', Filling filled os t₁ loose₁ t' loose') ↔
          ∀ x, (((target, c) :: os).map Prod.snd).count x ≤ (t.supply filled loose).count x := by
      rw [ih (placeCard_places hcard ▸ hn) hf]
      refine forall_congr' fun x => ?_
      rw [← (placeCard_supply hn ht hcard).count_eq x, List.map_cons, List.count_cons, List.count_cons]
      exact Nat.add_le_add_iff_right.symm
    constructor
    · rintro ⟨t', loose', h⟩
      cases h with
      | cons hcard h => exact (hrest hcard).mp ⟨t', loose', h⟩
    · intro h
      have hc : c ∈ t.supply filled loose := by
        refine List.count_pos_iff.mp (Nat.lt_of_lt_of_le ?_ (h c))
        rw [List.map_cons, List.count_cons_self]
        exact Nat.succ_pos _
      obtain ⟨⟨t₁, loose₁⟩, hcard⟩ := Option.isSome_iff_exists.mp (placeCard_isSome.mpr hc)
      obtain ⟨t', loose', hfill⟩ := (hrest hcard).mpr h
      exact ⟨t', loose', .cons hcard hfill⟩

/-- When the places that are to be filled have been cleared, all cards of the table are in the supply. -/
lemma supply_clear_perm {places : List Place} (hn : t.places.Nodup) (hp : places.Nodup)
    (hs : ∀ p ∈ places, p ∈ t.places) : ((t.clear places).supply places (places.flatMap t.pile)).Perm t.cards := by
  have hspare : (t.clear places).spare places = t.spare places := by
    rw [spare, places_clear]
    rfl
  have hpiles : (t.spare places).flatMap (t.clear places).pile = (t.spare places).flatMap t.pile :=
    List.flatMap_congr fun p hp => pile_clear_of_notMem (mem_spare.mp hp).2
  have hplaces : (places ++ t.spare places).Perm t.places := by
    have hnodup : (places ++ t.spare places).Nodup := by
      refine List.nodup_append.mpr ⟨hp, spare_nodup hn, ?_⟩
      rintro p hp p' hp' rfl
      exact (mem_spare.mp hp').2 hp
    rw [List.perm_ext_iff_of_nodup hnodup hn]
    intro p
    rw [List.mem_append, mem_spare]
    constructor
    · rintro (hp | hp)
      · exact hs p hp
      · exact hp.1
    · intro hp
      by_cases hin : p ∈ places
      · exact .inl hin
      · exact .inr ⟨hp, hin⟩
  rw [supply, hspare, hpiles, ← List.flatMap_append]
  exact hplaces.flatMap_right t.pile

/-- The cards that placements ask for. -/
def requested (ps : List Placement) : List Card := ps.flatMap (·.cards)

/-- The orders that placements give, without their places, are the cards that they ask for. -/
lemma map_snd_orders {ps : List Placement} {places : List Place} (h : ps.length = places.length) :
    (orders (ps.zip places)).map Prod.snd = requested ps := by
  have hcards : (orders (ps.zip places)).map Prod.snd = ((ps.zip places).map Prod.fst).flatMap (·.cards) := by
    rw [orders, List.map_flatMap, List.flatMap_map]
    refine List.flatMap_congr fun e _ => ?_
    rw [List.map_map]
    exact List.map_id' _
  rw [hcards, List.map_fst_zip h.le]
  rfl

/-- Placements that can be made: every reference refers to a place, no two refer to the same place, and the cards that
are asked for are there as often as they are asked for. -/
structure Arrangeable (t : Table) (ps : List Placement) : Prop where
  resolve : ∀ q ∈ ps, ∃ place, t.Refers q.ref place
  apart : ps.Pairwise fun q q' => ∀ place, t.Refers q.ref place → ¬t.Refers q'.ref place
  enough : ∀ c, (requested ps).count c ≤ t.cards.count c

/-- The references of placements refer to different places. -/
lemma exists_names_iff {ps : List Placement} :
    (∃ places, t.Names ps places ∧ places.Nodup) ↔
      (∀ q ∈ ps, ∃ place, t.Refers q.ref place) ∧
        ps.Pairwise fun q q' => ∀ place, t.Refers q.ref place → ¬t.Refers q'.ref place := by
  induction ps with
  | nil => exact ⟨fun _ => ⟨by simp, .nil⟩, fun _ => ⟨[], .nil, List.nodup_nil⟩⟩
  | cons q ps ih =>
    rw [List.forall_mem_cons, List.pairwise_cons]
    constructor
    · rintro ⟨_, hnamed, hn⟩
      cases hnamed with
      | @cons _ place _ places hplace hnamed =>
        obtain ⟨hnew, hn⟩ := List.nodup_cons.mp hn
        obtain ⟨hresolve, hapart⟩ := ih.mp ⟨places, hnamed, hn⟩
        refine ⟨⟨⟨place, hplace⟩, hresolve⟩, ?_, hapart⟩
        intro q' hq' place' hplace' hother
        have hmem := (List.of_mem_zip (hnamed.mem_zip hq' hother)).2
        exact hnew (hplace.eq hplace' ▸ hmem)
    · rintro ⟨⟨⟨place, hplace⟩, hresolve⟩, hfirst, hapart⟩
      obtain ⟨places, hnamed, hn⟩ := ih.mpr ⟨hresolve, hapart⟩
      refine ⟨place :: places, .cons hplace hnamed, List.nodup_cons.mpr ⟨?_, hn⟩⟩
      intro hmem
      obtain ⟨q', hq', hrefers⟩ := hnamed.exists_refers hmem
      exact hfirst q' hq' place hplace hrefers

/-- A table whose number of cards is right can be arranged if and only if the placements can be made. -/
lemma exists_arrange_iff (hn : t.places.Nodup) (htotal : t.total = t.initial) {ps : List Placement} :
    (∃ t', t.arrange ps = .ok t') ↔ t.Arrangeable ps := by
  -- once the places are known, all depends on the supply
  have hfill {places : List Place} (hnamed : t.Names ps places) (hp : places.Nodup) :
      (∃ t₁ loose, Filling places (orders (ps.zip places)) (t.clear places) (places.flatMap t.pile) t₁ loose) ↔
        ∀ c, (requested ps).count c ≤ t.cards.count c := by
    have hs := hnamed.mem_places
    rw [exists_filling_iff (by rwa [places_clear]) fun o ho => mem_of_mem_orders ho, map_snd_orders hnamed.length_eq]
    exact forall_congr' fun c => by rw [(supply_clear_perm hn hp hs).count_eq c]
  constructor
  · rintro ⟨t', h⟩
    obtain ⟨places, t₁, loose, hp, hf, _⟩ := arrange_eq_ok_iff.mp h
    obtain ⟨hnamed, hnodup, _⟩ := targets_ok hp
    obtain ⟨hresolve, hapart⟩ := exists_names_iff.mp ⟨places, hnamed, hnodup⟩
    exact ⟨hresolve, hapart, (hfill hnamed hnodup).mp ⟨t₁, loose, fill_eq_ok_iff.mp hf⟩⟩
  · rintro ⟨hresolve, hapart, henough⟩
    obtain ⟨places, hnamed, hnodup⟩ := exists_names_iff.mpr ⟨hresolve, hapart⟩
    have hp : t.targets [] ps = .ok places := (targets_eq_ok_iff List.nodup_nil).mpr ⟨places, hnamed, rfl, hnodup⟩
    obtain ⟨t₁, loose, hf⟩ := (hfill hnamed hnodup).mpr henough
    have hf := fill_eq_ok_iff.mpr hf
    refine ⟨_, arrange_eq_ok_iff.mpr ⟨places, t₁, loose, hp, hf, rfl, ?_⟩⟩
    exact (arrange_balanced hn hp hf).total_eq htotal

end Croupier.Table
