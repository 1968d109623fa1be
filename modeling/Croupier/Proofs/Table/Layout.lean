import Mathlib.Data.List.Sigma
import Croupier.Proofs.Table.Step

/-!
# Laying a table

A table that has just been laid: all its cards are in the deck (`cards_of_lay`), its players are seated
(`seated_of_lay`), and no place is listed twice if no name is (`places_nodup_of_lay`).
-/

namespace Croupier.Table

variable {deck : Pile} {tableStacks playerStacks : List String} {players current : Int} {seed : UInt64} {t : Table}

/-- A table can be laid for at least one player, one of whom is on turn. -/
lemma lay_ok (h : lay deck tableStacks playerStacks players current seed = .ok t) :
    1 ≤ current ∧ current ≤ players ∧ t = {
      deck := deck
      shared := .ofNames tableStacks
      seats := List.replicate players.toNat (.ofNames playerStacks)
      current := (current - 1).toNat
      winners := []
      ended := false
      passed := false
      initial := deck.length
      generator := generatorOf seed } := by
  unfold lay at h
  split at h
  · cases h
  · split at h
    · cases h
    · cases h
      refine ⟨by omega, by omega, rfl⟩

/-- A rack that is made of names holds no card. -/
lemma pile?_ofNames (names : List String) (name : String) : ((Rack.ofNames names).pile? name).getD [] = [] := by
  cases h : (Rack.ofNames names).pile? name with
  | none => rfl
  | some p =>
    obtain ⟨before, after, he, _⟩ := List.lookup_eq_some_iff.mp h
    have hm : (name, p) ∈ Rack.ofNames names := by
      rw [he]
      exact List.mem_append_right _ (List.mem_cons_self ..)
    obtain ⟨_, _, hp⟩ := List.mem_map.mp hm
    cases hp
    rfl

/-- All piles but the deck are empty at first. -/
lemma pile_of_lay (h : lay deck tableStacks playerStacks players current seed = .ok t) {p : Place} (hp : p ≠ .deck) :
    t.pile p = [] := by
  obtain ⟨_, _, rfl⟩ := lay_ok h
  cases p with
  | deck => exact absurd rfl hp
  | shared name => exact pile?_ofNames tableStacks name
  | seat i name =>
    by_cases hi : i < players.toNat
    · simpa [pile, pile?, hi] using pile?_ofNames playerStacks name
    · simp [pile, pile?, hi]

/-- All cards of a new table are in its deck. -/
lemma cards_of_lay (h : lay deck tableStacks playerStacks players current seed = .ok t) : t.cards = deck := by
  have hd : t.pile .deck = deck := by
    obtain ⟨_, _, rfl⟩ := lay_ok h
    rfl
  have hrest : ∀ p ∈ t.places.tail, t.pile p = [] := by
    intro p hp
    refine pile_of_lay h ?_
    rintro rfl
    simp [places, seatPlaces] at hp
  have hp : t.places = .deck :: t.places.tail := by simp [places]
  rw [cards, hp, List.flatMap_cons, hd, List.flatMap_eq_nil_iff.mpr hrest, List.append_nil]

/-- A new table has a player on turn who has a seat, and no winners. -/
lemma seated_of_lay (h : lay deck tableStacks playerStacks players current seed = .ok t) : Seated t := by
  obtain ⟨hc, hle, rfl⟩ := lay_ok h
  refine ⟨?_, List.nodup_nil, by simp⟩
  simp only [Table.players, List.length_replicate]
  omega

/-- The places at the seats are listed once if no name of a rack is listed twice. -/
lemma seatPlaces_nodup {seats : List Rack} (hr : ∀ rack ∈ seats, (Rack.names rack).Nodup) :
    (seatPlaces seats).Nodup := by
  refine List.nodup_flatMap.mpr ⟨?_, ?_⟩
  · rintro ⟨rack, i⟩ hx
    exact (hr rack (List.fst_mem_of_mem_zipIdx hx)).map fun a b he => by cases he; rfl
  · refine (List.pairwise_map.mp (List.nodup_zipIdx_map_snd seats)).imp ?_
    rintro ⟨rack, i⟩ ⟨rack', j⟩ hij p hp hp'
    obtain ⟨name, _, rfl⟩ := List.mem_map.mp hp
    obtain ⟨name', _, he⟩ := List.mem_map.mp hp'
    cases he
    exact hij rfl

/-- No place of a table is listed twice if no name of a rack is. -/
lemma places_nodup (hs : t.shared.names.Nodup) (hr : ∀ rack ∈ t.seats, (Rack.names rack).Nodup) : t.places.Nodup := by
  refine List.nodup_append.mpr ⟨List.nodup_cons.mpr ⟨by simp, ?_⟩, seatPlaces_nodup hr, ?_⟩
  · exact hs.map fun a b he => by cases he; rfl
  · intro p hp p' hp'
    obtain ⟨x, _, hx⟩ := List.mem_flatMap.mp hp'
    obtain ⟨name, _, rfl⟩ := List.mem_map.mp hx
    rintro rfl
    simp at hp

/-- No place of a new table is listed twice if no name is. -/
lemma places_nodup_of_lay (h : lay deck tableStacks playerStacks players current seed = .ok t) (hs : tableStacks.Nodup)
    (hp : playerStacks.Nodup) : t.places.Nodup := by
  obtain ⟨_, _, rfl⟩ := lay_ok h
  refine places_nodup (by simpa using hs) fun rack hrack => ?_
  rw [List.eq_of_mem_replicate hrack, Rack.names_ofNames]
  exact hp

end Croupier.Table
