import Mathlib.Data.List.Nodup
import Mathlib.Data.List.Perm.Basic
import Croupier.Table

/-!
# Piles and places

What a change at one place does to the piles of a table. A place is there if and only if it has a pile (`mem_places`).
A change at a place sets the pile of that place (`pile_put_self`), leaves every other pile alone (`pile_put_ne`) and
keeps the places (`places_put`). Of two changes at one place the later counts (`put_put`), and changes at two places can
be made in either order (`put_comm`). Nothing here needs the names of the piles to be distinct; but only if a name that
is listed twice is one pile (`Coherent`), nothing changes when a pile is put back where it lies (`put_pile_self`).
-/

namespace Croupier

namespace Rack

/-- A rack has a pile under a name if and only if it lists the name. -/
lemma pile?_isSome {r : Rack} {name : String} : (r.pile? name).isSome ↔ name ∈ r.names := by
  simp [Rack.pile?, Rack.names]

/-- Under a name that is listed the pile is the one that was set there. -/
lemma pile?_set_self {r : Rack} {name : String} (hn : name ∈ r.names) (q : Pile) :
    (r.set name q).pile? name = some q := by
  induction r with
  | nil => simp [Rack.names] at hn
  | cons e r ih =>
    obtain ⟨key, p⟩ := e
    by_cases h : key = name
    · subst h
      simp [Rack.pile?, Rack.set]
    · have hb : (name == key) = false := by simpa using fun he => h he.symm
      have hr : name ∈ Rack.names r := by
        rcases List.mem_cons.mp hn with he | hr
        · exact absurd he.symm h
        · exact hr
      simpa [Rack.pile?, Rack.set, h, List.lookup_cons, hb] using ih hr

/-- Under every other name the pile stays. -/
lemma pile?_set_ne {r : Rack} {name other : String} (hne : other ≠ name) (q : Pile) :
    (r.set name q).pile? other = r.pile? other := by
  induction r with
  | nil => rfl
  | cons e r ih =>
    obtain ⟨key, p⟩ := e
    by_cases h : key = name
    · subst h
      have hb : (other == key) = false := by simpa using hne
      simpa [Rack.pile?, Rack.set, List.lookup_cons, hb] using ih
    · by_cases ho : other = key
      · subst ho
        simp [Rack.pile?, Rack.set, h]
      · have hb : (other == key) = false := by simpa using ho
        simpa [Rack.pile?, Rack.set, h, List.lookup_cons, hb] using ih

/-- Of two piles that are set under one name the later counts. -/
lemma set_set (r : Rack) (name : String) (p q : Pile) : (r.set name p).set name q = r.set name q := by
  unfold Rack.set
  rw [List.map_map]
  refine List.map_congr_left fun e _ => ?_
  by_cases h : e.1 = name <;> simp [h]

/-- Piles can be set under two names in either order. -/
lemma set_comm (r : Rack) {name other : String} (hne : name ≠ other) (p q : Pile) :
    (r.set name p).set other q = (r.set other q).set name p := by
  unfold Rack.set
  rw [List.map_map, List.map_map]
  refine List.map_congr_left fun e _ => ?_
  by_cases h : e.1 = name
  · simp [h, hne]
  · by_cases ho : e.1 = other
    · simp [ho, hne.symm]
    · simp [h, ho]

/-- A name that is listed twice is one pile. -/
def Coherent (r : Rack) : Prop := ∀ e ∈ r, r.pile? e.1 = some e.2

instance (r : Rack) : Decidable r.Coherent := inferInstanceAs (Decidable (∀ e ∈ r, r.pile? e.1 = some e.2))

/-- If a name that is listed twice is one pile, nothing changes when that pile is set there again. -/
lemma Coherent.set_pile {r : Rack} (h : r.Coherent) {name : String} {q : Pile} (hq : r.pile? name = some q) :
    r.set name q = r := by
  have hsame : ∀ e ∈ r, (if e.1 = name then (e.1, q) else e) = id e := by
    intro e he
    split
    · next hn =>
      have hpile := h e he
      rw [hn, hq] at hpile
      cases hpile
      rfl
    · rfl
  exact (List.map_congr_left hsame).trans (List.map_id r)

end Rack

namespace Table

/-- A place is there if and only if it has a pile. -/
lemma mem_places {t : Table} {p : Place} : p ∈ t.places ↔ (t.pile? p).isSome := by
  cases p with
  | deck => simp [places, pile?]
  | shared name => simp [places, seatPlaces, pile?, Rack.pile?_isSome, List.mem_flatMap]
  | seat i name =>
    have hz : (∃ rack, (rack, i) ∈ t.seats.zipIdx ∧ name ∈ rack.names) ↔ ∃ rack, t.seats[i]? = some rack ∧
        name ∈ rack.names := by
      simp [List.mem_zipIdx_iff_getElem?]
    have hp : (t.pile? (.seat i name)).isSome ↔ ∃ rack, t.seats[i]? = some rack ∧ name ∈ rack.names := by
      cases h : t.seats[i]? with
      | none => simp [pile?, h]
      | some rack => simp [pile?, h, Rack.pile?_isSome]
    rw [hp, ← hz]
    simp [places, seatPlaces, List.mem_flatMap]

/-- A table has a deck. -/
@[simp]
lemma deck_mem_places (t : Table) : .deck ∈ t.places := List.mem_cons_self ..

/-- Among the shared places the name of the deck means the deck, whatever stack has the same name. -/
lemma sharedPlace?_eq_some_iff {t : Table} {name : String} {place : Place} :
    t.sharedPlace? name = some place ↔
      name = deckName ∧ place = .deck ∨ name ≠ deckName ∧ .shared name ∈ t.places ∧ place = .shared name := by
  rw [sharedPlace?, mem_places]
  have hpile : t.shared.pile? name = t.pile? (.shared name) := rfl
  rw [hpile]
  split_ifs with hdeck hmem
  · simp only [hdeck, Option.some.injEq, eq_comm, true_and, ne_eq, not_true_eq_false, false_and, or_false]
  · simp only [hdeck, hmem, Option.some.injEq, eq_comm, false_and, ne_eq, not_false_eq_true, true_and, false_or]
  · simp only [hdeck, hmem, reduceCtorEq, false_and, and_false, or_self]

/-- A shared place that is found is there. -/
lemma mem_places_of_sharedPlace? {t : Table} {name : String} {p : Place} (h : t.sharedPlace? name = some p) :
    p ∈ t.places := by
  rcases sharedPlace?_eq_some_iff.mp h with ⟨_, rfl⟩ | ⟨_, hmem, rfl⟩
  · exact deck_mem_places t
  · exact hmem

/-- At a seat a name means the stack of that name, if there is one. -/
lemma seatPlace?_eq_some_iff {t : Table} {i : Nat} {name : String} {place : Place} :
    t.seatPlace? i name = some place ↔ .seat i name ∈ t.places ∧ place = .seat i name := by
  rw [seatPlace?, mem_places]
  split_ifs with hmem
  · simp [hmem, eq_comm]
  · simp [hmem]

/-- A stack at a seat is found under its name. -/
lemma seatPlace?_of_mem {t : Table} {i : Nat} {name : String} (h : .seat i name ∈ t.places) :
    t.seatPlace? i name = some (.seat i name) := seatPlace?_eq_some_iff.mpr ⟨h, rfl⟩

/-- A place at a seat that is found is there. -/
lemma mem_places_of_seatPlace? {t : Table} {i : Nat} {name : String} {p : Place} (h : t.seatPlace? i name = some p) :
    p ∈ t.places := by
  obtain ⟨hmem, rfl⟩ := seatPlace?_eq_some_iff.mp h
  exact hmem

/-- Stacks lie only at the seats of players. -/
lemma lt_players_of_mem {t : Table} {i : Nat} {name : String} (h : .seat i name ∈ t.places) : i < t.players := by
  rw [mem_places] at h
  by_contra hge
  have hnone : t.seats[i]? = none := List.getElem?_eq_none (Nat.not_lt.mp hge)
  simp [pile?, hnone] at h

/-- Players are numbered from one by their seats. -/
lemma seat?_eq_some_iff {t : Table} {id : Int} {i : Nat} : t.seat? id = some i ↔ id = i + 1 ∧ i < t.players := by
  rw [seat?]
  split_ifs with h
  · rw [Option.some.injEq]
    omega
  · simp only [false_iff]
    omega

/-- The places at the seats stay if a pile is set at one of them. -/
lemma seatPlaces_modify (seats : List Rack) (i : Nat) (name : String) (q : Pile) :
    seatPlaces (seats.modify i (·.set name q)) = seatPlaces seats := by
  unfold seatPlaces
  rw [List.flatMap_def, List.flatMap_def]
  congr 1
  apply List.ext_getElem?
  intro j
  simp only [List.getElem?_map, List.getElem?_zipIdx, List.getElem?_modify]
  cases seats[j]? with
  | none => rfl
  | some rack => by_cases h : i = j <;> simp [h]

/-- A change at a place keeps the places. -/
@[simp]
lemma places_put (t : Table) (q : Pile) (p : Place) : (t.put q p).places = t.places := by
  cases p with
  | deck => rfl
  | shared name => simp [places, put]
  | seat i name =>
    unfold places put
    rw [seatPlaces_modify]

/-- A change at a place keeps the names of the shared stacks. -/
@[simp]
lemma shared_names_put (t : Table) (q : Pile) (p : Place) : (t.put q p).shared.names = t.shared.names := by
  cases p with
  | deck => rfl
  | shared name => exact Rack.names_set t.shared name q
  | seat i name => rfl

/-- A change at a place keeps the names of the stacks at every seat. -/
@[simp]
lemma seats_names_put (t : Table) (q : Pile) (p : Place) :
    (t.put q p).seats.map Rack.names = t.seats.map Rack.names := by
  cases p with
  | deck => rfl
  | shared name => rfl
  | seat i name =>
    apply List.ext_getElem?
    intro j
    simp only [put, List.getElem?_map, List.getElem?_modify]
    cases t.seats[j]? with
    | none => rfl
    | some rack => by_cases h : i = j <;> simp [h]

/-- A change at a place keeps the number of players. -/
@[simp]
lemma players_put (t : Table) (q : Pile) (p : Place) : (t.put q p).players = t.players := by
  cases p <;> simp [players, put]

/-- A change at a place keeps the player on turn. -/
@[simp]
lemma current_put (t : Table) (q : Pile) (p : Place) : (t.put q p).current = t.current := by cases p <;> rfl

/-- A change at a place keeps the winners. -/
@[simp]
lemma winners_put (t : Table) (q : Pile) (p : Place) : (t.put q p).winners = t.winners := by cases p <;> rfl

/-- A change at a place does not end the game. -/
@[simp]
lemma ended_put (t : Table) (q : Pile) (p : Place) : (t.put q p).ended = t.ended := by cases p <;> rfl

/-- A change at a place does not pass the turn on. -/
@[simp]
lemma passed_put (t : Table) (q : Pile) (p : Place) : (t.put q p).passed = t.passed := by cases p <;> rfl

/-- A change at a place draws no random number. -/
@[simp]
lemma generator_put (t : Table) (q : Pile) (p : Place) : (t.put q p).generator = t.generator := by cases p <;> rfl

/-- A change at a place keeps the number of cards at the start. -/
@[simp]
lemma initial_put (t : Table) (q : Pile) (p : Place) : (t.put q p).initial = t.initial := by cases p <;> rfl

/-- A change at a place that is there sets its pile. -/
lemma pile_put_self {t : Table} {p : Place} (hp : p ∈ t.places) (q : Pile) : (t.put q p).pile p = q := by
  rw [mem_places] at hp
  cases p with
  | deck => rfl
  | shared name =>
    have hn : name ∈ t.shared.names := Rack.pile?_isSome.mp hp
    simp [pile, pile?, put, Rack.pile?_set_self hn]
  | seat i name =>
    cases hs : t.seats[i]? with
    | none => simp [pile?, hs] at hp
    | some rack =>
      have hn : name ∈ rack.names := by simpa [pile?, hs, Rack.pile?_isSome] using hp
      simp [pile, pile?, put, hs, Rack.pile?_set_self hn]

/-- A change at one place leaves the pile of every other. -/
lemma pile_put_ne {t : Table} {p p' : Place} (hne : p' ≠ p) (q : Pile) : (t.put q p).pile p' = t.pile p' := by
  cases p with
  | deck => cases p' <;> first | rfl | exact absurd rfl hne
  | shared name =>
    cases p' with
    | deck => rfl
    | shared other =>
      have ho : other ≠ name := fun h => hne (h ▸ rfl)
      simp [pile, pile?, put, Rack.pile?_set_ne ho]
    | seat => rfl
  | seat i name =>
    cases p' with
    | deck => rfl
    | shared => rfl
    | seat j other =>
      cases hs : t.seats[j]? with
      | none => simp [pile, pile?, put, List.getElem?_modify, hs]
      | some rack =>
        by_cases hij : i = j
        · have ho : other ≠ name := fun h => hne (by rw [h, hij])
          simp [pile, pile?, put, hs, hij, Rack.pile?_set_ne ho]
        · simp [pile, pile?, put, hs, hij]

/-- Cards that are put on a pile come last in it. -/
lemma pile_push_self {t : Table} {p : Place} (hp : p ∈ t.places) (cs : List Card) :
    (t.push cs p).pile p = t.pile p ++ cs :=
  pile_put_self hp _

/-- Cards that are put on one pile leave every other. -/
lemma pile_push_ne {t : Table} {p p' : Place} (hne : p' ≠ p) (cs : List Card) : (t.push cs p).pile p' = t.pile p' :=
  pile_put_ne hne _

/-- Of two changes at one place the later counts. -/
lemma put_put (t : Table) (p : Place) (q q' : Pile) : (t.put q p).put q' p = t.put q' p := by
  cases p with
  | deck => rfl
  | shared name => simp [put, Rack.set_set]
  | seat i name =>
    simp only [put, List.modify_modify_eq]
    congr 2
    funext rack
    exact Rack.set_set rack name q q'

/-- Changes at two places can be made in either order. -/
lemma put_comm (t : Table) {p p' : Place} (hne : p ≠ p') (q q' : Pile) :
    (t.put q p).put q' p' = (t.put q' p').put q p := by
  cases p with
  | deck => cases p' <;> first | rfl | exact absurd rfl hne
  | shared name =>
    cases p' with
    | deck => rfl
    | shared other =>
      have ho : name ≠ other := fun h => hne (h ▸ rfl)
      simp [put, Rack.set_comm t.shared ho]
    | seat => rfl
  | seat i name =>
    cases p' with
    | deck => rfl
    | shared => rfl
    | seat j other =>
      by_cases hij : i = j
      · subst hij
        have ho : name ≠ other := fun h => hne (by rw [h])
        simp only [put, List.modify_modify_eq]
        congr 2
        funext rack
        exact Rack.set_comm rack ho q q'
      · simp only [put, List.modify_modify_ne _ _ _ hij]

/-- A card is put on a place while cards wait in front of what is left of a pile. What is left then, and the rest of the
table, do not depend on the cards that wait. -/
lemma exists_put_eq_push (t : Table) {source : Place} (hs : source ∈ t.places) (target : Place) (c : Card)
    (left : Pile) : ∃ (t' : Table) (left' : Pile), t'.places = t.places ∧ t'.players = t.players ∧
      ∀ waiting, (t.put (waiting ++ left) source).push [c] target = t'.put (waiting ++ left') source := by
  -- the pile has grown at its end if the card was put on it
  by_cases he : target = source
  · subst he
    refine ⟨t, left ++ [c], rfl, rfl, ?_⟩
    intro waiting
    rw [push, pile_put_self hs, put_put, List.append_assoc]
  · refine ⟨t.push [c] target, left, places_put .., players_put .., ?_⟩
    intro waiting
    rw [push, pile_put_ne he, put_comm _ (Ne.symm he)]
    rfl

/-- A name that is listed twice is one pile. -/
structure Coherent (t : Table) : Prop where
  shared : t.shared.Coherent
  seats : ∀ rack ∈ t.seats, Rack.Coherent rack

/-- Nothing changes when a pile is put back where it lies, if a name that is listed twice is one pile. -/
lemma put_pile_self {t : Table} (h : t.Coherent) {p : Place} (hp : p ∈ t.places) : t.put (t.pile p) p = t := by
  rw [mem_places] at hp
  obtain ⟨q, hq⟩ := Option.isSome_iff_exists.mp hp
  rw [pile, hq, Option.getD_some]
  cases p with
  | deck =>
    cases hq
    rfl
  | shared name => rw [put, h.shared.set_pile hq]
  | seat i name =>
    obtain ⟨rack, hrack, hq⟩ := Option.bind_eq_some_iff.mp hq
    have hset := (h.seats rack (List.mem_of_getElem? hrack)).set_pile hq
    have hseats : t.seats.modify i (·.set name q) = t.seats := by
      apply List.ext_getElem?
      intro j
      rw [List.getElem?_modify]
      by_cases hij : i = j
      · subst hij
        simp [hrack, hset]
      · simp [hij]
    rw [put, hseats]

end Table

end Croupier
