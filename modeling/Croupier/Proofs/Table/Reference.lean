import Mathlib.Data.List.TakeDrop
import Mathlib.Data.List.TakeWhile
import Croupier.Proofs.Numeral
import Croupier.Proofs.Table.Places
import Croupier.Table.Reference

/-!
# What a reference refers to

The deck and the shared stacks are referred to by their names. A stack of a player is referred to by a numeral of the
player, a colon and the name of the stack; a player has many numerals, so a stack has many references (`Table.Refers`).
The place that is found for a text is the one that the text refers to (`Table.find_eq_ok_iff`).
-/

namespace Croupier

/-- A reference is split at its first colon. -/
lemma splitReference_eq_some_iff {ref player name : String} :
    splitReference ref = some (player, name) ↔ ref = player ++ ":" ++ name ∧ ':' ∉ player.toList := by
  have hchars : ref = player ++ ":" ++ name ↔ ref.toList = player.toList ++ ':' :: name.toList := by
    rw [← String.toList_inj, String.toList_append, String.toList_append, List.append_assoc]
    rfl
  rw [hchars, splitReference, List.span_eq_takeWhile_dropWhile]
  constructor
  · intro h
    cases hrest : ref.toList.dropWhile (· ≠ ':') with
    | nil =>
      rw [hrest] at h
      cases h
    | cons c stack =>
      rw [hrest] at h
      cases h
      obtain rfl : c = ':' := by
        have hhead := List.head?_dropWhile_not (· ≠ ':') ref.toList
        rw [hrest] at hhead
        simpa using hhead
      rw [String.toList_ofList, String.toList_ofList, ← hrest]
      refine ⟨List.takeWhile_append_dropWhile.symm, ?_⟩
      intro hmem
      simpa using List.mem_takeWhile_imp hmem
  · rintro ⟨happ, hplayer⟩
    have hbefore : ∀ c ∈ player.toList, decide (c ≠ ':') = true := by
      intro c hc
      exact decide_eq_true fun he => hplayer (he ▸ hc)
    rw [happ, List.takeWhile_append_of_pos hbefore, List.dropWhile_append_of_pos hbefore]
    simp

/-- A reference is not split if and only if it has no colon. -/
lemma splitReference_eq_none_iff {ref : String} : splitReference ref = none ↔ ':' ∉ ref.toList := by
  constructor
  · intro h hmem
    obtain ⟨before, after, happ, hfirst⟩ := List.eq_append_cons_of_mem hmem
    have hsplit : splitReference ref = some (String.ofList before, String.ofList after) := by
      refine splitReference_eq_some_iff.mpr ⟨?_, by simpa using hfirst⟩
      rw [← String.toList_inj, happ]
      simp [String.toList_append]
    rw [h] at hsplit
    cases hsplit
  · intro hmem
    cases h : splitReference ref with
    | none => rfl
    | some parts =>
      obtain ⟨happ, _⟩ := splitReference_eq_some_iff.mp h
      rw [happ] at hmem
      simp [String.toList_append] at hmem

/-- There is no colon in a row of digits. -/
lemma Numeral.IsDigits.colon_notMem {cs : List Char} (h : IsDigits cs) : ':' ∉ cs :=
  fun hmem => absurd (h.isDigit ':' hmem) (by decide)

/-- There is no colon in a numeral. -/
lemma Numeral.Denotes.colon_notMem {cs : List Char} {n : Int} (h : Denotes cs n) : ':' ∉ cs := by
  cases h with
  | unsigned hds => exact hds.colon_notMem
  | plus hds => exact List.not_mem_cons_of_ne_of_not_mem (by decide) hds.colon_notMem
  | minus hds => exact List.not_mem_cons_of_ne_of_not_mem (by decide) hds.colon_notMem

namespace Table

variable {t : Table}

/-- A text refers to a place of a table. -/
inductive Refers (t : Table) : String → Place → Prop where
  | deck : Refers t deckName .deck
  | shared {name : String} : name ≠ deckName → ':' ∉ name.toList → .shared name ∈ t.places →
      Refers t name (.shared name)
  | seat {player name : String} {i : Nat} : Numeral.Denotes player.toList (i + 1) → IsWord (i + 1) →
      .seat i name ∈ t.places → Refers t (player ++ ":" ++ name) (.seat i name)

/-- A place is found for a text if and only if the text refers to it. -/
lemma find_eq_ok_iff {ref : String} {place : Place} : t.find ref = .ok place ↔ t.Refers ref place := by
  constructor
  · intro h
    rw [find] at h
    cases hsplit : splitReference ref with
    | none =>
      simp only [hsplit] at h
      cases hplace : t.sharedPlace? ref with
      | none => simp only [hplace] at h; cases h
      | some found =>
        simp only [hplace] at h
        cases h
        rcases sharedPlace?_eq_some_iff.mp hplace with ⟨rfl, rfl⟩ | ⟨hne, hmem, rfl⟩
        · exact .deck
        · exact .shared hne (splitReference_eq_none_iff.mp hsplit) hmem
    | some parts =>
      obtain ⟨player, name⟩ := parts
      simp only [hsplit] at h
      cases hid : Numeral.readInt? player with
      | none => simp only [hid] at h; cases h
      | some id =>
        simp only [hid] at h
        cases hseat : t.seat? id with
        | none => simp only [hseat] at h; cases h
        | some i =>
          simp only [hseat] at h
          cases hplace : t.seatPlace? i name with
          | none => simp only [hplace] at h; cases h
          | some found =>
            simp only [hplace] at h
            cases h
            obtain ⟨hdenotes, hword⟩ := Numeral.readInt?_eq_some_iff.mp hid
            obtain ⟨rfl, _⟩ := seat?_eq_some_iff.mp hseat
            obtain ⟨hmem, rfl⟩ := seatPlace?_eq_some_iff.mp hplace
            rw [(splitReference_eq_some_iff.mp hsplit).1]
            exact .seat hdenotes hword hmem
  · intro h
    cases h with
    | deck => rfl
    | shared hne hcolon hmem =>
      have hplace := sharedPlace?_eq_some_iff.mpr (.inr ⟨hne, hmem, rfl⟩)
      simp only [find, splitReference_eq_none_iff.mpr hcolon, hplace]
    | @seat player name i hdenotes hword hmem =>
      have hsplit : splitReference (player ++ ":" ++ name) = some (player, name) :=
        splitReference_eq_some_iff.mpr ⟨rfl, hdenotes.colon_notMem⟩
      have hid := Numeral.readInt?_eq_some_iff.mpr ⟨hdenotes, hword⟩
      have hseat := seat?_eq_some_iff.mpr ⟨rfl, lt_players_of_mem hmem⟩
      have hplace := seatPlace?_eq_some_iff.mpr ⟨hmem, rfl⟩
      simp only [find, hsplit, hid, hseat, hplace]

/-- A text refers to one place at most. -/
lemma Refers.eq {ref : String} {place place' : Place} (h : t.Refers ref place) (h' : t.Refers ref place') :
    place = place' := by
  rw [← find_eq_ok_iff] at h h'
  rw [h] at h'
  cases h'
  rfl

/-- What is referred to is a place of the table. -/
lemma Refers.mem_places {ref : String} {place : Place} (h : t.Refers ref place) : place ∈ t.places := by
  cases h with
  | deck => exact deck_mem_places t
  | shared _ _ hmem => exact hmem
  | seat _ _ hmem => exact hmem

end Table

end Croupier
