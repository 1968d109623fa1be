import Mathlib.Data.List.Perm.Subperm
import Mathlib.Data.Multiset.Defs
import Croupier.Pile

/-!
# Sets of cards

As sets of cards piles are multisets. A tally that was counted off a pile covers a list of cards if and only if the pile
holds each of them often enough (`covers_iff`), and what is left out by a tally are the cards that come first
(`leaveOut_eq_diff`, `leaveOut_eq_spared`). So to remove cards from a pile is to take the difference of two multisets,
where the pile keeps its order (`removal_is_difference`).
-/

namespace Croupier

namespace Tally

variable {t : Tally} {c d : Card} {cs : List Card}

/-- A tally in which one count is set has that count, and the others as before. -/
@[simp]
lemma get_set (n : Nat) : get (t.set c n) d = if d = c then n else t.get d := by
  unfold get
  rw [Dictionary.lookup_set]
  split <;> rfl

/-- To cross off a card makes its count less by one and leaves the others. -/
lemma get_cross : (t.cross c).get d = if d = c then t.get c - 1 else t.get d := get_set _

/-- A tally counts how often a card occurs. -/
lemma get_ofCards (cs : List Card) (c : Card) : (ofCards cs).get c = cs.count c := by
  have hcount : ∀ t : Tally, (cs.foldl (fun t c => t.set c (t.get c + 1)) t).get c = t.get c + cs.count c := by
    induction cs with
    | nil => exact fun t => rfl
    | cons d cs ih =>
      intro t
      rw [List.foldl_cons, ih, get_set, List.count_cons]
      by_cases h : c = d
      · subst h
        simp only [if_true, beq_self_eq_true]
        omega
      · rw [if_neg h, if_neg (by simpa using Ne.symm h)]
        rfl
  exact (hcount []).trans (Nat.zero_add _)

/-- Cards can be crossed off if and only if there are enough of each. -/
lemma covers_iff : t.covers cs = true ↔ ∀ c, cs.count c ≤ t.get c := by
  induction cs generalizing t with
  | nil => exact iff_of_true rfl fun c => Nat.zero_le _
  | cons d cs ih =>
    rw [covers]
    split
    · next hd =>
      refine iff_of_false Bool.false_ne_true fun h => ?_
      have hle := h d
      rw [List.count_cons_self, hd] at hle
      exact Nat.not_succ_le_zero _ hle
    · next hd =>
      rw [ih]
      refine forall_congr' fun c => ?_
      rw [get_cross, List.count_cons]
      by_cases h : c = d
      · subst h
        simp only [if_true, beq_self_eq_true]
        omega
      · rw [if_neg h, if_neg (by simpa using Ne.symm h)]
        rfl

/-- What a tally of some cards leaves out is what they take away from a pile. -/
lemma leaveOut_eq_diff {p : Pile} (h : ∀ c, t.get c = cs.count c) : t.leaveOut p = p.diff cs := by
  induction p generalizing t cs with
  | nil => exact (List.nil_diff cs).symm
  | cons a p ih =>
    rw [leaveOut, List.cons_diff]
    have hmem : 0 < t.get a ↔ a ∈ cs := by rw [h, List.count_pos_iff]
    by_cases ha : a ∈ cs
    · rw [if_pos ha, if_pos (hmem.mpr ha)]
      apply ih
      intro c
      rw [get_cross, h, h, List.count_erase]
      by_cases hc : c = a
      · subst hc
        simp
      · rw [if_neg hc, if_neg (by simpa using Ne.symm hc)]
        rfl
    · rw [if_neg ha, if_neg (mt hmem.mp ha), ih h]

end Tally

namespace Pile

/-- The cards of a pile before which there are as many like them as in a list. -/
def spared (p : Pile) (cs : List Card) : Pile :=
  (p.zipIdx.filter fun e => cs.count e.1 ≤ (p.take e.2).count e.1).map (·.1)

end Pile

/-- A tally leaves out a card as long as there have not been enough like it. -/
lemma Tally.leaveOut_eq_spared {t : Tally} {cs : List Card} {p : Pile} (h : ∀ c, t.get c = cs.count c) :
    t.leaveOut p = p.spared cs := by
  -- the induction is on what is left of the pile; `seen` is the part of it that has been gone through
  suffices hseen : ∀ (seen : Pile) (t : Tally), (∀ c, t.get c = cs.count c - seen.count c) → t.leaveOut p =
      ((p.zipIdx seen.length).filter fun e => cs.count e.1 ≤ ((seen ++ p).take e.2).count e.1).map (·.1) by
    exact hseen [] t h
  clear h t
  induction p with
  | nil => exact fun _ _ _ => rfl
  | cons a p ih =>
    intro seen t h
    have hrest := ih (seen ++ [a])
    rw [List.append_assoc, List.length_append] at hrest
    rw [leaveOut, List.zipIdx_cons, List.filter_cons, List.take_left, h]
    by_cases ha : cs.count a ≤ seen.count a
    · rw [if_neg (by omega), if_pos (decide_eq_true ha), List.map_cons]
      refine congrArg (a :: ·) (hrest t fun c => ?_)
      rw [h, List.count_append]
      by_cases hc : c = a
      · subst hc
        omega
      · rw [List.count_singleton, if_neg (by simpa using Ne.symm hc)]
        rfl
    · rw [if_pos (by omega), if_neg (by simpa using ha)]
      refine hrest _ fun c => ?_
      rw [get_cross, h, h, List.count_append]
      by_cases hc : c = a
      · subst hc
        rw [if_pos rfl, List.count_singleton_self]
        omega
      · rw [if_neg hc, List.count_singleton, if_neg (by simpa using Ne.symm hc)]
        rfl

namespace Pile

variable {cs : List Card} {p q rest : Pile}

/-- A pile includes cards if and only if it holds each of them often enough. -/
lemma includes_iff : includes p cs = true ↔ ∀ c, cs.count c ≤ p.count c := by
  rw [includes, Bool.and_eq_true, decide_eq_true_iff, Tally.covers_iff]
  simp only [Tally.get_ofCards]
  refine ⟨And.right, fun h => ⟨?_, h⟩⟩
  -- there are not more cards than in the pile, so the length decides nothing
  exact (List.subperm_ext_iff.mpr fun c _ => h c).length_le

/-- What remains when cards are removed is the difference, if the pile holds each of them often enough. -/
lemma remove?_eq_some_iff : remove? cs p = some rest ↔ (∀ c, cs.count c ≤ p.count c) ∧ rest = p.diff cs := by
  rw [← includes_iff, ← Tally.leaveOut_eq_diff (Tally.get_ofCards cs), remove?]
  split
  · next h => simp only [h, Option.some.injEq, true_and, eq_comm]
  · next h => simp only [h, reduceCtorEq, false_and]

/-- Cards can be removed from a pile if and only if it holds each of them often enough. -/
lemma remove?_isSome_iff : (remove? cs p).isSome ↔ ∀ c, cs.count c ≤ p.count c := by
  simp only [Option.isSome_iff_exists, remove?_eq_some_iff, exists_and_left, exists_eq, and_true]

/-- The cards removed and the cards that remain are the pile. -/
lemma perm_of_remove? (h : remove? cs p = some rest) : (cs ++ rest).Perm p := by
  obtain ⟨hcount, rfl⟩ := remove?_eq_some_iff.mp h
  exact List.subperm_append_diff_self_of_count_le fun c _ => hcount c

/-- The cards that remain keep their order. -/
lemma sublist_of_remove? (h : remove? cs p = some rest) : rest.Sublist p := by
  obtain ⟨_, rfl⟩ := remove?_eq_some_iff.mp h
  exact List.diff_sublist p cs

/-- To take out one card is to erase it where it comes first. -/
lemma remove?_singleton {c : Card} : remove? [c] p = some rest ↔ c ∈ p ∧ rest = p.erase c := by
  have hcount : (∀ d, [c].count d ≤ p.count d) ↔ c ∈ p := by
    constructor
    · intro h
      have hc := h c
      rw [List.count_singleton_self] at hc
      exact List.count_pos_iff.mp hc
    · intro h d
      exact (List.singleton_sublist.mpr h).count_le d
  rw [remove?_eq_some_iff, hcount, List.diff_cons, List.diff_nil]

/-- Two piles hold the same cards if and only if one is the other in some order. -/
lemma same_iff_perm : same p q = true ↔ p.Perm q := by
  rw [same, Bool.and_eq_true, beq_iff_eq, includes_iff]
  constructor
  · rintro ⟨hlength, hcount⟩
    have hsub : p.Subperm q := List.subperm_ext_iff.mpr fun c _ => hcount c
    exact hsub.perm_of_length_le (Nat.le_of_eq hlength.symm)
  · intro h
    exact ⟨h.length_eq, fun c => Nat.le_of_eq (h.count_eq c)⟩

/-- Cards can be removed from a pile if and only if they are contained in it as a multiset, and this is what it means
that the pile includes them. What remains then is the difference: of every card the first ones are gone, as many as
there were to be removed; so the others keep their order, and with the cards removed they are the pile. If a card is
missing, the pile stays as it is. Two piles hold the same cards if and only if one is the other in some order. -/
theorem removal_is_difference (s cs : Pile) :
    ((remove? cs s).isSome = true ↔ (cs : Multiset Card) ≤ s) ∧
    (includes s cs = true ↔ (cs : Multiset Card) ≤ s) ∧
    (∀ rest, remove? cs s = some rest →
      rest = s.diff cs ∧ rest = s.spared cs ∧ rest.Sublist s ∧ (rest ++ cs).Perm s) ∧
    (¬ (cs : Multiset Card) ≤ s → (remove? cs s).getD s = s) ∧
    ∀ a b : Pile, same a b = true ↔ a.Perm b := by
  have hcontained : (cs : Multiset Card) ≤ s ↔ ∀ c, cs.count c ≤ s.count c := by
    rw [Multiset.coe_le]
    exact ⟨fun h c => h.count_le c, fun h => List.subperm_ext_iff.mpr fun c _ => h c⟩
  refine ⟨remove?_isSome_iff.trans hcontained.symm, includes_iff.trans hcontained.symm, ?_, ?_, ?_⟩
  · intro rest h
    have hdiff := (remove?_eq_some_iff.mp h).2
    have hspared : s.diff cs = s.spared cs :=
      (Tally.leaveOut_eq_diff (Tally.get_ofCards cs)).symm.trans (Tally.leaveOut_eq_spared (Tally.get_ofCards cs))
    exact ⟨hdiff, hdiff.trans hspared, sublist_of_remove? h, List.perm_append_comm.trans (perm_of_remove? h)⟩
  · intro h
    have hnone : remove? cs s = none := by
      rw [hcontained, ← remove?_isSome_iff] at h
      exact Option.not_isSome_iff_eq_none.mp h
    rw [hnone, Option.getD_none]
  · intro a b
    exact same_iff_perm

/-- Of three queens, between which a king lies, the first two are taken out. -/
example : remove? [.ofCodes 12 0, .ofCodes 12 0]
    [.ofCodes 12 0, .ofCodes 13 1, .ofCodes 12 0, .ofCodes 12 0] = some [.ofCodes 13 1, .ofCodes 12 0] := by decide

end Pile

end Croupier
