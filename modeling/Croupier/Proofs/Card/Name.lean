import Mathlib.Data.List.Basic
import Croupier.Card
import Croupier.Proofs.Numeral
import Croupier.Proofs.Text.Parts

/-!
# The names of cards

A card can be told from its name, whatever numbers its rank and its suit have (`name_injective`). The name of a rank and
that of a suit are words of letters, digits and a few signs (`isNameChar`), and a blank stands between the two; so a
name of a card is not empty, and it can stand between commas, bars and line ends (`notMem_name`).
-/

namespace Croupier

/-- The characters in the name of a rank or a suit. -/
def isNameChar (c : Char) : Bool := c.isAlpha || c.isDigit || c = '_' || c = '-' || c = '+'

/-- Digits and signs of a number may stand in a name. -/
lemma isNameChar_of_mem_toString {n : Int} {c : Char} (h : c ∈ (toString n).toList) : isNameChar c = true := by
  rcases (Numeral.denotes_toString n).mem h with hd | rfl | rfl
  · simp [isNameChar, hd]
  · rfl
  · rfl

namespace Rank

/-- The ranks that a deck contains, from the ace to the king. -/
def standard : List Rank := (List.range' 1 13).map fun n => ⟨(n : Nat)⟩

/-- A rank for which the test holds is one of those listed. -/
lemma mem_standard {r : Rank} (h : r.isStandard = true) : r ∈ standard := by
  obtain ⟨n⟩ := r
  simp only [isStandard, Bool.and_eq_true, decide_eq_true_eq] at h
  refine List.mem_map.mpr ⟨n.toNat, List.mem_range'_1.mpr (by omega), ?_⟩
  rw [Int.toNat_of_nonneg (by omega)]

/-- A rank that no deck contains is named by its number. -/
lemma name_of_not_standard {r : Rank} (h : r.isStandard = false) : r.name = "RANK_" ++ toString r.number := by
  simp only [isStandard, Bool.and_eq_false_iff, decide_eq_false_iff_not] at h
  unfold name
  split_ifs <;> first | omega | rfl

/-- The ranks of a deck have different names. -/
lemma name_inj_standard : ∀ r ∈ standard, ∀ r' ∈ standard, r.name = r'.name → r = r' := by decide +kernel

/-- No rank of a deck has a name that starts as a numbered one does. -/
lemma head?_name_standard : ∀ r ∈ standard, r.name.toList.head? ≠ some 'R' := by decide +kernel

/-- The names of the ranks of a deck are words. -/
lemma all_isNameChar_standard : ∀ r ∈ standard, r.name.toList.all isNameChar = true := by decide +kernel

/-- The name of a rank that no deck contains starts with its letter. -/
lemma head?_name_of_not_standard {r : Rank} (h : r.isStandard = false) : r.name.toList.head? = some 'R' := by
  rw [name_of_not_standard h, String.toList_append]
  rfl

/-- A rank can be told from its name: from the word if a deck contains it, and else from the number. -/
lemma name_injective : Function.Injective name := by
  intro r r' h
  cases hr : r.isStandard with
  | true =>
    cases hr' : r'.isStandard with
    | true => exact name_inj_standard r (mem_standard hr) r' (mem_standard hr') h
    | false =>
      have hhead := head?_name_standard r (mem_standard hr)
      rw [h] at hhead
      exact absurd (head?_name_of_not_standard hr') hhead
  | false =>
    cases hr' : r'.isStandard with
    | true =>
      have hhead := head?_name_standard r' (mem_standard hr')
      rw [← h] at hhead
      exact absurd (head?_name_of_not_standard hr) hhead
    | false =>
      rw [name_of_not_standard hr, name_of_not_standard hr'] at h
      have hnumber := Numeral.toString_inj (String.append_right_inj _ |>.mp h)
      cases r
      cases r'
      exact congrArg Rank.mk hnumber

/-- The name of a rank is a word. -/
lemma isNameChar_of_mem {r : Rank} {c : Char} (h : c ∈ r.name.toList) : isNameChar c = true := by
  cases hr : r.isStandard with
  | true => exact List.all_eq_true.mp (all_isNameChar_standard r (mem_standard hr)) c h
  | false =>
    rw [name_of_not_standard hr, String.toList_append, List.mem_append] at h
    rcases h with h | h
    · exact List.all_eq_true.mp (by decide : "RANK_".toList.all isNameChar = true) c h
    · exact isNameChar_of_mem_toString h

end Rank

namespace Suit

/-- The name of a suit that no deck contains starts with its letter. -/
lemma head?_name_other (n : Int) : (other n).name.toList.head? = some 'S' := by
  rw [name, String.toList_append]
  rfl

/-- A suit can be told from its name. -/
lemma name_injective : Function.Injective name := by
  -- only the names of other suits start with a capital
  have hother : ∀ n : Int, ∀ s ∈ all, s.name ≠ (other n).name := by
    intro n s hs h
    have hhead : ∀ s ∈ all, s.name.toList.head? ≠ some 'S' := by decide
    apply hhead s hs
    rw [h, head?_name_other]
  have hall : ∀ s ∈ all, ∀ s' ∈ all, s.name = s'.name → s = s' := by decide
  intro s s' h
  cases s with
  | other n =>
    cases s' with
    | other n' => rw [Numeral.toString_inj (String.append_right_inj _ |>.mp h)]
    | _ => exact absurd h.symm (hother n _ (by decide))
  | _ =>
    cases s' with
    | other n' => exact absurd h (hother n' _ (by decide))
    | _ => exact hall _ (by decide) _ (by decide) h

/-- The name of a suit is a word. -/
lemma isNameChar_of_mem {s : Suit} {c : Char} (h : c ∈ s.name.toList) : isNameChar c = true := by
  cases s with
  | other n =>
    rw [name, String.toList_append, List.mem_append] at h
    rcases h with h | h
    · exact List.all_eq_true.mp (by decide : "SUIT_".toList.all isNameChar = true) c h
    · exact isNameChar_of_mem_toString h
  | _ =>
    have hall : ∀ s ∈ all, s.name.toList.all isNameChar = true := by decide
    exact List.all_eq_true.mp (hall _ (by decide)) c h

end Suit

namespace Card

/-- The name of a card is that of its rank and that of its suit with a blank between them. -/
lemma toList_name (c : Card) : c.name.toList = c.rank.name.toList ++ ' ' :: c.suit.name.toList := by
  rw [name, String.toList_append, String.toList_append, List.append_assoc]
  rfl

/-- The blank is always in the name of a card. -/
lemma name_ne_empty (c : Card) : c.name ≠ "" := by
  intro h
  have hlist := toList_name c
  rw [h] at hlist
  exact absurd hlist.symm (List.append_ne_nil_of_right_ne_nil _ (List.cons_ne_nil _ _))

/-- A card can be told from its name, since there is no blank in the name of a rank. -/
lemma name_injective : Function.Injective name := by
  have hblank (r : Rank) : ' ' ∉ r.name.toList := fun h => Bool.noConfusion (Rank.isNameChar_of_mem h)
  intro c c' h
  have hlist := congrArg String.toList h
  rw [toList_name, toList_name] at hlist
  obtain ⟨hrank, hsuit⟩ := Text.cut_inj (hblank c.rank) (hblank c'.rank) hlist
  cases c
  cases c'
  exact congrArg₂ Card.mk (Rank.name_injective (String.toList_injective hrank))
    (Suit.name_injective (String.toList_injective hsuit))

/-- A character that is no part of a word and no blank is not in the name of a card. -/
lemma notMem_name {x : Char} (hx : isNameChar x = false) (hblank : x ≠ ' ') (c : Card) : x ∉ c.name.toList := by
  rw [toList_name, List.mem_append, List.mem_cons]
  rintro (h | h | h)
  · rw [Rank.isNameChar_of_mem h] at hx
    exact Bool.noConfusion hx
  · exact hblank h
  · rw [Suit.isNameChar_of_mem h] at hx
    exact Bool.noConfusion hx

end Card

end Croupier
