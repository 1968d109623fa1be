import Croupier.Number
import Mathlib.Tactic.Lemma
import Mathlib.Tactic.SplitIfs

/-!
# Numerals

A numeral is a row of decimal digits, with a sign in front of it or without. A number is read off a text if and only if
the text is a numeral of the number and the number is a word (`readInt?_eq_some_iff`). A number is written as a numeral
of it (`denotes_toString`), and a numeral is one of only one number (`Denotes.unique`).
-/

namespace Croupier

namespace Numeral

/-- The characters are a row of digits. -/
structure IsDigits (cs : List Char) : Prop where
  ne_nil : cs ≠ []
  isDigit : ∀ c ∈ cs, c.isDigit = true

/-- The characters are a numeral of an integer. -/
inductive Denotes : List Char → Int → Prop where
  | unsigned {cs : List Char} : IsDigits cs → Denotes cs (Nat.ofDigitChars 10 cs 0)
  | plus {cs : List Char} : IsDigits cs → Denotes ('+' :: cs) (Nat.ofDigitChars 10 cs 0)
  | minus {cs : List Char} : IsDigits cs → Denotes ('-' :: cs) (-Nat.ofDigitChars 10 cs 0)

/-- A decimal digit counts what its code is above that of zero. -/
lemma digit?_ten (c : Char) : digit? 10 c = if c.isDigit then some (c.toNat - '0'.toNat) else none := by
  unfold digit?
  by_cases hd : '0'.toNat ≤ c.toNat ∧ c.toNat ≤ '9'.toNat
  · have hlt : c.toNat - '0'.toNat < 10 := by
      have h9 : '9'.toNat = '0'.toNat + 9 := rfl
      omega
    rw [if_pos (Char.isDigit_iff_toNat.mpr hd)]
    simp only [if_pos hd]
    exact Option.filter_eq_some_iff.mpr ⟨rfl, decide_eq_true hlt⟩
  · rw [if_neg (mt Char.isDigit_iff_toNat.mp hd)]
    simp only [if_neg hd]
    -- a letter stands for ten or more
    split_ifs with hlower hupper
    · exact Option.filter_eq_none_iff.mpr (by simp)
    · exact Option.filter_eq_none_iff.mpr (by simp)
    · rfl

/-- Digits are read onto a value if and only if all characters are digits, and the value goes on in decimal. -/
lemma digitsOnto?_eq_some_iff {value n : Nat} {cs : List Char} :
    digitsOnto? 10 value cs = some n ↔ (∀ c ∈ cs, c.isDigit = true) ∧ n = Nat.ofDigitChars 10 cs value := by
  induction cs generalizing value with
  | nil => exact ⟨fun h => ⟨nofun, (Option.some.inj h).symm⟩, fun h => congrArg some h.2.symm⟩
  | cons c cs ih =>
    rw [digitsOnto?, digit?_ten, List.forall_mem_cons, Nat.ofDigitChars_cons, Nat.mul_comm 10 value]
    by_cases hc : c.isDigit = true
    · rw [if_pos hc, Option.bind_eq_bind, Option.bind_some, ih]
      simp only [hc, true_and]
    · rw [if_neg hc]
      simp [hc]

/-- A natural number is read off a text if and only if the text is a row of digits with that value. -/
lemma readNat?_eq_some_iff {n : Nat} {cs : List Char} :
    readNat? 10 cs = some n ↔ IsDigits cs ∧ n = Nat.ofDigitChars 10 cs 0 := by
  unfold readNat?
  cases cs with
  | nil => simpa using fun h : IsDigits [] => absurd rfl h.ne_nil
  | cons c cs =>
    rw [if_neg (by simp), digitsOnto?_eq_some_iff]
    exact and_congr_left fun _ => ⟨fun h => ⟨List.cons_ne_nil c cs, h⟩, IsDigits.isDigit⟩

/-- A number passes as a word if and only if it is one, and it is not changed. -/
lemma word?_eq_some_iff {k n : Int} : word? k = some n ↔ k = n ∧ IsWord n := by
  unfold word?
  split_ifs with hk
  · simpa using fun h => h ▸ hk
  · simpa using fun h => h ▸ hk

/-- A row of digits has no sign in front of it. -/
lemma splitSign_of_isDigits {cs : List Char} (h : IsDigits cs) : splitSign cs = (false, cs) := by
  unfold splitSign
  split
  · exact absurd (h.isDigit _ (List.mem_cons_self)) (by decide)
  · exact absurd (h.isDigit _ (List.mem_cons_self)) (by decide)
  · rfl

/-- A number is read off a text if and only if the text is a numeral of it and it is a word. -/
lemma readInt?_eq_some_iff {s : String} {n : Int} : readInt? s = some n ↔ Denotes s.toList n ∧ IsWord n := by
  unfold readInt?
  generalize s.toList = cs
  simp only [Option.bind_eq_bind, Option.bind_eq_some_iff, readNat?_eq_some_iff, word?_eq_some_iff]
  constructor
  · rintro ⟨k, ⟨hds, rfl⟩, rfl, hword⟩
    refine ⟨?_, hword⟩
    revert hds
    fun_cases splitSign cs with
    | case1 cs => exact .minus
    | case2 cs => exact .plus
    | case3 => exact .unsigned
  · rintro ⟨hd, hword⟩
    cases hd with
    | unsigned hds =>
      rw [splitSign_of_isDigits hds]
      exact ⟨_, ⟨hds, rfl⟩, rfl, hword⟩
    | plus hds => exact ⟨_, ⟨hds, rfl⟩, rfl, hword⟩
    | minus hds => exact ⟨_, ⟨hds, rfl⟩, rfl, hword⟩

/-- A natural number is written as a row of digits. -/
lemma isDigits_repr (n : Nat) : IsDigits n.repr.toList := by
  rw [Nat.toList_repr]
  exact ⟨Nat.toDigits_ne_nil, fun _ hc => Nat.isDigit_of_mem_toDigits (by decide) (by decide) hc⟩

/-- A number is written as a numeral of it. -/
lemma denotes_toString (n : Int) : Denotes (toString n).toList n := by
  rw [Int.toString_eq_repr, Int.repr_eq_if]
  split_ifs with hn
  · have h := Denotes.unsigned (isDigits_repr n.toNat)
    rwa [Nat.toList_repr, Nat.ofDigitChars_ten_toDigits, Int.toNat_of_nonneg hn, ← Nat.toList_repr] at h
  · have h := Denotes.minus (isDigits_repr (-n).toNat)
    rw [Nat.toList_repr, Nat.ofDigitChars_ten_toDigits, ← Nat.toList_repr,
      Int.toNat_of_nonneg (Int.neg_nonneg_of_nonpos (Int.le_of_lt (Int.not_le.mp hn))), Int.neg_neg] at h
    rwa [String.toList_append]

namespace Denotes

variable {cs : List Char} {n m : Int}

/-- A numeral is one of only one number. -/
lemma unique (h : Denotes cs n) (h' : Denotes cs m) : n = m := by
  cases h with
  | unsigned hds =>
    cases h' with
    | unsigned _ => rfl
    | plus _ => exact absurd (hds.isDigit '+' List.mem_cons_self) (by decide)
    | minus _ => exact absurd (hds.isDigit '-' List.mem_cons_self) (by decide)
  | plus _ =>
    cases h' with
    | unsigned hds => exact absurd (hds.isDigit '+' List.mem_cons_self) (by decide)
    | plus _ => rfl
  | minus _ =>
    cases h' with
    | unsigned hds => exact absurd (hds.isDigit '-' List.mem_cons_self) (by decide)
    | minus _ => rfl

/-- A numeral holds digits and signs only. -/
lemma mem (h : Denotes cs n) {c : Char} (hc : c ∈ cs) : c.isDigit = true ∨ c = '+' ∨ c = '-' := by
  cases h with
  | unsigned hds => exact .inl (hds.isDigit c hc)
  | plus hds =>
    rcases List.mem_cons.mp hc with rfl | hc
    · exact .inr (.inl rfl)
    · exact .inl (hds.isDigit c hc)
  | minus hds =>
    rcases List.mem_cons.mp hc with rfl | hc
    · exact .inr (.inr rfl)
    · exact .inl (hds.isDigit c hc)

end Denotes

/-- What is no digit does not occur in a natural number. -/
lemma notMem_repr {c : Char} (hc : c.isDigit = false) (n : Nat) : c ∉ n.repr.toList := by
  intro h
  rw [(isDigits_repr n).isDigit c h] at hc
  exact Bool.noConfusion hc

/-- Natural numbers that are written alike are the same. -/
lemma repr_inj {n m : Nat} (h : n.repr = m.repr) : n = m := by
  have hdigits := congrArg (Nat.ofDigitChars 10 ·.toList 0) h
  simpa only [Nat.toList_repr, Nat.ofDigitChars_ten_toDigits] using hdigits

/-- Integers that are written alike are the same. -/
lemma toString_inj {n m : Int} (h : toString n = toString m) : n = m := by
  have hn := denotes_toString n
  rw [h] at hn
  exact hn.unique (denotes_toString m)

end Numeral

end Croupier
