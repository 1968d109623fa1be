import Mathlib.Data.Multiset.AddSub
import Croupier.Proofs.Run.Subset

/-!
# When values are the same

Every value but a move is compared by something: a truth value and a player by themselves, a number, a symbol and a
function by their text, one card, a set of cards and a pile by the cards that they hold, in any order (`ComparedBy`).
Two things to compare by meet if they are of one kind, and nothing meets everything (`Comparand.meets`). Two values that
are compared by things that meet are the same if and only if these are equal, and other values cannot be compared
(`equal_of_comparedBy`). As equality is an equivalence and meeting is symmetric, so is the comparison of values as far
as it goes.
-/

namespace Croupier

namespace Run

/-- What a value is compared by. -/
inductive Comparand where
  | nothing
  | truth (b : Bool)
  | player (id : Nat)
  | text (s : String)
  | cards (cs : Multiset Card)
  deriving DecidableEq

namespace Comparand

/-- Tells whether two values can be compared by these. -/
def meets : Comparand → Comparand → Bool
  | nothing, _ => true
  | _, nothing => true
  | truth _, truth _ => true
  | player _, player _ => true
  | text _, text _ => true
  | cards _, cards _ => true
  | _, _ => false

/-- Everything meets itself. -/
lemma meets_self (x : Comparand) : x.meets x = true := by
  cases x <;> rfl

/-- To meet goes both ways. -/
lemma meets_comm (x y : Comparand) : x.meets y = y.meets x := by
  cases x <;> cases y <;> rfl

end Comparand

/-- What a value is compared by on a work. -/
inductive ComparedBy (w : Work) (pos : Pos) : Value → Comparand → Prop where
  | empty : ComparedBy w pos .empty .nothing
  | bool (b : Bool) : ComparedBy w pos (.bool b) (.truth b)
  | player (id : Nat) : ComparedBy w pos (.player id) (.player id)
  | number (n : Int) : ComparedBy w pos (.number n) (.text (toString n))
  | symbol (s : String) : ComparedBy w pos (.symbol s) (.text s)
  | function (name : String) : ComparedBy w pos (.function name) (.text name)
  | card (c : Card) : ComparedBy w pos (.card c) (.cards {c})
  | cards (cs : List Card) : ComparedBy w pos (.cards cs) (.cards cs)
  | pile {r : PileRef} {place : Place} : locate r pos w = .ok (place, w) →
    ComparedBy w pos (.pile r) (.cards (w.table.pile place))

/-- A value can be compared on a work: it is not a move, and if it is a pile, then the reference leads to a place. -/
def Comparable (w : Work) (pos : Pos) : Value → Prop
  | .move _ => False
  | .pile r => ∃ place w', locate r pos w = .ok (place, w')
  | _ => True

/-- The refusal to compare two values. -/
def incomparable (a b : Value) (pos : Pos) : Fault :=
  .mismatch "is" "comparable values" (a.kind ++ " and " ++ b.kind) pos

variable {w : Work} {pos : Pos} {a b c : Value} {x y : Comparand}

/-- A value that can be compared is compared by something. -/
lemma Comparable.comparedBy (h : Comparable w pos a) : ∃ x, ComparedBy w pos a x := by
  cases a with
  | empty => exact ⟨_, .empty⟩
  | bool b => exact ⟨_, .bool b⟩
  | number n => exact ⟨_, .number n⟩
  | symbol s => exact ⟨_, .symbol s⟩
  | cards cs => exact ⟨_, .cards cs⟩
  | card c => exact ⟨_, .card c⟩
  | player id => exact ⟨_, .player id⟩
  | move m => exact h.elim
  | pile r =>
    obtain ⟨place, w', hplace⟩ := h
    obtain ⟨rfl, _⟩ := locate_ok hplace
    exact ⟨_, .pile hplace⟩
  | function name => exact ⟨_, .function name⟩

/-- A value that is compared by cards holds them. -/
lemma ComparedBy.heldCards {cs : Multiset Card} (h : ComparedBy w pos a (.cards cs)) :
    ∃ held : List Card, heldCards "is" a pos w = .ok (held, w) ∧ cs = held := by
  cases h with
  | card c => exact ⟨[c], rfl, rfl⟩
  | cards cs => exact ⟨cs, rfl, rfl⟩
  | pile hplace =>
    refine ⟨_, ?_, rfl⟩
    rw [Run.heldCards, bind_of_ok hplace]
    rfl

/-- Values that are compared by their texts are the same if the texts are. -/
lemma equal_texts {s s' : String} (ha : ComparedBy w pos a (.text s)) (hb : ComparedBy w pos b (.text s')) :
    equal a b pos w = .ok (s == s', w) := by
  cases ha <;> cases hb <;> rfl

/-- Values that are compared by their cards are the same if the cards are, in any order. -/
lemma equal_cards {cs cs' : Multiset Card} (ha : ComparedBy w pos a (.cards cs))
    (hb : ComparedBy w pos b (.cards cs')) : equal a b pos w = .ok (decide (cs = cs'), w) := by
  have hequal : equal a b pos = Run.heldCards "is" a pos >>= fun x => Run.heldCards "is" b pos >>= fun y =>
      pure (Pile.same x y) := by
    cases ha <;> cases hb <;> rfl
  obtain ⟨held, hheld, rfl⟩ := ha.heldCards
  obtain ⟨held', hheld', rfl⟩ := hb.heldCards
  have hsame : Pile.same held held' = decide ((held : Multiset Card) = held') := by
    rw [Bool.eq_iff_iff, Pile.same_iff_perm, decide_eq_true_iff, Multiset.coe_eq_coe]
  rw [hequal, bind_of_ok hheld, bind_of_ok hheld', hsame]
  rfl

/-- Values are the same if what they are compared by is equal; what does not meet cannot be compared. -/
lemma equal_of_comparedBy (ha : ComparedBy w pos a x) (hb : ComparedBy w pos b y) :
    equal a b pos w = if x.meets y then .ok (decide (x = y), w) else .error (incomparable a b pos) := by
  cases x with
  | nothing =>
    cases ha
    cases hb <;> rfl
  | truth b =>
    cases ha
    cases hb with
    | bool b' => cases b <;> cases b' <;> rfl
    | _ => rfl
  | player id =>
    cases ha
    cases hb with
    | player id' =>
      show Except.ok (id == id', w) = .ok (decide (Comparand.player id = .player id'), w)
      simp only [Comparand.player.injEq]
      rfl
    | _ => rfl
  | text s =>
    cases y with
    | text s' =>
      rw [equal_texts ha hb]
      simp only [Comparand.meets, Comparand.text.injEq, if_true, beq_eq_decide]
    | _ => cases ha <;> cases hb <;> rfl
  | cards cs =>
    cases y with
    | cards cs' =>
      rw [equal_cards ha hb]
      simp only [Comparand.meets, Comparand.cards.injEq, if_true]
    | _ => cases ha <;> cases hb <;> rfl

/-- Values that are the same are compared by one thing. -/
lemma eq_of_equal (ha : ComparedBy w pos a x) (hb : ComparedBy w pos b y) (h : equal a b pos w = .ok (true, w)) :
    x = y := by
  rw [equal_of_comparedBy ha hb] at h
  split at h
  · have hsame := congrArg Prod.fst (Except.ok.inj h)
    exact of_decide_eq_true hsame
  · cases h

/-- On a work, the comparison of values that can be compared is an equivalence: a value is the same as itself, two
values cannot be compared either way or are compared with one result, and values that are the same as one are the same.
It is the comparison of what values are compared by. -/
theorem is_equivalence (w : Work) (pos : Pos) :
    (∀ a, Comparable w pos a → equal a a pos w = .ok (true, w)) ∧
    (∀ a b, Comparable w pos a → Comparable w pos b →
      (equal a b pos w = .error (incomparable a b pos) ∧ equal b a pos w = .error (incomparable b a pos)) ∨
      ∃ same, equal a b pos w = .ok (same, w) ∧ equal b a pos w = .ok (same, w)) ∧
    (∀ a b c, Comparable w pos a → Comparable w pos b → Comparable w pos c →
      equal a b pos w = .ok (true, w) → equal b c pos w = .ok (true, w) → equal a c pos w = .ok (true, w)) ∧
    ∀ a b x y, ComparedBy w pos a x → ComparedBy w pos b y →
      equal a b pos w = if x.meets y then .ok (decide (x = y), w) else .error (incomparable a b pos) := by
  have hself : ∀ {a b x}, ComparedBy w pos a x → ComparedBy w pos b x → equal a b pos w = .ok (true, w) := by
    intro a b x ha hb
    rw [equal_of_comparedBy ha hb, if_pos x.meets_self, decide_eq_true rfl]
  refine ⟨?_, ?_, ?_, fun a b x y ha hb => equal_of_comparedBy ha hb⟩
  · intro a ha
    obtain ⟨x, hx⟩ := ha.comparedBy
    exact hself hx hx
  · intro a b ha hb
    obtain ⟨x, hx⟩ := ha.comparedBy
    obtain ⟨y, hy⟩ := hb.comparedBy
    rw [equal_of_comparedBy hx hy, equal_of_comparedBy hy hx, y.meets_comm x]
    cases x.meets y with
    | false => exact .inl ⟨rfl, rfl⟩
    | true => exact .inr ⟨decide (x = y), rfl, by simp only [eq_comm, if_true]⟩
  · intro a b c ha hb hc hab hbc
    obtain ⟨x, hx⟩ := ha.comparedBy
    obtain ⟨y, hy⟩ := hb.comparedBy
    obtain ⟨z, hz⟩ := hc.comparedBy
    obtain rfl := eq_of_equal hx hy hab
    obtain rfl := eq_of_equal hy hz hbc
    exact hself hx hz

/-- A table for one player with the seven of spades on a pile. -/
def loneSeven : Work where
  table := ⟨[], [("pile", [⟨⟨7⟩, .spades⟩])], [[]], 0, [], false, false, 1, Table.generatorOf 1⟩

/-- The card is the pile, the pile is a set of one card, and so the card is that set. -/
theorem loneSeven_is_equivalence :
    equal (.card ⟨⟨7⟩, .spades⟩) (.pile (.shared "pile")) .start loneSeven = .ok (true, loneSeven) ∧
      equal (.pile (.shared "pile")) (.cards [⟨⟨7⟩, .spades⟩]) .start loneSeven = .ok (true, loneSeven) ∧
      equal (.card ⟨⟨7⟩, .spades⟩) (.cards [⟨⟨7⟩, .spades⟩]) .start loneSeven = .ok (true, loneSeven) := by
  obtain ⟨_, _, htrans, _⟩ := is_equivalence loneSeven .start
  have hpile : Comparable loneSeven .start (.pile (.shared "pile")) := ⟨.shared "pile", loneSeven, by decide +kernel⟩
  have hcard : equal (.card ⟨⟨7⟩, .spades⟩) (.pile (.shared "pile")) .start loneSeven = .ok (true, loneSeven) := by
    decide +kernel
  have hset : equal (.pile (.shared "pile")) (.cards [⟨⟨7⟩, .spades⟩]) .start loneSeven = .ok (true, loneSeven) := by
    decide +kernel
  exact ⟨hcard, hset, htrans _ _ _ trivial hpile trivial hcard hset⟩

end Run

end Croupier
