import Croupier.Card
import Croupier.Dictionary
import Croupier.Random

/-!
# Piles

A pile is an ordered list of cards: cards are taken from its front and put on its end. As a set of cards a pile counts
how often each card occurs and forgets the order; a tally keeps the count.
-/

namespace Croupier

/-- How many of each card there are. There are none of a card that is not listed. -/
abbrev Tally := Dictionary Card Nat

namespace Tally

/-- The number of a card. -/
def get (t : Tally) (c : Card) : Nat := (t.lookup c).getD 0

/-- Counts cards. -/
def ofCards (cs : List Card) : Tally := cs.foldl (fun t c => t.set c (t.get c + 1)) []

/-- Crosses a card off. -/
def cross (c : Card) (t : Tally) : Tally := t.set c (t.get c - 1)

/-- Tells whether cards can be crossed off one after the other. -/
def covers (t : Tally) : List Card → Bool
  | [] => true
  | c :: cs => if t.get c = 0 then false else covers (t.cross c) cs

/-- Leaves out the cards that can be crossed off. -/
def leaveOut (t : Tally) : List Card → List Card
  | [] => []
  | c :: cs => if 0 < t.get c then leaveOut (t.cross c) cs else c :: leaveOut t cs

end Tally

/-- An ordered pile of cards, the first to be taken in front. -/
abbrev Pile := List Card

namespace Pile

/-- Takes the first `n` cards: the cards taken and those left. There is no answer if `n` is negative or there are too few. -/
def take? (n : Int) (p : Pile) : Option (Pile × Pile) :=
  if n < 0 ∨ (p.length : Int) < n then none else some (p.splitAt n.toNat)

/-- Tells whether every card occurs in the pile at least as often as in the list. -/
def includes (p : Pile) (cs : List Card) : Bool := cs.length ≤ p.length && (Tally.ofCards p).covers cs

/-- Takes out the given cards, each at its first place. There is no answer unless all are there. -/
def remove? (cs : List Card) (p : Pile) : Option Pile :=
  if includes p cs then some ((Tally.ofCards cs).leaveOut p) else none

/-- Tells whether two piles hold the same cards in any order. -/
def same (p q : Pile) : Bool := p.length == q.length && includes q p

/-- Nothing is lost when cards are taken. -/
theorem append_of_take? {n : Int} {p taken left : Pile} (h : take? n p = some (taken, left)) : taken ++ left = p := by
  unfold take? at h
  split at h
  · cases h
  · simp only [List.splitAt_eq, Option.some.injEq, Prod.mk.injEq] at h
    obtain ⟨rfl, rfl⟩ := h
    exact List.take_append_drop _ _

end Pile

end Croupier
