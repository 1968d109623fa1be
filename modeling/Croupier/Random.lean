/-!
# Random numbers

A permuted congruential generator with 128 bits of state and 64 bits of output. Numbers below a bound are drawn without
bias: a power of two takes the low bits of one draw, and any other bound takes the high half of a product and draws
again in the rare case that the low half is too small. A shuffle goes from the last card down to the second, and swaps
each with a card drawn from those up to it.
-/

namespace Croupier

/-- The state of a generator. -/
structure Generator where
  state : BitVec 128
  deriving DecidableEq, Repr

namespace Generator

/-- A generator from the high and the low half of its first state. -/
def ofSeeds (high low : UInt64) : Generator := ⟨high.toBitVec ++ low.toBitVec⟩

/-- The factor of a step. -/
def multiplier : BitVec 128 := 2549297995355413924#64 ++ 4865540595714422341#64

/-- The summand of a step. -/
def increment : BitVec 128 := 6364136223846793005#64 ++ 1442695040888963407#64

/-- The state after one draw. -/
def step (g : Generator) : Generator := ⟨g.state * multiplier + increment⟩

/-- The number that a state stands for. -/
def output (g : Generator) : UInt64 :=
  let high : UInt64 := ⟨(g.state >>> 64).setWidth 64⟩
  let low : UInt64 := ⟨g.state.setWidth 64⟩
  let mixed := (high ^^^ (high >>> 32)) * 0xda942042e4dd58b5
  (mixed ^^^ (mixed >>> 48)) * (low ||| 1)

/-- Draws a number below `2 ^ 64`. -/
def next (g : Generator) : Nat × Generator := (g.step.output.toNat, g.step)

/-- Draws until the low half of the product with `n` is not among the `surplus` smallest; gives the high half. -/
def belowFrom (n surplus : Nat) : Nat → Generator → Nat × Generator
  | 0, g => (0, g)
  | draws + 1, g =>
    let (draw, g) := g.next
    if draw * n % 0x10000000000000000 < surplus then belowFrom n surplus draws g
    else (draw * n / 0x10000000000000000, g)

/-- The number of different states, `2 ^ 128`; a generator that has been through them all starts again. -/
def period : Nat := 1 <<< 128

/-- Draws a number below `n`, which is positive and at most `2 ^ 64`. -/
def below (n : Nat) (g : Generator) : Nat × Generator :=
  if n &&& (n - 1) = 0 then
    let (draw, g) := g.next
    (draw % n, g)
  else belowFrom n (0x10000000000000000 % n) period g

/-- Shuffles the first `i + 1` elements. -/
def shuffleFrom {α : Type} : Nat → Array α → Generator → Array α × Generator
  | 0, xs, g => (xs, g)
  | i + 1, xs, g =>
    let (j, g) := g.below (i + 2)
    shuffleFrom i (xs.swapIfInBounds (i + 1) j) g

/-- Shuffles a list. -/
def shuffle {α : Type} (xs : List α) (g : Generator) : List α × Generator :=
  let (ys, g) := shuffleFrom (xs.length - 1) xs.toArray g
  (ys.toList, g)

end Generator

end Croupier
