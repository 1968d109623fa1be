/-!
# Numbers in double precision

A number in double precision is a whole number below `2 ^ 53`, taken times a power of two. A decimal fraction stands for
the nearest of these numbers, and for the even one of two that are equally near. A number is written with the fewest
digits that stand for it.
-/

namespace Croupier

/-- A number in double precision without its sign: `mantissa * 2 ^ exponent`. -/
structure Double where
  mantissa : Nat
  exponent : Int
  deriving DecidableEq, Repr

namespace Double

/-- Zero. -/
def zero : Double := ⟨0, 0⟩

/-- The least exponent. -/
def leastExponent : Int := -1074

/-- The greatest exponent. -/
def greatestExponent : Int := 971

/-- The whole number that is nearest to a quotient, and the even one of two that are equally near. -/
def divEven (num den : Nat) : Nat :=
  let twice := 2 * (num % den)
  if twice < den ∨ (twice = den ∧ num / den % 2 = 0) then num / den else num / den + 1

/-- A quotient times a power. -/
def timesPower (base : Nat) (exponent : Int) (num den : Nat) : Nat × Nat :=
  if 0 ≤ exponent then (num * base.pow exponent.toNat, den) else (num, den * base.pow (-exponent).toNat)

/-- The exponent of the power of two that a positive quotient is measured by, so that it has fifty-three digits in base
two, or fewer if the exponent is the least one. -/
def exponentOf (num den : Nat) : Int :=
  let low : Int := max ((num.log2 : Int) - den.log2 - 53) leastExponent
  let (n, d) := timesPower 2 (-low) num den
  if n / d < 0x20000000000000 then low else low + 1

/-- The number that is nearest to a positive quotient, unless the quotient is too great. -/
def nearest? (num den : Nat) : Option Double :=
  let exponent := exponentOf num den
  let (n, d) := timesPower 2 (-exponent) num den
  let mantissa := divEven n d
  let found : Double := if mantissa < 0x20000000000000 then ⟨mantissa, exponent⟩ else ⟨mantissa / 2, exponent + 1⟩
  if found.exponent ≤ greatestExponent then some found else none

/-- The number that `digits * 10 ^ exponent` stands for, unless that is too great. -/
def ofDecimal? (digits : Nat) (exponent : Int) : Option Double :=
  let size : Int := (Nat.toDigits 10 digits).length + exponent
  if digits = 0 ∨ size < -330 then some zero
  else if 310 < size then none
  else
    let (num, den) := timesPower 10 exponent digits 1
    nearest? num den

/-- The whole part. -/
def whole (x : Double) : Nat :=
  let (num, den) := timesPower 2 x.exponent x.mantissa 1
  num / den

/-- The number of decimal digits before the point of a positive quotient. Zeros after the point count negatively. -/
def decimalSize (num den : Nat) : Int :=
  if den ≤ num then (Nat.toDigits 10 (num / den)).length else 1 - ((Nat.toDigits 10 (den / num)).length : Int)

/-- The decimal fraction with a given number of digits that stands for a number, if there is one. Of two, it is the one
that is nearer. -/
def withDigits? (x : Double) (count : Nat) : Option (Nat × Int) :=
  let (num, den) := timesPower 2 x.exponent x.mantissa 1
  let exponent := decimalSize num den - count
  let (n, d) := timesPower 10 (-exponent) num den
  let near := divEven n d
  let far := if near = n / d then near + 1 else n / d
  ([near, far].find? fun digits => ofDecimal? digits exponent = some x).map fun digits => (digits, exponent)

/-- The decimal fraction with the fewest digits that stands for a number. -/
def shortest (x : Double) : Nat × Int :=
  if x.mantissa = 0 then (0, 0) else ((List.range 17).findSome? fun n => x.withDigits? (n + 1)).getD (0, 0)

end Double

end Croupier
