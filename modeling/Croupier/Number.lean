/-!
# Numbers

The numbers of a card game are signed 64-bit words: a sum or a product that leaves the range comes back at the other
end. Words are kept as integers and brought back into range by `wrap`, so that statements about them are statements
about integers. A numeral is read by `readInt?`, which takes an optional sign and decimal digits and refuses what does
not fit in a word.
-/

namespace Croupier

/-- The signed 64-bit word congruent to `n` modulo `2 ^ 64`. -/
def wrap (n : Int) : Int := n.bmod 0x10000000000000000

/-- The integers that a word can hold: from `-2 ^ 63` up to `2 ^ 63 - 1`. -/
def IsWord (n : Int) : Prop := -0x8000000000000000 ≤ n ∧ n < 0x8000000000000000

instance (n : Int) : Decidable (IsWord n) := by unfold IsWord; infer_instance

/-- An integer in range is its own word. -/
theorem wrap_of_isWord {n : Int} (h : IsWord n) : wrap n = n := by
  unfold IsWord at h
  unfold wrap
  exact Int.bmod_eq_of_le (by omega) (by omega)

/-- Wrapping always gives a word. -/
theorem isWord_wrap (n : Int) : IsWord (wrap n) := by
  unfold wrap IsWord
  have h₁ := @Int.le_bmod n 0x10000000000000000 (by decide)
  have h₂ := @Int.bmod_lt n 0x10000000000000000 (by decide)
  constructor <;> omega

namespace Numeral

/-- The value of a digit in a base up to sixteen. -/
def digit? (base : Nat) (c : Char) : Option Nat :=
  let n := c.toNat
  let value :=
    if '0'.toNat ≤ n ∧ n ≤ '9'.toNat then some (n - '0'.toNat)
    else if 'a'.toNat ≤ n ∧ n ≤ 'f'.toNat then some (n - 'a'.toNat + 10)
    else if 'A'.toNat ≤ n ∧ n ≤ 'F'.toNat then some (n - 'A'.toNat + 10)
    else none
  value.filter (· < base)

/-- Reads digits onto a value already read. -/
def digitsOnto? (base : Nat) : Nat → List Char → Option Nat
  | value, [] => some value
  | value, c :: cs => do digitsOnto? base (value * base + (← digit? base c)) cs

/-- Reads a non-empty run of digits. -/
def readNat? (base : Nat) (cs : List Char) : Option Nat :=
  if cs.isEmpty then none else digitsOnto? base 0 cs

/-- Splits off an optional sign: whether it was a minus, and what follows. -/
def splitSign : List Char → Bool × List Char
  | '-' :: cs => (true, cs)
  | '+' :: cs => (false, cs)
  | cs => (false, cs)

/-- Keeps an integer that is a word. -/
def word? (n : Int) : Option Int := if IsWord n then some n else none

/-- Reads a decimal numeral with an optional sign that fits in a word. -/
def readInt? (s : String) : Option Int := do
  let (negative, digits) := splitSign s.toList
  let n ← readNat? 10 digits
  word? (if negative then -(n : Int) else n)

/-- Splits off a base marker; a plain leading zero marks base eight. -/
def splitBase : List Char → Nat × List Char
  | '0' :: 'x' :: cs | '0' :: 'X' :: cs => (16, cs)
  | '0' :: 'b' :: cs | '0' :: 'B' :: cs => (2, cs)
  | '0' :: 'o' :: cs | '0' :: 'O' :: cs => (8, cs)
  | '0' :: c :: cs => (8, c :: cs)
  | cs => (10, cs)

/-- Tells whether every underscore stands between two digits. -/
def underscoresApart : List Char → Bool
  | [] => true
  | ['_'] => false
  | '_' :: '_' :: _ => false
  | _ :: cs => underscoresApart cs

/-- Reads an unsigned numeral whose base is given by its marker. Single underscores may separate its digits, and one may
follow the marker. -/
def readMarked? (cs : List Char) : Option Nat :=
  let (base, digits) := splitBase cs
  let marked := base != 10
  let wellPlaced := underscoresApart digits && (marked || digits.head? != some '_')
  if wellPlaced then readNat? base (digits.filter (· != '_')) else none

/-- Reads a marked numeral with an optional sign that fits in a word. -/
def readMarkedInt? (s : String) : Option Int := do
  let (negative, digits) := splitSign s.toList
  let n ← readMarked? digits
  word? (if negative then -(n : Int) else n)

/-- Reads a marked numeral without a sign that fits in 64 bits. -/
def readMarkedNat? (s : String) : Option Nat := do
  let n ← readMarked? s.toList
  if n < 0x10000000000000000 then some n else none

end Numeral

end Croupier
