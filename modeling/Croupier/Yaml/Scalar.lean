import Croupier.Number
import Croupier.Number.Double

/-!
# Scalars of documents

A scalar that stands without quotation marks may be more than a text: nothing, a truth value, a number or a point in
time. What it is depends on its spelling alone.
-/

namespace Croupier.Yaml

/-- A number that need not be whole: one in double precision, infinity, or none. -/
inductive Quantity where
  | finite (negative : Bool) (size : Double)
  | infinite (negative : Bool)
  | nan
  deriving DecidableEq, Repr

/-- Tells whether a number is zero. -/
def Quantity.isZero : Quantity → Bool
  | .finite _ size => size.mantissa == 0
  | _ => false

/-- The whole part of a number. -/
def Quantity.whole? : Quantity → Option Int
  | .finite negative size => some (if negative then -(size.whole : Int) else size.whole)
  | _ => none

/-- The whole part of a number as a word. The least word stands for what is no word. -/
def Quantity.word (r : Quantity) : Int := (r.whole?.bind Numeral.word?).getD (-0x8000000000000000)

/-- Tells whether a number does not exceed a bound. -/
def Quantity.isAtMost (bound : Int) : Quantity → Bool
  | .finite negative size => negative || decide (size.whole ≤ bound)
  | .infinite negative => negative
  | .nan => false

/-- What a scalar stands for. -/
inductive Meaning where
  | null
  | bool (b : Bool)
  | int (n : Int)
  | real (r : Quantity)
  | time
  | text (s : String)
  deriving DecidableEq, Repr

/-! ## Characters -/

/-- Tells whether a character ends a line. -/
def isBreak (c : Char) : Bool := c == '\n' || c == '\u2028' || c == '\u2029'

/-- Splits off the digits at the front. -/
def spanDigits (cs : List Char) : List Char × List Char := cs.span Char.isDigit

/-! ## Words -/

/-- The words that have a meaning of their own. -/
def word? (s : String) : Option Meaning :=
  if ["", "~", "null", "Null", "NULL"].contains s then some .null
  else if ["true", "True", "TRUE"].contains s then some (.bool true)
  else if ["false", "False", "FALSE"].contains s then some (.bool false)
  else if [".nan", ".NaN", ".NAN"].contains s then some (.real .nan)
  else if [".inf", ".Inf", ".INF", "+.inf", "+.Inf", "+.INF"].contains s then some (.real (.infinite false))
  else if ["-.inf", "-.Inf", "-.INF"].contains s then some (.real (.infinite true))
  else none

/-- The words that older documents use for truth values. -/
def isOldBool (s : String) : Bool :=
  ["y", "Y", "yes", "Yes", "YES", "on", "On", "ON", "n", "N", "no", "No", "NO", "off", "Off", "OFF"].contains s

/-! ## Numbers -/

/-- Reads a numeral with an optional sign in a given base. -/
def signed? (base : Nat) (cs : List Char) : Option Int := do
  let (negative, digits) := Numeral.splitSign cs
  let n ← Numeral.readNat? base digits
  Numeral.word? (if negative then -(n : Int) else n)

/-- Reads a whole number whose base is given by its marker. A sign may also follow the marker. -/
def int? (cs : List Char) : Option Int :=
  let s := String.ofList cs
  (Numeral.readMarkedInt? s).or <| ((Numeral.readMarkedNat? s).map Int.ofNat).or <|
    match cs with
    | '0' :: 'b' :: rest => signed? 2 rest
    | '0' :: 'o' :: rest => signed? 8 rest
    | _ => none

/-- Reads the exponent of a decimal fraction; without one it is zero. -/
def exponent? : List Char → Option Int
  | [] => some 0
  | c :: cs => if c == 'e' || c == 'E' then do
      let (negative, digits) := Numeral.splitSign cs
      let n ← Numeral.readNat? 10 digits
      some (if negative then -(n : Int) else n)
    else none

/-- Reads a decimal fraction. -/
def real? (cs : List Char) : Option Quantity := do
  let (negative, cs) := Numeral.splitSign cs
  let (whole, cs) := spanDigits cs
  let (fraction, cs) := match cs with
    | '.' :: cs => spanDigits cs
    | cs => ([], cs)
  let mantissa ← Numeral.readNat? 10 (whole ++ fraction)
  let e ← exponent? cs
  let size ← Double.ofDecimal? mantissa (e - fraction.length)
  some (.finite negative size)

/-! ## Points in time -/

/-- Reads a number of one or two digits below a bound. -/
def twoDigits? (bound : Nat) (cs : List Char) : Option (Nat × List Char) := do
  let (digits, rest) := spanDigits cs
  let (taken, left) := (digits.take 2, digits.drop 2)
  let n ← Numeral.readNat? 10 taken
  if n < bound then some (n, left ++ rest) else none

/-- Reads a mark. -/
def mark? (c : Char) : List Char → Option (List Char)
  | d :: cs => if c == d then some cs else none
  | [] => none

/-- Tells whether a year has a day more in February. -/
def isLeapYear (year : Nat) : Bool := year % 4 == 0 && (year % 100 != 0 || year % 400 == 0)

/-- The number of days of a month. -/
def daysOf (year month : Nat) : Nat :=
  match month with
  | 2 => if isLeapYear year then 29 else 28
  | 4 | 6 | 9 | 11 => 30
  | _ => 31

/-- Reads a date: a year of four digits, a month and a day. -/
def date? (cs : List Char) : Option (List Char) := do
  let (digits, cs) := spanDigits cs
  let year ← if digits.length = 4 then Numeral.readNat? 10 digits else none
  let (month, cs) ← twoDigits? 13 (← mark? '-' cs)
  let (day, cs) ← twoDigits? 32 (← mark? '-' cs)
  if 1 ≤ month ∧ 1 ≤ day ∧ day ≤ daysOf year month then some cs else none

/-- Skips a fraction of a second. -/
def skipFraction (cs : List Char) : List Char :=
  match cs with
  | p :: d :: rest => if (p == '.' || p == ',') && d.isDigit then (spanDigits rest).2 else cs
  | _ => cs

/-- Reads a time of day. -/
def clock? (cs : List Char) : Option (List Char) := do
  let (_, cs) ← twoDigits? 24 cs
  let (_, cs) ← twoDigits? 60 (← mark? ':' cs)
  let (_, cs) ← twoDigits? 60 (← mark? ':' cs)
  some (skipFraction cs)

/-- Tells whether a text is a time zone. -/
def isZone : List Char → Bool
  | ['Z'] => true
  | [s, a, b, ':', c, d] =>
    (s == '+' || s == '-') &&
      match Numeral.readNat? 10 [a, b], Numeral.readNat? 10 [c, d] with
      | some h, some m => decide (h ≤ 24 ∧ m < 60)
      | _, _ => false
  | _ => false

/-- Tells whether a text is a date, or a date with a time of day. -/
def isTime (cs : List Char) : Bool :=
  match date? cs with
  | none => false
  | some [] => true
  | some (c :: cs) =>
    match clock? cs with
    | none => false
    | some rest => if c == ' ' then rest.isEmpty else (c == 'T' || c == 't') && isZone rest

/-! ## Meaning -/

/-- The meaning of an unquoted scalar that starts like a number. -/
def number? (cs : List Char) : Option Meaning :=
  if isTime cs then some .time
  else
    let plain := cs.filter (· != '_')
    ((int? plain).map .int).or ((real? plain).map .real)

/-- What an unquoted scalar stands for. -/
def meaning (s : String) : Meaning :=
  let found : Option Meaning := match s.toList with
    | [] => some .null
    | c :: cs =>
      if "yYnNtTfFoO~".toList.contains c then word? s
      else if c == '.' then (word? s).or ((real? (c :: cs)).map .real)
      else if c == '+' || c == '-' || c.isDigit then (word? s).or (number? (c :: cs))
      else none
  found.getD (.text s)

/-- Tells whether groups of up to two digits, each after a colon, follow. -/
def isSexagesimalTail (cs : List Char) : Bool :=
  match String.ofList cs |>.splitOn ":" with
  | first :: groups =>
    let digitsOrBar := fun (s : List Char) => s.all fun c => c.isDigit || c == '_'
    let group := fun (s : List Char) => match s with
      | [a] => a.isDigit
      | [a, b] => '0' ≤ a && a ≤ '5' && b.isDigit
      | _ => false
    match first.toList, groups.reverse with
    | d :: ds, last :: others =>
      let (whole, fraction) := last.toList.span (· != '.')
      d.isDigit && digitsOrBar ds && (others.all fun g => group g.toList) && group whole && digitsOrBar (fraction.drop 1)
    | _, _ => false
  | [] => false

/-- Tells whether a text is a number in base sixty, such as a time of day. -/
def isSexagesimal (s : String) : Bool := isSexagesimalTail (Numeral.splitSign s.toList).2

end Croupier.Yaml
