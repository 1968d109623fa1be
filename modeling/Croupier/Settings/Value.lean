import Croupier.Text.Case
import Croupier.Yaml.Node

/-!
# Raw settings

A settings file is a tree of named values. A raw value is turned into a text, a number or a truth value as far as it
makes sense: numerals count as numbers, and numbers as texts and truth values.
-/

namespace Croupier

open Yaml

/-- A raw value. -/
inductive RawSetting where
  | null
  | bool (b : Bool)
  | int (n : Int)
  | real (r : Quantity)
  | time
  | text (s : String)
  | list
  | group (entries : List (String × RawSetting))
  deriving Repr

/-- A decimal fraction with as many places as it needs. -/
def decimalText (negative : Bool) (mantissa : Nat) (exponent : Int) : String :=
  let digits := Nat.toDigits 10 mantissa
  let sign := if negative then "-" else ""
  if mantissa = 0 then sign ++ "0"
  else if 0 ≤ exponent then sign ++ String.ofList (digits ++ List.replicate exponent.toNat '0')
  else
    let places := (-exponent).toNat
    let padded := List.replicate (places + 1 - digits.length) '0' ++ digits
    let whole := padded.take (padded.length - places)
    let fraction := ((padded.drop (padded.length - places)).reverse.dropWhile (· == '0')).reverse
    sign ++ String.ofList whole ++ (if fraction.isEmpty then "" else "." ++ String.ofList fraction)

/-- A number as a text. -/
def realText : Quantity → String
  | .finite negative size => decimalText negative size.shortest.1 size.shortest.2
  | .infinite negative => if negative then "-Inf" else "+Inf"
  | .nan => "NaN"

namespace RawSetting

/-- The raw value of a scalar. -/
def ofScalar (s : Scalar) : RawSetting :=
  match s.meaning with
  | .null => .null
  | .bool b => .bool b
  | .int n => .int n
  | .real r => .real r
  | .time => .time
  | .text t => .text t

mutual

/-- The raw value of a node. Case does not matter in keys. -/
def ofNode : Node → Except FormError RawSetting
  | .scalar s => .ok (ofScalar s)
  | .seq items => do
    checkItems items
    .ok .list
  | .map entries =>
    match Node.repeatedKey? (entries.map (·.1.text)) with
    | some key => .error (.repeatedKey key)
    | none => do
      let es ← ofEntries entries
      .ok (.group es)

/-- Checks the items of a list. -/
def checkItems : List Node → Except FormError Unit
  | [] => .ok ()
  | n :: ns => do
    let _ ← ofNode n
    checkItems ns

/-- The raw values of entries. Keys that mean nothing are left out. -/
def ofEntries : List (Scalar × Node) → Except FormError (List (String × RawSetting))
  | [] => .ok []
  | (key, n) :: es => do
    let v ← ofNode n
    let rest ← ofEntries es
    .ok (if key.meaning == .null then rest else (Text.lower key.text, v) :: rest)

end

/-- The value as a text. -/
def text? : RawSetting → Option String
  | text s => some s
  | bool b => some (if b then "1" else "0")
  | int n => some (toString n)
  | real r => some (realText r)
  | _ => none

/-- The value as a whole number. -/
def int? : RawSetting → Option Int
  | text s => if s.isEmpty then some 0 else Numeral.readMarkedInt? s
  | bool b => some (if b then 1 else 0)
  | int n => some (wrap n)
  | real r => some r.word
  | _ => none

/-- A number as an unsigned word. Negative numbers wrap around, and numbers above all words count as zero. -/
def unsignedReal (r : Quantity) : UInt64 :=
  if r.isAtMost 0x7fffffffffffffff then UInt64.ofInt r.word
  else match r.whole? with
    | some n => if n < 0x10000000000000000 then UInt64.ofInt n else 0
    | none => 0

/-- The value as an unsigned word. Negative numbers wrap around, negative numerals are refused. -/
def word? : RawSetting → Option UInt64
  | text s => if s.isEmpty then some 0 else (Numeral.readMarkedNat? s).map Nat.toUInt64
  | bool b => some (if b then 1 else 0)
  | int n => some (UInt64.ofInt n)
  | real r => some (unsignedReal r)
  | _ => none

/-- The value as a truth value. -/
def bool? : RawSetting → Option Bool
  | bool b => some b
  | int n => some (n != 0)
  | real r => some !r.isZero
  | text s =>
    if s.isEmpty || ["0", "f", "F", "false", "False", "FALSE"].contains s then some false
    else if ["1", "t", "T", "true", "True", "TRUE"].contains s then some true
    else none
  | _ => none

end RawSetting

end Croupier
