/-!
# Reading UTF-8

Bytes are read as UTF-8 from left to right. A byte that does not start a well-formed sequence counts as one replacement
character, and reading goes on with the byte after it, so every input can be read.
-/

namespace Croupier.Text

/-- The replacement character, which stands for a byte that is not part of any character. -/
def replacement : Char := '�'

/-- The payload of a continuation byte. -/
def continuation? (b : UInt8) : Option Nat :=
  if 0x80 ≤ b.toNat ∧ b.toNat < 0xC0 then some (b.toNat - 0x80) else none

/-- Keeps a code point that is at least `least`, so not written too long, and not a surrogate. -/
def codePoint? (least n : Nat) : Option Char :=
  if least ≤ n ∧ n < 0x110000 ∧ ¬ (0xD800 ≤ n ∧ n < 0xE000) then some (Char.ofNat n) else none

/-- The character written by the sequence that a text starts with, and the number of bytes after its first. -/
def sequence? (b : UInt8) (rest : List UInt8) : Option (Char × Nat) :=
  let n := b.toNat
  if n < 0x80 then some (Char.ofNat n, 0)
  else if 0xC0 ≤ n ∧ n < 0xE0 then
    match rest with
    | b₁ :: _ => do
      let c₁ ← continuation? b₁
      let c ← codePoint? 0x80 ((n - 0xC0) * 0x40 + c₁)
      some (c, 1)
    | _ => none
  else if 0xE0 ≤ n ∧ n < 0xF0 then
    match rest with
    | b₁ :: b₂ :: _ => do
      let c₁ ← continuation? b₁
      let c₂ ← continuation? b₂
      let c ← codePoint? 0x800 (((n - 0xE0) * 0x40 + c₁) * 0x40 + c₂)
      some (c, 2)
    | _ => none
  else if 0xF0 ≤ n ∧ n < 0xF8 then
    match rest with
    | b₁ :: b₂ :: b₃ :: _ => do
      let c₁ ← continuation? b₁
      let c₂ ← continuation? b₂
      let c₃ ← continuation? b₃
      let c ← codePoint? 0x10000 ((((n - 0xF0) * 0x40 + c₁) * 0x40 + c₂) * 0x40 + c₃)
      some (c, 3)
    | _ => none
  else none

/-- Reads bytes, of which the first `skip` belong to a character already read. -/
def decodeFrom : Nat → List UInt8 → List Char
  | _, [] => []
  | skip + 1, _ :: bs => decodeFrom skip bs
  | 0, b :: bs =>
    match sequence? b bs with
    | some (c, n) => c :: decodeFrom n bs
    | none => replacement :: decodeFrom 0 bs

/-- Reads bytes as UTF-8. -/
def decode (bytes : List UInt8) : List Char := decodeFrom 0 bytes

end Croupier.Text
