import Mathlib.Tactic.Lemma
import Croupier.Text.Utf8

/-!
# What bytes are read as

UTF-8 is read as it is written: a character is read off the bytes that encode it, and where no character is encoded one
byte is read as the replacement character (`Decodes`). The reader follows these rules on every input (`decodes_decode`).
Bytes that are ASCII are read as themselves and belong to no other character, so what is spelled in ASCII in the text
is spelled so in the bytes.
-/

namespace Croupier.Text

open String (utf8EncodeChar)

/-- The bytes are read as the characters. -/
inductive Decodes : List UInt8 → List Char → Prop where
  | nil : Decodes [] []
  | char {c : Char} {bytes : List UInt8} {cs : List Char} :
    Decodes bytes cs → Decodes (utf8EncodeChar c ++ bytes) (c :: cs)
  | invalid {b : UInt8} {bytes : List UInt8} {cs : List Char} :
    (∀ c, ¬ utf8EncodeChar c <+: b :: bytes) → Decodes bytes cs → Decodes (b :: bytes) (replacement :: cs)

variable {b : UInt8} {bs : List UInt8} {c : Char} {n : Nat}

/-- A continuation byte holds six bits above its mark. -/
lemma continuation?_eq_some_iff : continuation? b = some n ↔ b.toNat = 0x80 + n ∧ n < 0x40 := by
  unfold continuation?
  split
  · simp only [Option.some.injEq]
    omega
  · refine ⟨nofun, ?_⟩
    omega

/-- A code point is accepted if it needs so many bytes and is that of a character. -/
lemma codePoint?_eq_some_iff {least : Nat} : codePoint? least n = some c ↔ least ≤ n ∧ c.toNat = n := by
  unfold codePoint?
  constructor
  · intro h
    split at h
    · next hn =>
      have hvalid : n.isValidChar := by
        unfold Nat.isValidChar
        omega
      cases h
      refine ⟨hn.1, ?_⟩
      rw [Char.ofNat, dif_pos hvalid]
      rfl
    · cases h
  · rintro ⟨hleast, rfl⟩
    have hvalid : c.toNat.isValidChar := c.valid
    unfold Nat.isValidChar at hvalid
    rw [if_pos (by omega), Char.ofNat_toNat]

/-- A byte is given back by its value. -/
lemma ofNat_eq (b : UInt8) {x : Nat} (h : x = b.toNat) : UInt8.ofNat x = b := by
  rw [h, UInt8.ofNat_toNat]

/-- A value below that bound is kept in a byte. -/
lemma toNat_ofNat {x : Nat} (h : x < 0x100) : (UInt8.ofNat x).toNat = x := by
  rw [UInt8.toNat_ofNat']
  exact Nat.mod_eq_of_lt h

/-- A character is one of the code points of Unicode. -/
lemma toNat_lt (c : Char) : c.val.toNat < 0x110000 := by
  have hvalid : c.val.toNat.isValidChar := c.valid
  unfold Nat.isValidChar at hvalid
  omega

/-- A sequence at the start of some bytes is the encoding of its character. -/
lemma encode_of_sequence? (h : sequence? b bs = some (c, n)) :
    ∃ tail, utf8EncodeChar c = b :: tail ∧ tail <+: bs ∧ tail.length = n := by
  -- one case for each length of a sequence, told from its first byte
  simp only [sequence?] at h
  split at h
  · obtain ⟨rfl, rfl⟩ := Prod.mk.inj (Option.some.inj h)
    have hread : codePoint? 0 b.toNat = some (Char.ofNat b.toNat) := if_pos (by omega)
    have hv : (Char.ofNat b.toNat).val.toNat = b.toNat := (codePoint?_eq_some_iff.mp hread).2
    refine ⟨[], ?_, List.nil_prefix, rfl⟩
    simp only [utf8EncodeChar, hv]
    rw [if_pos (by omega), UInt8.ofNat_toNat]
  split at h
  · split at h
    · next b₁ bs =>
      simp only [Option.bind_eq_bind, Option.bind_eq_some_iff, continuation?_eq_some_iff, codePoint?_eq_some_iff,
        Option.some.injEq, Prod.mk.injEq] at h
      obtain ⟨x₁, h₁, c, ⟨hleast, hc⟩, rfl, rfl⟩ := h
      have hv : c.val.toNat = (b.toNat - 0xC0) * 0x40 + x₁ := hc
      refine ⟨[b₁], ?_, ⟨bs, rfl⟩, rfl⟩
      simp only [utf8EncodeChar, hv]
      rw [if_neg (by omega), if_pos (by omega), ofNat_eq b (by omega), ofNat_eq b₁ (by omega)]
    · cases h
  split at h
  · split at h
    · next b₁ b₂ bs =>
      simp only [Option.bind_eq_bind, Option.bind_eq_some_iff, continuation?_eq_some_iff, codePoint?_eq_some_iff,
        Option.some.injEq, Prod.mk.injEq] at h
      obtain ⟨x₁, h₁, x₂, h₂, c, ⟨hleast, hc⟩, rfl, rfl⟩ := h
      have hv : c.val.toNat = ((b.toNat - 0xE0) * 0x40 + x₁) * 0x40 + x₂ := hc
      refine ⟨[b₁, b₂], ?_, ⟨bs, rfl⟩, rfl⟩
      simp only [utf8EncodeChar, hv]
      rw [if_neg (by omega), if_neg (by omega), if_pos (by omega), ofNat_eq b (by omega), ofNat_eq b₁ (by omega),
        ofNat_eq b₂ (by omega)]
    · cases h
  split at h
  · split at h
    · next b₁ b₂ b₃ bs =>
      simp only [Option.bind_eq_bind, Option.bind_eq_some_iff, continuation?_eq_some_iff, codePoint?_eq_some_iff,
        Option.some.injEq, Prod.mk.injEq] at h
      obtain ⟨x₁, h₁, x₂, h₂, x₃, h₃, c, ⟨hleast, hc⟩, rfl, rfl⟩ := h
      have hv : c.val.toNat = (((b.toNat - 0xF0) * 0x40 + x₁) * 0x40 + x₂) * 0x40 + x₃ := hc
      refine ⟨[b₁, b₂, b₃], ?_, ⟨bs, rfl⟩, rfl⟩
      simp only [utf8EncodeChar, hv]
      rw [if_neg (by omega), if_neg (by omega), if_neg (by omega), ofNat_eq b (by omega), ofNat_eq b₁ (by omega),
        ofNat_eq b₂ (by omega), ofNat_eq b₃ (by omega)]
    · cases h
  · cases h

/-- Six bits are read off the continuation byte that holds them. -/
lemma continuation?_ofNat (h : n < 0x40) : continuation? (UInt8.ofNat (n + 0x80)) = some n := by
  rw [continuation?_eq_some_iff, toNat_ofNat (by omega)]
  omega

/-- The encoding of a character is the sequence that it is read off. -/
lemma sequence?_encode (c : Char) :
    ∃ b tail, utf8EncodeChar c = b :: tail ∧ ∀ bs, sequence? b (tail ++ bs) = some (c, tail.length) := by
  have hlt := toNat_lt c
  have hread {least v : Nat} (hl : least ≤ v) (hv : c.val.toNat = v) : codePoint? least v = some c :=
    codePoint?_eq_some_iff.mpr ⟨hl, hv⟩
  unfold utf8EncodeChar
  dsimp only
  split
  · refine ⟨_, [], rfl, fun bs => ?_⟩
    simp only [sequence?]
    rw [toNat_ofNat (by omega), if_pos (by omega)]
    exact congrArg (fun x => some (x, 0)) c.ofNat_toNat
  split
  · refine ⟨_, _, rfl, fun bs => ?_⟩
    simp only [sequence?, List.cons_append]
    rw [toNat_ofNat (by omega), if_neg (by omega), if_pos (by omega), continuation?_ofNat (by omega)]
    simp only [Option.bind_eq_bind, Option.bind_some]
    rw [hread (by omega) (by omega)]
    rfl
  split
  · refine ⟨_, _, rfl, fun bs => ?_⟩
    simp only [sequence?, List.cons_append]
    rw [toNat_ofNat (by omega), if_neg (by omega), if_neg (by omega), if_pos (by omega),
      continuation?_ofNat (by omega), continuation?_ofNat (by omega)]
    simp only [Option.bind_eq_bind, Option.bind_some]
    rw [hread (by omega) (by omega)]
    rfl
  · refine ⟨_, _, rfl, fun bs => ?_⟩
    simp only [sequence?, List.cons_append]
    rw [toNat_ofNat (by omega), if_neg (by omega), if_neg (by omega), if_neg (by omega), if_pos (by omega),
      continuation?_ofNat (by omega), continuation?_ofNat (by omega), continuation?_ofNat (by omega)]
    simp only [Option.bind_eq_bind, Option.bind_some]
    rw [hread (by omega) (by omega)]
    rfl

/-- To read after some bytes is to drop them and to read the rest. -/
lemma decodeFrom_eq_drop (n : Nat) (bytes : List UInt8) : decodeFrom n bytes = decode (bytes.drop n) := by
  induction n generalizing bytes with
  | zero => rfl
  | succ n ih =>
    cases bytes with
    | nil => simp [decode, decodeFrom]
    | cons b bs => exact ih bs

/-- Bytes are read by the rules of UTF-8. -/
lemma decodes_decode (bytes : List UInt8) : Decodes bytes (decode bytes) := by
  match bytes with
  | [] => exact .nil
  | b :: bs =>
    unfold decode decodeFrom
    split
    · next c n hseq =>
      obtain ⟨tail, hencode, ⟨rest, hrest⟩, hn⟩ := encode_of_sequence? hseq
      have hdecodes := Decodes.char (c := c) (decodes_decode rest)
      rw [hencode, List.cons_append, hrest] at hdecodes
      rw [decodeFrom_eq_drop, ← hn, ← hrest, List.drop_left, hrest]
      exact hdecodes
    · next hseq =>
      refine .invalid ?_ (decodes_decode bs)
      rintro c ⟨rest, hrest⟩
      obtain ⟨b', tail, hencode, hread⟩ := sequence?_encode c
      rw [hencode, List.cons_append] at hrest
      obtain ⟨rfl, rfl⟩ := List.cons.inj hrest
      rw [hread] at hseq
      cases hseq
  termination_by bytes.length
  decreasing_by
    · simp only [← hrest, List.length_cons, List.length_append]
      omega
    · simp

/-- An ASCII character is read off the byte that it is. -/
lemma Decodes.ascii {bytes : List UInt8} {cs : List Char} (hc : c.toNat < 0x80) (h : Decodes bytes (c :: cs)) :
    ∃ bs, bytes = UInt8.ofNat c.toNat :: bs ∧ Decodes bs cs := by
  cases h with
  | @char _ bs _ h =>
    have hencode : utf8EncodeChar c = [UInt8.ofNat c.toNat] := if_pos (Nat.le_of_lt_succ hc)
    exact ⟨bs, by rw [hencode]; rfl, h⟩
  | invalid _ _ => exact absurd hc (by decide)

/-- An ASCII word with which a text starts is spelled at the start of its bytes. -/
lemma Decodes.ascii_prefix {bytes : List UInt8} {word cs : List Char} (hw : ∀ c ∈ word, c.toNat < 0x80)
    (h : Decodes bytes (word ++ cs)) : word.map (UInt8.ofNat ·.toNat) <+: bytes := by
  induction word generalizing bytes with
  | nil => exact List.nil_prefix
  | cons c word ih =>
    obtain ⟨hc, hw⟩ := List.forall_mem_cons.mp hw
    obtain ⟨bs, rfl, hbs⟩ := h.ascii hc
    exact List.prefix_cons_inj _ |>.mpr (ih hw hbs)

/-- An ASCII word that stands in the text stands in its bytes. -/
lemma Decodes.ascii_infix {bytes : List UInt8} {word cs : List Char} (hw : ∀ c ∈ word, c.toNat < 0x80)
    (h : Decodes bytes cs) (hin : word <:+: cs) : word.map (UInt8.ofNat ·.toNat) <:+: bytes := by
  obtain ⟨before, after, rfl⟩ := hin
  induction before generalizing bytes with
  | nil => exact (h.ascii_prefix hw).isInfix
  | cons c before ih =>
    cases h with
    | char h => exact (ih h).trans (List.suffix_append _ _).isInfix
    | @invalid b _ _ _ h => exact (ih h).trans (List.suffix_cons b _).isInfix

end Croupier.Text
