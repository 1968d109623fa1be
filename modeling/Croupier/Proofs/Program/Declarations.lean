import Mathlib.Data.List.Nodup
import Croupier.Proofs.Except
import Croupier.Program.Parser

/-!
# What declarations leave behind

Every declaration that is read adds one thing to a draft and leaves the rest of it alone; a stack that is added has a
new name. So the stacks of a program that has been read have distinct names (`stacks_nodup`).
-/

namespace Croupier

namespace Draft

variable {d d' : Draft} {c c' : Cursor}

/-- A draft whose stacks have distinct names. -/
def Distinct (d : Draft) : Prop := (d.tableStacks ++ d.playerStacks).Nodup

/-- To read a name declares a name and nothing else. -/
lemma parseName_ok (h : parseName d c = .ok (d', c')) : ∃ name, d' = { d with name := some name } := by
  obtain ⟨_, _, h⟩ := bind_eq_ok.mp h
  simp only at h
  split at h
  · cases h
    exact ⟨_, rfl⟩
  · cases h

/-- To read a deck declares a deck and nothing else. -/
lemma parseDeck_ok (h : parseDeck d c = .ok (d', c')) : ∃ deck, d' = { d with deck := some deck } := by
  obtain ⟨_, _, h⟩ := bind_eq_ok.mp h
  obtain ⟨⟨deck, c₁⟩, _, h⟩ := bind_eq_ok.mp h
  cases h
  exact ⟨_, rfl⟩

/-- To read the number of players declares it and nothing else. -/
lemma parsePlayers_ok (h : parsePlayers d c = .ok (d', c')) : ∃ players, d' = { d with players := some players } := by
  obtain ⟨_, _, h⟩ := bind_eq_ok.mp h
  obtain ⟨⟨n, c₁⟩, _, h⟩ := bind_eq_ok.mp h
  cases h
  exact ⟨_, rfl⟩

/-- To read the first player declares that player and nothing else. -/
lemma parseFirstPlayer_ok (h : parseFirstPlayer d c = .ok (d', c')) :
    ∃ first, d' = { d with firstPlayer := some first } := by
  obtain ⟨_, _, h⟩ := bind_eq_ok.mp h
  obtain ⟨⟨n, c₁⟩, _, h⟩ := bind_eq_ok.mp h
  cases h
  exact ⟨_, rfl⟩

/-- One round of reading parameters: the list is closed, or a comma and a new name come next. -/
lemma parseParams_succ {budget : Nat} {earlier : List String} :
    parseParams (budget + 1) earlier c =
      if c.atPunct ")" then .ok (earlier, c.advance)
      else (if earlier.isEmpty then .ok c else c.punct ",") >>= fun c₁ => c₁.ident "parameter name" >>= fun param =>
        if earlier.contains param.1.text then
          .error { pos := param.1.pos, expected := "a distinct parameter name", found := param.1.describe }
        else parseParams budget (earlier ++ [param.1.text]) param.2 := by
  cases earlier with
  | nil => rfl
  | cons name earlier => rfl

/-- To read a function adds a function behind the others. -/
lemma parseFunction_ok (h : parseFunction d c = .ok (d', c')) :
    ∃ fn, d' = { d with functions := d.functions ++ [fn] } := by
  obtain ⟨⟨name, c₁⟩, _, h⟩ := bind_eq_ok.mp h
  simp only at h
  split at h
  · cases h
  · obtain ⟨c₂, _, h⟩ := bind_eq_ok.mp h
    obtain ⟨⟨params, c₃⟩, _, h⟩ := bind_eq_ok.mp h
    obtain ⟨⟨body, c₄⟩, _, h⟩ := bind_eq_ok.mp h
    cases h
    exact ⟨_, rfl⟩

/-- The name of a stack is accepted only if it is new. -/
lemma newStack_ok {name : Token} {u : Unit} (h : newStack d name = .ok u) :
    name.text ∉ d.tableStacks ++ d.playerStacks := by
  unfold newStack at h
  split at h
  · cases h
  · next hn => simpa using hn

/-- To read a stack adds a stack with a new name, on the table or for every player. -/
lemma parseStack_ok (h : parseStack d c = .ok (d', c')) : ∃ name, name ∉ d.tableStacks ++ d.playerStacks ∧
    (d' = { d with tableStacks := d.tableStacks ++ [name] } ∨
      d' = { d with playerStacks := d.playerStacks ++ [name] }) := by
  obtain ⟨⟨name, c₁⟩, _, h⟩ := bind_eq_ok.mp h
  simp only at h
  split at h
  · split at h
    · cases h
    · obtain ⟨⟨name, c₂⟩, _, h⟩ := bind_eq_ok.mp h
      obtain ⟨_, hn, h⟩ := bind_eq_ok.mp h
      split at h
      · cases h
      · cases h
        exact ⟨name.text, newStack_ok hn, .inr rfl⟩
  · obtain ⟨_, hn, h⟩ := bind_eq_ok.mp h
    cases h
    exact ⟨name.text, newStack_ok hn, .inl rfl⟩

/-- A declaration keeps the names of the stacks distinct. -/
lemma Distinct.parseItem (hd : d.Distinct) (h : parseItem d c = .ok (d', c')) : d'.Distinct := by
  unfold Draft.parseItem at h
  split_ifs at h
  · obtain ⟨name, rfl⟩ := parseName_ok h
    exact hd
  · obtain ⟨deck, rfl⟩ := parseDeck_ok h
    exact hd
  · obtain ⟨players, rfl⟩ := parsePlayers_ok h
    exact hd
  · obtain ⟨first, rfl⟩ := parseFirstPlayer_ok h
    exact hd
  · obtain ⟨name, hn, rfl | rfl⟩ := parseStack_ok h
    · have hp : (d.tableStacks ++ [name] ++ d.playerStacks).Perm (name :: (d.tableStacks ++ d.playerStacks)) := by
        rw [List.append_assoc]
        exact List.perm_middle
      exact hp.nodup_iff.mpr (List.nodup_cons.mpr ⟨hn, hd⟩)
    · show (d.tableStacks ++ (d.playerStacks ++ [name])).Nodup
      rw [← List.append_assoc]
      exact List.nodup_append_comm.mp (List.nodup_cons.mpr ⟨hn, hd⟩)
  · obtain ⟨fn, rfl⟩ := parseFunction_ok h
    exact hd

/-- Declarations keep the names of the stacks distinct. -/
lemma Distinct.parseItems {budget : Nat} (hd : d.Distinct) (h : parseItems budget d c = .ok d') : d'.Distinct := by
  induction budget generalizing d c with
  | zero =>
    cases h
    exact hd
  | succ budget ih =>
    unfold Draft.parseItems at h
    split at h
    · cases h
      exact hd
    · obtain ⟨⟨d₁, c₁⟩, hi, h⟩ := bind_eq_ok.mp h
      exact ih (hd.parseItem hi) h

end Draft

namespace Program

/-- The stacks of a program that has been read have distinct names. -/
lemma stacks_nodup {source : List Char} {p : Program} (h : ofSource source = .ok p) :
    (p.tableStacks ++ p.playerStacks).Nodup := by
  obtain ⟨tokens, _, h⟩ := bind_eq_ok.mp h
  rw [mapError_eq_ok] at h
  obtain ⟨draft, hd, h⟩ := bind_eq_ok.mp h
  obtain ⟨program, hf, h⟩ := bind_eq_ok.mp h
  obtain ⟨_, _, h⟩ := bind_eq_ok.mp h
  cases h
  have hdraft : draft.Distinct := Draft.Distinct.parseItems (d := {}) List.nodup_nil hd
  obtain ⟨name, _, hf⟩ := bind_eq_ok.mp hf
  obtain ⟨deck, _, hf⟩ := bind_eq_ok.mp hf
  obtain ⟨players, _, hf⟩ := bind_eq_ok.mp hf
  simp only at hf
  split at hf
  · cases hf
  · cases hf
    exact hdraft

end Program

end Croupier
