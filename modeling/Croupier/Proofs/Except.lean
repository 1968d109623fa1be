import Mathlib.Tactic.Lemma

/-!
# Results and errors

How a sequence of computations that may fail comes to its result: a sequence gives a result if and only if both parts
do, and it gives an error if and only if one part does. Renaming errors does not touch results.
-/

namespace Croupier

variable {ε ε' α α' β β' : Type}

/-- A sequence gives a result if and only if both parts do. -/
lemma bind_eq_ok {x : Except ε α} {f : α → Except ε β} {b : β} :
    (x >>= f) = .ok b ↔ ∃ a, x = .ok a ∧ f a = .ok b := by
  cases x with
  | error e => simp [bind, Except.bind]
  | ok a => simp [bind, Except.bind]

/-- A sequence gives an error if and only if the first part does, or the second does after it. -/
lemma bind_eq_error {x : Except ε α} {f : α → Except ε β} {e : ε} :
    (x >>= f) = .error e ↔ x = .error e ∨ ∃ a, x = .ok a ∧ f a = .error e := by
  cases x with
  | error e' => simp [bind, Except.bind]
  | ok a => simp [bind, Except.bind]

/-- Renaming errors neither makes nor spoils a result. -/
lemma mapError_eq_ok {x : Except ε α} {rename : ε → ε'} {a : α} : x.mapError rename = .ok a ↔ x = .ok a := by
  cases x with
  | error e => exact ⟨nofun, nofun⟩
  | ok b => exact ⟨fun h => by cases h; rfl, fun h => by cases h; rfl⟩

/-- An error that has been renamed comes from an error. -/
lemma mapError_eq_error {x : Except ε α} {rename : ε → ε'} {e' : ε'} :
    x.mapError rename = .error e' ↔ ∃ e, x = .error e ∧ rename e = e' := by
  cases x with
  | error e => exact ⟨fun h => ⟨e, rfl, by cases h; rfl⟩, fun ⟨_, he, h⟩ => by cases he; cases h; rfl⟩
  | ok b => exact ⟨nofun, fun ⟨_, he, _⟩ => nomatch he⟩

/-- The option of a computation holds its result. -/
lemma toOption_eq_some {x : Except ε α} {a : α} : x.toOption = some a ↔ x = .ok a := by
  cases x with
  | error e => simp [Except.toOption]
  | ok b => simp [Except.toOption]

/-- The option of a computation holds something if and only if there is a result. -/
lemma isSome_toOption {x : Except ε α} : x.toOption.isSome ↔ ∃ a, x = .ok a := by
  cases x with
  | error e => simp [Except.toOption]
  | ok b => simp [Except.toOption]

/-- A result with a property that can be computed. -/
lemma exists_of_any {x : Except ε α} {P : α → Bool} (h : x.toOption.any P = true) : ∃ a, x = .ok a ∧ P a = true := by
  cases x with
  | error e => cases h
  | ok a => exact ⟨a, rfl, h⟩

/-- If the results of the parts are renamed, so is the result of the sequence. -/
lemma bind_map {x : Except ε α} {x' : Except ε α'} {f : α → α'} {k : α → Except ε β} {k' : α' → Except ε β'}
    {r : β → β'} (hx : x' = x.map f) (hk : ∀ a, k' (f a) = (k a).map r) : (x' >>= k') = (x >>= k).map r := by
  subst hx
  cases x with
  | error e => rfl
  | ok a => exact hk a

/-- If the result of the second part of a sequence is renamed, so is the result of the sequence. -/
lemma bind_map_right {x : Except ε α} {k : α → Except ε β} {k' : α → Except ε β'} {r : β → β'}
    (hk : ∀ a, k' a = (k a).map r) : (x >>= k') = (x >>= k).map r := by
  cases x with
  | error e => rfl
  | ok a => exact hk a

/-- If the results on both sides of a test are renamed, so is the result of the test. -/
lemma ite_map {c : Prop} [Decidable c] {x y : Except ε α} {x' y' : Except ε β} {f : α → β} (hx : x' = x.map f)
    (hy : y' = y.map f) : (if c then x' else y') = (if c then x else y).map f := by
  split
  · exact hx
  · exact hy

/-- Errors and results can be renamed in either order. -/
lemma mapError_map {x : Except ε α} {f : α → β} {rename : ε → ε'} :
    (x.map f).mapError rename = (x.mapError rename).map f := by
  cases x <;> rfl

/-- An error that no part of a sequence gives is not given by the sequence. -/
lemma bind_ne_error {x : Except ε α} {f : α → Except ε β} {e : ε} (hx : x ≠ .error e)
    (hf : ∀ a, x = .ok a → f a ≠ .error e) : (x >>= f) ≠ .error e := by
  intro h
  rcases bind_eq_error.mp h with h | ⟨a, ha, h⟩
  · exact hx h
  · exact hf a ha h

/-- An error that is not the new name of any error is not given after renaming. -/
lemma mapError_ne_error {rename : ε → ε'} {e' : ε'} (h : ∀ e, rename e ≠ e') (x : Except ε α) :
    x.mapError rename ≠ .error e' := by
  intro hx
  obtain ⟨e, _, he⟩ := mapError_eq_error.mp hx
  exact h e he

end Croupier
