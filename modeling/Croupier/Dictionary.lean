/-!
# Dictionaries

A dictionary lists keys with their values, every key once, in the order in which the keys came.
-/

namespace Croupier

/-- Values by their keys. -/
abbrev Dictionary (κ ν : Type) := List (κ × ν)

namespace Dictionary

variable {κ ν ν' : Type} [DecidableEq κ] {d : Dictionary κ ν} {k key : κ} {v : ν}

/-- Gives a key another value, or lists it if it is new. -/
def set (k : κ) (v : ν) : Dictionary κ ν → Dictionary κ ν
  | [] => [(k, v)]
  | e :: d => if e.1 = k then (k, v) :: d else e :: set k v d

/-- The first entry is looked at first. -/
theorem lookup_cons (e : κ × ν) : List.lookup k (e :: d) = if k = e.1 then some e.2 else d.lookup k := by
  rw [List.lookup_cons]
  split
  · next h => rw [if_pos (beq_iff_eq.mp h)]
  · next h => rw [if_neg (beq_eq_false_iff_ne.mp h)]

/-- What is found is the value that was given last. -/
theorem lookup_set : (d.set key v).lookup k = if k = key then some v else d.lookup k := by
  induction d with
  | nil => exact lookup_cons (key, v)
  | cons e d ih =>
    rw [set, lookup_cons]
    split
    · next he =>
      rw [lookup_cons, he]
      split <;> rfl
    · next he =>
      rw [lookup_cons, ih]
      by_cases hk : k = key
      · rw [if_pos hk, if_pos hk, if_neg fun h => he (h.symm.trans hk)]
      · rw [if_neg hk, if_neg hk]

/-- A change of all values is found at every key. -/
theorem lookup_map (f : ν → ν') : List.lookup k (d.map fun e => (e.1, f e.2)) = (d.lookup k).map f := by
  induction d with
  | nil => rfl
  | cons e d ih =>
    rw [List.map_cons, lookup_cons, lookup_cons, ih]
    split <;> rfl

/-- A new key is listed last. -/
theorem set_eq_append (h : ∀ e ∈ d, e.1 ≠ key) : d.set key v = d ++ [(key, v)] := by
  induction d with
  | nil => rfl
  | cons e d ih =>
    obtain ⟨he, hd⟩ := List.forall_mem_cons.mp h
    rw [set, if_neg he, ih hd]
    rfl

end Dictionary

end Croupier
