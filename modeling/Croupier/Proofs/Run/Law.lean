import Croupier.Proofs.Table.Step
import Croupier.Run

/-!
# Laws of runs

A law says what holds of every table that a run works on, of the cards that its values stand for and of the moves among
them. A law is sound if the steps of a table and the ways to get cards keep it. A run keeps a sound law if, started on a
lawful table, it changes the table by steps only and gives a lawful result (`Keeps`); this passes through the sequence of
two runs (`Keeps.bind`), so that the evaluator can be shown to keep every sound law by one induction.
-/

namespace Croupier.Run

/-- A sequence succeeds if and only if both parts do. -/
lemma bind_ok {α β : Type} {m : Run α} {f : α → Run β} {w w'' : Work} {b : β} :
    (m >>= f) w = .ok (b, w'') ↔ ∃ a w', m w = .ok (a, w') ∧ f a w' = .ok (b, w'') := by
  have hb : (m >>= f) w = Except.bind (m w) fun r => f r.1 r.2 := rfl
  rw [hb]
  cases h : m w with
  | error e => simp [Except.bind]
  | ok r =>
    obtain ⟨a, w'⟩ := r
    simp [Except.bind]

/-- After a part that succeeds, a sequence goes on with its result. -/
lemma bind_of_ok {α β : Type} {m : Run α} {f : α → Run β} {w w' : Work} {a : α} (h : m w = .ok (a, w')) :
    (m >>= f) w = f a w' := by
  show Except.bind (m w) (fun r => f r.1 r.2) = f a w'
  rw [h]
  rfl

/-- A sequence fails with its first part. -/
lemma bind_of_error {α β : Type} {m : Run α} {f : α → Run β} {w : Work} {e : Fault} (h : m w = .error e) :
    (m >>= f) w = .error e := by
  show Except.bind (m w) (fun r => f r.1 r.2) = .error e
  rw [h]
  rfl

/-- A result as such leaves the work as it is. -/
lemma pure_ok {α : Type} {a b : α} {w w' : Work} : (pure a : Run α) w = .ok (b, w') ↔ a = b ∧ w = w' := by
  change Except.ok (a, w) = Except.ok (b, w') ↔ _
  simp

/-- What a run can rely on: a property of tables, one of cards and one of moves. -/
structure Law where
  table : Table → Prop
  cards : List Card → Prop
  move : Move → Prop

/-- The values that obey a law. -/
def Law.value (law : Law) : Value → Prop
  | .cards cs => law.cards cs
  | .card c => law.cards [c]
  | .move m => law.move m
  | _ => True

/-- A law that the steps of a table and the ways to get cards keep. -/
structure Law.Sound (law : Law) : Prop where
  step : ∀ {t t' : Table}, Table.Step t t' → law.table t → law.table t'
  pile : ∀ {t : Table} {p : Place}, law.table t → law.cards (t.pile p)
  standardDeck : law.cards Card.standardDeck
  sublist : ∀ {cs cs' : List Card}, cs'.Sublist cs → law.cards cs → law.cards cs'
  moveCards : ∀ {m : Move}, law.move m → law.cards m.cards
  moveTarget : ∀ {m : Move}, law.move m → law.cards m.target

/-- Started on a lawful table, a run changes it by steps only and gives a result with a given property. -/
def Keeps {α : Type} (law : Law) (post : α → Prop) (m : Run α) : Prop :=
  ∀ ⦃w w' : Work⦄ ⦃a : α⦄, law.table w.table → m w = .ok (a, w') → Table.Steps w.table w'.table ∧ post a

/-- A call that keeps a law, given lawful arguments. -/
def KeepsCalls (law : Law) (call : Invoke) : Prop :=
  ∀ name args pos, (∀ v ∈ args, law.value v) → Keeps law law.value (call name args pos)

namespace Keeps

variable {α β : Type} {law : Law} {post : α → Prop} {m : Run α}

/-- A result as such keeps the law if it has the property. -/
lemma pure {a : α} (h : post a) : Keeps law post (pure a) := by
  intro w w' b _ hr
  obtain ⟨rfl, rfl⟩ := pure_ok.mp hr
  exact ⟨.refl, h⟩

/-- A fault keeps the law. -/
lemma fail {f : Fault} : Keeps law post (Run.fail f) := by
  intro w w' a _ hr
  cases hr

/-- A mismatch keeps the law. -/
lemma mismatch {op want : String} {got : Value} {pos : Pos} : Keeps law post (Run.mismatch op want got pos) := fail

/-- To look at the table keeps the law. -/
lemma table : Keeps law law.table Run.table := by
  intro w w' t ht hr
  cases hr
  exact ⟨.refl, ht⟩

/-- To declare actions keeps the law. -/
lemma declare {names : List String} : Keeps law (fun _ => True) (Run.declare names) := by
  intro w w' a _ hr
  cases hr
  exact ⟨.refl, trivial⟩

/-- To change the table by a step keeps the law. -/
lemma modifyTable {f : Table → Table} (hf : ∀ t, law.table t → Table.Step t (f t)) :
    Keeps law (fun _ => True) (Run.modifyTable f) := by
  intro w w' a ht hr
  cases hr
  exact ⟨.single (hf _ ht), trivial⟩

/-- A sequence keeps the law if both parts do. -/
lemma bind {f : α → Run β} {post' : β → Prop} (sound : law.Sound) (hm : Keeps law post m)
    (hf : ∀ a, post a → Keeps law post' (f a)) : Keeps law post' (m >>= f) := by
  intro w w'' b ht hr
  obtain ⟨a, w', hr, hr'⟩ := bind_ok.mp hr
  obtain ⟨st, ha⟩ := hm ht hr
  obtain ⟨st', hb⟩ := hf a ha (st.keeps sound.step ht) hr'
  exact ⟨st.trans st', hb⟩

end Keeps

end Croupier.Run
