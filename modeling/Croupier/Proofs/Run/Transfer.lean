import Croupier.Proofs.Pile.Removal
import Croupier.Proofs.Run.Law
import Croupier.Run.Transfer

/-!
# Transfers are steps

What the parts of a transfer do when they succeed: a reference leads to a place that is there (`locate_ok`), cards are
taken from the front of a pile (`takeFrom_ok`) or from anywhere in it (`moveThese_ok`). A deal takes all its cards first
and hands them out afterwards; between the two the table lacks cards, so a deal is shown to be a number of steps by
comparing it with the deal that hands out every card as soon as it is taken (`dealFrom_steps`).
-/

namespace Croupier.Run

/-- A reference that leads to a place changes nothing, and the place is there. -/
lemma locate_ok {r : PileRef} {pos : Pos} {w w' : Work} {place : Place} (h : locate r pos w = .ok (place, w')) :
    w' = w ∧ place ∈ w.table.places := by
  unfold locate at h
  obtain ⟨t, w₁, ht, h⟩ := bind_ok.mp h
  cases ht
  cases r with
  | everyPlayer name => cases h
  | ofPlayer id name =>
    cases hs : w.table.seat? id with
    | none => simp only [hs] at h; cases h
    | some seat =>
      cases hp : w.table.seatPlace? seat name with
      | none => simp only [hs, hp] at h; cases h
      | some p =>
        simp only [hs, hp] at h
        obtain ⟨rfl, rfl⟩ := pure_ok.mp h
        exact ⟨rfl, Table.mem_places_of_seatPlace? hp⟩
  | shared name =>
    cases hp : w.table.sharedPlace? name with
    | none => simp only [hp] at h; cases h
    | some p =>
      simp only [hp] at h
      obtain ⟨rfl, rfl⟩ := pure_ok.mp h
      exact ⟨rfl, Table.mem_places_of_sharedPlace? hp⟩

/-- Cards are taken from the front of a pile, and the rest is put back. -/
lemma takeFrom_ok {r : PileRef} {place : Place} {n : Int} {pos : Pos} {w w' : Work} {taken : List Card}
    (h : takeFrom r place n pos w = .ok (taken, w')) :
    ∃ left, Pile.take? n (w.table.pile place) = some (taken, left) ∧
      w' = { w with table := w.table.put left place } := by
  unfold takeFrom at h
  obtain ⟨pile, w₁, hp, h⟩ := bind_ok.mp h
  cases hp
  cases ht : Pile.take? n (w.table.pile place) with
  | none => simp only [ht] at h; cases h
  | some r =>
    obtain ⟨cs, left⟩ := r
    simp only [ht] at h
    obtain ⟨_, w₁, hm, h⟩ := bind_ok.mp h
    cases hm
    obtain ⟨rfl, rfl⟩ := pure_ok.mp h
    exact ⟨left, rfl, rfl⟩

/-- A reference to a shared stack is located where that stack is. -/
lemma locate_shared {src : String} {pos : Pos} {w : Work} {place : Place} (h : w.table.sharedPlace? src = some place) :
    locate (.shared src) pos w = .ok (place, w) := by
  have htable : Run.table w = .ok (w.table, w) := rfl
  rw [locate, bind_of_ok htable]
  simp only [h]
  rfl

/-- A reference to a stack of a player is located at their seat. -/
lemma locate_ofPlayer {id seat : Nat} {name : String} {pos : Pos} {w : Work} (hs : w.table.seat? id = some seat)
    (hp : .seat seat name ∈ w.table.places) : locate (.ofPlayer id name) pos w = .ok (.seat seat name, w) := by
  have htable : Run.table w = .ok (w.table, w) := rfl
  have hplace := Table.seatPlace?_of_mem hp
  rw [locate, bind_of_ok htable]
  simp only [hs, hplace]
  rfl

/-- So many cards can be taken if the pile holds them. -/
lemma takeFrom_enough {r : PileRef} {place : Place} {n : Int} {pos : Pos} {w : Work}
    (h : 0 ≤ n ∧ n ≤ (w.table.pile place).length) :
    takeFrom r place n pos w =
      .ok ((w.table.pile place).take n.toNat,
        { w with table := w.table.put ((w.table.pile place).drop n.toNat) place }) := by
  have htake : Pile.take? n (w.table.pile place) =
      some ((w.table.pile place).take n.toNat, (w.table.pile place).drop n.toNat) := by
    rw [Pile.take?, if_neg (by omega), List.splitAt_eq]
  have hpile : pileAt place w = .ok (w.table.pile place, w) := rfl
  rw [takeFrom, bind_of_ok hpile]
  simp only [htake]
  rfl

/-- So many cards cannot be taken if the pile does not hold them. -/
lemma takeFrom_tooFew {r : PileRef} {place : Place} {n : Int} {pos : Pos} {w : Work}
    (h : ¬(0 ≤ n ∧ n ≤ (w.table.pile place).length)) :
    takeFrom r place n pos w = .error (.tooFewCards r.text n (w.table.pile place).length pos) := by
  have htake : Pile.take? n (w.table.pile place) = none := if_pos (by omega)
  have hpile : pileAt place w = .ok (w.table.pile place, w) := rfl
  rw [takeFrom, bind_of_ok hpile]
  simp only [htake]
  rfl

/-- A set of cards is taken out of one pile and put on another. -/
lemma moveThese_ok {fn : String} {r : PileRef} {source target : Place} {cs : List Card} {pos : Pos} {w w' : Work}
    {u : Unit} (h : moveThese fn r source target cs pos w = .ok (u, w')) :
    ∃ rest, Pile.remove? cs (w.table.pile source) = some rest ∧
      w' = { w with table := (w.table.put rest source).push cs target } := by
  unfold moveThese at h
  obtain ⟨pile, w₁, hp, h⟩ := bind_ok.mp h
  cases hp
  cases hr : Pile.remove? cs (w.table.pile source) with
  | none => simp only [hr] at h; cases h
  | some rest =>
    simp only [hr] at h
    obtain ⟨_, w₁, hm, h⟩ := bind_ok.mp h
    cases hm
    cases h
    exact ⟨rest, rfl, rfl⟩

/-- Cards that have been taken from a pile and are then dealt might as well have been dealt one by one. -/
lemma dealFrom_steps {name : String} {pos : Pos} {turn : Nat} {cs : List Card} {w w' : Work} {u : Unit}
    (h : dealFrom name pos turn cs w = .ok (u, w')) {t : Table} {source : Place} (hs : source ∈ t.places)
    {left : Pile} (hp : cs ++ left = t.pile source) (hw : w.table = t.put left source) :
    Table.Steps t w'.table := by
  -- on `t` the cards that are not yet dealt still lie in front of `left`; on the table of the run they are gone
  induction cs generalizing turn w t left with
  | nil =>
    obtain ⟨_, rfl⟩ := pure_ok.mp h
    have st : Table.Step t ((t.put left source).push [] source) := .transfer hs hs (.of_eq hp)
    rw [Table.push, List.append_nil, Table.pile_put_self hs, Table.put_put, ← hw] at st
    exact .single st
  | cons c cs ih =>
    unfold dealFrom at h
    obtain ⟨t₁, w₁, ht, h⟩ := bind_ok.mp h
    cases ht
    cases hd : w.table.seatPlace? (turn % w.table.players) name with
    | none => simp only [hd] at h; cases h
    | some target =>
      simp only [hd] at h
      obtain ⟨_, w₁, hm, h⟩ := bind_ok.mp h
      cases hm
      have ht : target ∈ t.places := by
        have hm := Table.mem_places_of_seatPlace? hd
        rwa [hw, Table.places_put] at hm
      have st : Table.Step t ((t.put (cs ++ left) source).push [c] target) := .transfer hs ht (.of_eq hp)
      refine .head st ?_
      obtain ⟨t', left', hplaces, _, hput⟩ := t.exists_put_eq_push hs target c left
      have hs' : source ∈ t'.places := hplaces ▸ hs
      rw [hput cs]
      refine ih h (by rwa [Table.places_put]) (Table.pile_put_self hs' _).symm ?_
      simp only [hw, Table.put_put]
      exact hput []

variable {law : Law} {eval : Expr → Run Value} {invoke : Invoke}

/-- A transfer whose ends refer to piles moves cards between them, and the run goes on from there. -/
lemma bind_transfer {α : Type} {source target : Expr} {w w₁ w₂ : Work} {sourceRef targetRef : PileRef} {place : Place}
    {fn : String} {amount : Amount} {pos : Pos} {f : Unit → Run α} (hs : eval source w = .ok (.pile sourceRef, w₁))
    (ht : eval target w₁ = .ok (.pile targetRef, w₂)) (hl : locate sourceRef source.pos w₂ = .ok (place, w₂)) :
    (transfer eval invoke fn source target amount pos >>= f) w =
      (transferBetween eval invoke fn sourceRef place targetRef target.pos amount pos >>= f) w₂ := by
  have hsource : pileRef "transfer source" (.pile sourceRef) source.pos w₁ = .ok (sourceRef, w₁) := rfl
  have htarget : pileRef "transfer destination" (.pile targetRef) target.pos w₂ = .ok (targetRef, w₂) := rfl
  rw [transfer]
  simp only [bind_assoc]
  rw [bind_of_ok hs, bind_of_ok hsource, bind_of_ok ht, bind_of_ok htarget, bind_of_ok hl]

/-- To locate a pile keeps the law. -/
lemma locate_keeps {r : PileRef} {pos : Pos} : Keeps law (fun _ => True) (locate r pos) := by
  intro w w' place _ h
  obtain ⟨rfl, _⟩ := locate_ok h
  exact ⟨.refl, trivial⟩

/-- The cards of a pile on a lawful table are lawful. -/
lemma pileAt_keeps (sound : law.Sound) {p : Place} : Keeps law law.cards (pileAt p) :=
  .bind sound .table fun _ ht => .pure (sound.pile ht)

/-- The cards that a lawful value holds are lawful. -/
lemma heldCards_keeps (sound : law.Sound) {op : String} {v : Value} {pos : Pos} (hv : law.value v) :
    Keeps law law.cards (heldCards op v pos) := by
  cases v with
  | cards cs => exact .pure hv
  | card c => exact .pure hv
  | pile r => exact .bind sound locate_keeps fun place _ => pileAt_keeps sound
  | _ => exact .mismatch

/-- The cards that a lawful value stands for are lawful, if calls keep the law. -/
lemma cardsOf_keeps (sound : law.Sound) (hcall : KeepsCalls law invoke) {op : String} {v : Value} {pos : Pos}
    (hv : law.value v) : Keeps law law.cards (cardsOf invoke op v pos) := by
  unfold cardsOf
  split
  · next name =>
    refine .bind sound (hcall name [] pos (by simp)) fun result hresult => ?_
    exact heldCards_keeps sound hresult
  · exact heldCards_keeps sound hv

/-- To ask for a reference keeps the law. -/
lemma pileRef_keeps {op : String} {v : Value} {pos : Pos} : Keeps law (fun _ => True) (pileRef op v pos) := by
  cases v with
  | pile r => exact .pure trivial
  | _ => exact .mismatch

/-- A transfer to one place is a number of steps. -/
lemma moveTo_steps (sound : law.Sound) (heval : ∀ e, Keeps law law.value (eval e)) (hcall : KeepsCalls law invoke)
    {fn : String} {r targetRef : PileRef} {source : Place} {targetPos pos : Pos} {amount : Amount} {w w' : Work}
    {u : Unit} (ht : law.table w.table) (hs : source ∈ w.table.places)
    (h : moveTo eval invoke fn r source targetRef targetPos amount pos w = .ok (u, w')) :
    Table.Steps w.table w'.table := by
  unfold moveTo at h
  obtain ⟨target, w₁, hl, hmove⟩ := bind_ok.mp h
  obtain ⟨rfl, htarget⟩ := locate_ok hl
  cases amount with
  | these e =>
    obtain ⟨v, w₂, hv, hmove⟩ := bind_ok.mp hmove
    obtain ⟨st, hvalue⟩ := heval e ht hv
    obtain ⟨cs, w₃, hc, hmove⟩ := bind_ok.mp hmove
    obtain ⟨st', _⟩ := cardsOf_keeps sound hcall hvalue (st.keeps sound.step ht) hc
    obtain ⟨rest, hr, rfl⟩ := moveThese_ok hmove
    have same := Table.Steps.sameLayout (st.trans st')
    exact (st.trans st').tail (.transfer (same.places ▸ hs) (same.places ▸ htarget) (Pile.perm_of_remove? hr))
  | _ =>
    obtain ⟨pile, w₂, hp, hmove⟩ := bind_ok.mp hmove
    cases hp
    obtain ⟨taken, w₂, htake, hpush⟩ := bind_ok.mp hmove
    obtain ⟨left, hleft, rfl⟩ := takeFrom_ok htake
    cases hpush
    exact .single (.transfer hs htarget (.of_eq (Pile.append_of_take? hleft)))

/-- A transfer between two piles is a number of steps. -/
lemma transferBetween_steps (sound : law.Sound) (heval : ∀ e, Keeps law law.value (eval e))
    (hcall : KeepsCalls law invoke) {fn : String} {r targetRef : PileRef} {source : Place} {targetPos pos : Pos}
    {amount : Amount} {w w' : Work} {u : Unit} (ht : law.table w.table) (hs : source ∈ w.table.places)
    (h : transferBetween eval invoke fn r source targetRef targetPos amount pos w = .ok (u, w')) :
    Table.Steps w.table w'.table := by
  cases targetRef with
  | everyPlayer name =>
    obtain ⟨pile, w₁, hpile, h⟩ := bind_ok.mp h
    cases hpile
    obtain ⟨t, w₁, htable, h⟩ := bind_ok.mp h
    cases htable
    obtain ⟨dealt, w₁, htake, hdeal⟩ := bind_ok.mp h
    obtain ⟨left, hleft, rfl⟩ := takeFrom_ok htake
    exact dealFrom_steps hdeal hs (Pile.append_of_take? hleft) rfl
  | shared name => exact moveTo_steps sound heval hcall ht hs h
  | ofPlayer id name => exact moveTo_steps sound heval hcall ht hs h

/-- A transfer keeps every sound law. -/
lemma transfer_keeps (sound : law.Sound) (heval : ∀ e, Keeps law law.value (eval e)) (hcall : KeepsCalls law invoke)
    {fn : String} {source target : Expr} {amount : Amount} {pos : Pos} :
    Keeps law (fun _ => True) (transfer eval invoke fn source target amount pos) := by
  unfold transfer
  refine .bind sound (heval source) fun v _ => ?_
  refine .bind sound pileRef_keeps fun sourceRef _ => ?_
  refine .bind sound (heval target) fun v _ => ?_
  refine .bind sound pileRef_keeps fun targetRef _ => ?_
  intro w w' u ht h
  obtain ⟨place, w₁, hl, hmove⟩ := bind_ok.mp h
  obtain ⟨rfl, hs⟩ := locate_ok hl
  exact ⟨transferBetween_steps sound heval hcall ht hs hmove, trivial⟩

end Croupier.Run
