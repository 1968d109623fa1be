import Croupier.Program.Parser
import Croupier.Proofs.Run.Eval

/-!
# Transfers of a set of cards

A transfer of a set of cards evaluates its two ends (`Ends`) and then the set, which may itself move cards. What it does
is said of the table that lies there after that: the cards of the set leave the source, whose other cards keep their
order, and go to the end of the target, which may be the source (`Moved`); if the source does not hold the set, the
move is rejected. A set cannot go to every player. Binding refuses that where it can be seen, but a reference to the
stacks of every player can come from an argument: then the set is not looked at, and one card is dealt to each
(`subset_transfer`), as the `giveaway` of cards that nobody has shows.
-/

namespace Croupier

namespace Run

/-- A set of cards has gone from one place to another: it has left the source, where `rest` remains in its order, and
lies at the end of the target, which may be the source; no other pile has changed. -/
structure Moved (source target : Place) (cs rest : List Card) (t t' : Table) : Prop where
  gone : (cs ++ rest).Perm (t.pile source)
  order : rest.Sublist (t.pile source)
  atSource : source ≠ target → t'.pile source = rest
  atTarget : t'.pile target = (if source = target then rest else t.pile target) ++ cs
  others : ∀ q, q ≠ source → q ≠ target → t'.pile q = t.pile q
  places : t'.places = t.places

/-- What is removed from one pile and pushed on another has gone there. -/
lemma moved_of_remove? {t : Table} {source target : Place} (hs : source ∈ t.places) (ht : target ∈ t.places)
    {cs rest : List Card} (h : Pile.remove? cs (t.pile source) = some rest) :
    Moved source target cs rest t ((t.put rest source).push cs target) where
  gone := Pile.perm_of_remove? h
  order := Pile.sublist_of_remove? h
  atSource hne := (Table.pile_put_ne hne _).trans (Table.pile_put_self hs _)
  atTarget := by
    have ht' : target ∈ (t.put rest source).places := by simpa using ht
    refine (Table.pile_put_self ht' _).trans (congrArg (· ++ cs) ?_)
    split
    · next he =>
      subst he
      exact Table.pile_put_self hs _
    · next hne => exact Table.pile_put_ne (Ne.symm hne) _
  others q hq hq' := (Table.pile_put_ne hq' _).trans (Table.pile_put_ne hq _)
  places := (Table.places_put ..).trans (Table.places_put ..)

/-- The ends of a transfer are evaluated one after the other: what they refer to, the place that cards are to come from,
and the work that is left. -/
structure Ends (env : Env) (call : Invoke) (scope : Scope) (source target : Expr) (w : Work)
    (sourceRef targetRef : PileRef) (place : Place) (w' : Work) : Prop where
  evaluated : ∃ w₁, eval env call scope source w = .ok (.pile sourceRef, w₁) ∧
    eval env call scope target w₁ = .ok (.pile targetRef, w')
  located : locate sourceRef source.pos w' = .ok (place, w')

/-- The cards of the set that an expression stands for. -/
def cardSet (env : Env) (call : Invoke) (scope : Scope) (e : Expr) : Run (List Card) := do
  let v ← eval env call scope e
  cardsOf call "transfer subset" v e.pos

variable {env : Env} {call : Invoke} {scope : Scope} {source target e : Expr} {fn : String} {pos : Pos}
  {w w' w₁ w₂ w₃ : Work} {sourceRef targetRef : PileRef} {place place' : Place}

/-- A reference is read off the value that refers to a pile, and nothing else. -/
lemma pileRef_ok {op : String} {v : Value} {r : PileRef} (h : pileRef op v pos w = .ok (r, w')) :
    v = .pile r ∧ w' = w := by
  cases v with
  | pile r' =>
    obtain ⟨rfl, rfl⟩ := pure_ok.mp h
    exact ⟨rfl, rfl⟩
  | _ => cases h

/-- A transfer that succeeds has evaluated its ends. -/
lemma ends_of_exec {amount : Amount} {r : Option Value}
    (h : exec env call fn scope (.transfer source target amount pos) w = .ok (r, w')) :
    ∃ sourceRef targetRef place w₂, Ends env call scope source target w sourceRef targetRef place w₂ := by
  rw [exec] at h
  obtain ⟨_, _, htransfer, _⟩ := bind_ok.mp h
  obtain ⟨v, w₁, hs, h₁⟩ := bind_ok.mp htransfer
  obtain ⟨sourceRef, _, hr, h₂⟩ := bind_ok.mp h₁
  obtain ⟨rfl, rfl⟩ := pileRef_ok hr
  obtain ⟨v', w₂, ht, h₃⟩ := bind_ok.mp h₂
  obtain ⟨targetRef, _, hr', h₄⟩ := bind_ok.mp h₃
  obtain ⟨rfl, rfl⟩ := pileRef_ok hr'
  obtain ⟨place, _, hl, _⟩ := bind_ok.mp h₄
  obtain ⟨rfl, _⟩ := locate_ok hl
  exact ⟨sourceRef, targetRef, place, _, ⟨_, hs, ht⟩, hl⟩

/-- Once its ends are evaluated, a transfer goes on between the two piles. -/
lemma exec_of_ends (h : Ends env call scope source target w sourceRef targetRef place w₂) (amount : Amount) :
    exec env call fn scope (.transfer source target amount pos) w =
      (transferBetween (eval env call scope) call fn sourceRef place targetRef target.pos amount pos >>=
        fun _ => pure none) w₂ := by
  obtain ⟨⟨w₁, hs, ht⟩, hl⟩ := h
  rw [exec, bind_transfer hs ht hl]

/-- A set of cards that goes to one pile is evaluated after that pile has been found. -/
lemma exec_these_of_ends (h : Ends env call scope source target w sourceRef targetRef place w₂)
    (hone : ∀ name, targetRef ≠ .everyPlayer name) :
    exec env call fn scope (.transfer source target (.these e) pos) w = (do
      let place' ← locate targetRef target.pos
      let cs ← cardSet env call scope e
      moveThese fn sourceRef place place' cs pos
      pure none) w₂ := by
  have hto : transferBetween (eval env call scope) call fn sourceRef place targetRef target.pos (.these e) pos =
      moveTo (eval env call scope) call fn sourceRef place targetRef target.pos (.these e) pos := by
    cases targetRef with
    | everyPlayer name => exact absurd rfl (hone name)
    | shared name => rfl
    | ofPlayer id name => rfl
  rw [exec_of_ends h, hto, moveTo]
  simp only [cardSet, bind_assoc]

/-- To find the cards of a set may move cards, but it keeps the places. -/
lemma places_of_cardSet {depth : Nat} {cs : List Card}
    (h : cardSet env (invoke env (enter env depth)) scope e w = .ok (cs, w')) : w'.table.places = w.table.places := by
  have hvalue : ∀ v, Law.free.value v := fun v => by cases v <;> trivial
  have hcall : KeepsCalls Law.free (invoke env (enter env depth)) :=
    invoke_keeps Law.free_sound (enter_keeps Law.free_sound (fun _ _ => trivial) depth)
  have hkeeps : Keeps Law.free (fun _ => True) (cardSet env (invoke env (enter env depth)) scope e) := by
    refine .bind Law.free_sound (eval_keeps Law.free_sound hcall (fun x _ => hvalue x.2) e) fun v hv => ?_
    intro w w' cs ht hr
    exact ⟨(cardsOf_keeps Law.free_sound hcall hv ht hr).1, trivial⟩
  exact (Table.Steps.sameLayout (hkeeps trivial h).1).places

/-- Cards that the source holds can be moved. -/
lemma moveThese_moved {cs : List Card} (hs : place ∈ w.table.places) (ht : place' ∈ w.table.places)
    (h : ∀ c, cs.count c ≤ (w.table.pile place).count c) :
    ∃ rest t, moveThese fn sourceRef place place' cs pos w = .ok ((), ⟨t, w.moves⟩) ∧
      Moved place place' cs rest w.table t := by
  obtain ⟨rest, hrest⟩ := Option.isSome_iff_exists.mp (Pile.remove?_isSome_iff.mpr h)
  have hpile : pileAt place w = .ok (w.table.pile place, w) := rfl
  refine ⟨rest, _, ?_, moved_of_remove? hs ht hrest⟩
  rw [moveThese, bind_of_ok hpile]
  simp only [hrest]
  rfl

/-- If a card is missing, the move of the set is rejected. -/
lemma moveThese_missing {cs : List Card} {c : Card} (h : (w.table.pile place).count c < cs.count c) :
    moveThese fn sourceRef place place' cs pos w =
      .error (.rejected ⟨fn, (Value.cards cs).text ++ " not all in " ++ sourceRef.text, pos⟩) := by
  have hnone : Pile.remove? cs (w.table.pile place) = none := by
    refine Option.not_isSome_iff_eq_none.mp fun hsome => ?_
    exact absurd (Pile.remove?_isSome_iff.mp hsome c) (Nat.not_le.mpr h)
  have hpile : pileAt place w = .ok (w.table.pile place, w) := rfl
  rw [moveThese, bind_of_ok hpile]
  simp only [hnone]
  rfl

/-- A transfer of a set of cards to one pile, in any scope and on any table. If it succeeds, the cards of the set have
gone from the source to the target, and nothing else has moved since the set was evaluated. It succeeds if and only if
the source holds the set, as soon as its ends and the set can be evaluated; if a card is missing, the move is rejected.
A transfer to every player does not look at the set: it deals one card to each. -/
theorem subset_transfer (env : Env) (depth : Nat) (fn : String) (scope : Scope) (source target e : Expr) (pos : Pos)
    (w : Work) :
    let call := invoke env (enter env depth)
    let transfer := fun amount => exec env call fn scope (.transfer source target amount pos) w
    (∀ r w', transfer (.these e) = .ok (r, w') →
      ∃ sourceRef targetRef place w₂, Ends env call scope source target w sourceRef targetRef place w₂ ∧
        ((∀ name, targetRef ≠ .everyPlayer name) →
          ∃ place' cs w₃ rest, locate targetRef target.pos w₂ = .ok (place', w₂) ∧
            cardSet env call scope e w₂ = .ok (cs, w₃) ∧
            r = none ∧ w'.moves = w₃.moves ∧ Moved place place' cs rest w₃.table w'.table)) ∧
      (∀ sourceRef targetRef place place' w₂ w₃ cs,
        Ends env call scope source target w sourceRef targetRef place w₂ →
        locate targetRef target.pos w₂ = .ok (place', w₂) → cardSet env call scope e w₂ = .ok (cs, w₃) →
        ((∃ r, transfer (.these e) = .ok r) ↔ ∀ c, cs.count c ≤ (w₃.table.pile place).count c) ∧
        ((∃ c, (w₃.table.pile place).count c < cs.count c) → transfer (.these e) =
          .error (.rejected ⟨fn, (Value.cards cs).text ++ " not all in " ++ sourceRef.text, pos⟩))) ∧
      ∀ sourceRef name place w₂, Ends env call scope source target w sourceRef (.everyPlayer name) place w₂ →
        transfer (.these e) = transfer .one := by
  intro call transfer
  refine ⟨?_, ?_, ?_⟩
  · intro r w' h
    obtain ⟨sourceRef, targetRef, place, w₂, hends⟩ := ends_of_exec h
    refine ⟨sourceRef, targetRef, place, w₂, hends, ?_⟩
    intro hone
    have hrun := (exec_these_of_ends hends hone).symm.trans h
    obtain ⟨place', _, hl, hset⟩ := bind_ok.mp hrun
    obtain ⟨rfl, htarget⟩ := locate_ok hl
    obtain ⟨cs, w₃, hcs, hmove⟩ := bind_ok.mp hset
    obtain ⟨_, _, hmove, hdone⟩ := bind_ok.mp hmove
    obtain ⟨rest, hrest, rfl⟩ := moveThese_ok hmove
    obtain ⟨rfl, rfl⟩ := pure_ok.mp hdone
    -- the places were found before the set was evaluated, which has not changed them
    have hplaces := places_of_cardSet hcs
    have hsource := (locate_ok hends.located).2
    exact ⟨place', cs, w₃, rest, hl, hcs, rfl, rfl,
      moved_of_remove? (hplaces ▸ hsource) (hplaces ▸ htarget) hrest⟩
  · intro sourceRef targetRef place place' w₂ w₃ cs hends hl hcs
    have hone : ∀ name, targetRef ≠ .everyPlayer name := by
      rintro name rfl
      cases hl
    have hrun : transfer (.these e) = (do
        moveThese fn sourceRef place place' cs pos
        pure none : Run (Option Value)) w₃ := by
      refine (exec_these_of_ends hends hone).trans ?_
      rw [bind_of_ok hl, bind_of_ok hcs]
    have hmissing : (∃ c, (w₃.table.pile place).count c < cs.count c) → transfer (.these e) =
        .error (.rejected ⟨fn, (Value.cards cs).text ++ " not all in " ++ sourceRef.text, pos⟩) := by
      rintro ⟨c, hc⟩
      exact hrun.trans (bind_of_error (moveThese_missing hc))
    refine ⟨⟨?_, ?_⟩, hmissing⟩
    · rintro ⟨r, hr⟩ c
      by_contra hlt
      rw [hmissing ⟨c, Nat.not_le.mp hlt⟩] at hr
      cases hr
    · intro hheld
      have hplaces := places_of_cardSet hcs
      have hsource : place ∈ w₃.table.places := hplaces ▸ (locate_ok hends.located).2
      have htarget : place' ∈ w₃.table.places := hplaces ▸ (locate_ok hl).2
      obtain ⟨rest, t, hmove, _⟩ := moveThese_moved hsource htarget hheld
      exact ⟨_, hrun.trans (bind_of_ok hmove)⟩
  · intro sourceRef name place w₂ hends
    -- a deal to every player takes one card for each and does not look at the set
    exact (exec_of_ends hends (.these e)).trans (exec_of_ends hends .one).symm

/-- A card in the middle of a pile is put under the same pile; a card that is not there cannot be. -/
theorem tucked_under :
    let cards := [Card.ofCodes 1 0, Card.ofCodes 2 0, Card.ofCodes 3 0]
    let t : Table := ⟨[], [("pile", cards)], [[]], 0, [], false, false, 3, .ofSeeds 1 1⟩
    let env : Env := ⟨⟨"tuck", .name "StandardDeck" .start, 1, 1, ["pile"], [], []⟩, {}⟩
    let pile : Expr := .name "pile" .start
    let tuck := fun cs => exec env (invoke env (enter env 1)) "tuck" [("those", .cards cs)]
      (.transfer pile pile (.these (.name "those" .start)) .start) ⟨t, none⟩
    (∃ w' rest, tuck [Card.ofCodes 2 0] = .ok (none, w') ∧
      Moved (.shared "pile") (.shared "pile") [Card.ofCodes 2 0] rest t w'.table) ∧
    ∃ r, tuck [Card.ofCodes 2 0, Card.ofCodes 2 0] = .error (.rejected r) := by
  intro cards t env pile tuck
  have hends : ∀ cs, Ends env (invoke env (enter env 1)) [("those", .cards cs)] pile pile ⟨t, none⟩ (.shared "pile")
      (.shared "pile") (.shared "pile") ⟨t, none⟩ := fun cs => ⟨⟨_, rfl, rfl⟩, rfl⟩
  have hset : ∀ cs, cardSet env (invoke env (enter env 1)) [("those", .cards cs)] (.name "those" .start) ⟨t, none⟩ =
      .ok (cs, ⟨t, none⟩) := fun cs => rfl
  have hdecides := fun cs => (subset_transfer env 1 "tuck" [("those", .cards cs)] pile pile (.name "those" .start)
    .start ⟨t, none⟩).2.1 _ _ _ _ _ _ _ (hends cs) rfl (hset cs)
  refine ⟨?_, _, (hdecides _).2 ⟨Card.ofCodes 2 0, by decide⟩⟩
  obtain ⟨⟨r, w'⟩, hrun⟩ := (hdecides [Card.ofCodes 2 0]).1.mpr (Pile.remove?_isSome_iff.mp (by decide))
  obtain ⟨_, _, _, _, ⟨⟨_, hs, ht⟩, hl⟩, hmoved⟩ :=
    (subset_transfer env 1 "tuck" _ pile pile _ .start ⟨t, none⟩).1 _ _ hrun
  cases hs
  cases ht
  cases hl
  obtain ⟨_, _, _, rest, hl', hcs, rfl, _, hm⟩ := hmoved nofun
  cases hl'
  cases hcs
  exact ⟨w', rest, hrun, hm⟩

/-- A program that passes the stacks of every player to a function, which moves a set of cards there. -/
def giveaway : String := "name giveaway deck StandardDeck players 2 stack player:hand
  .(one pile is meant) def give(pile, cards)\x7b deck > pile - cards \x7d
  .(two are named) def deal(player, move)\x7b give(players:hand, move:cards) \x7d"

/-- The deck does not hold the card of the set, but the transfer succeeds, and every player gets another card. -/
theorem giveaway_deals_other_cards :
    ∃ p t fn, Program.ofSource giveaway.toList = .ok p ∧ p.newTable defaultDepth 1 = .ok t ∧
      p.function? "deal" = some fn ∧ Card.ofCodes 99 0 ∉ t.deck ∧
      p.execute defaultDepth fn t ⟨1, some ⟨1, "deal", [Card.ofCodes 99 0], []⟩⟩ = .ok (.committed
        { t with deck := t.deck.drop 2, seats := (t.deck.take 2).map fun c => [("hand", [c])] } .empty none) := by
  have h : (Program.ofSource giveaway.toList).toOption.any (fun p => (p.newTable defaultDepth 1).toOption.any fun t =>
      (p.function? "deal").any fun fn => Card.ofCodes 99 0 ∉ t.deck ∧
        (p.execute defaultDepth fn t ⟨1, some ⟨1, "deal", [Card.ofCodes 99 0], []⟩⟩).toOption = some (.committed
          { t with deck := t.deck.drop 2, seats := (t.deck.take 2).map fun c => [("hand", [c])] } .empty none)) =
      true := by
    rw [giveaway, String.toList_ofList]
    decide +kernel
  obtain ⟨p, hp, h⟩ := exists_of_any h
  obtain ⟨t, ht, h⟩ := exists_of_any h
  obtain ⟨fn, hfn, h⟩ := (Option.any_eq_true ..).mp h
  obtain ⟨hforeign, hout⟩ := of_decide_eq_true h
  exact ⟨p, t, fn, hp, ht, hfn, hforeign, toOption_eq_some.mp hout⟩

end Run

end Croupier
