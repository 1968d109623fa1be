import Croupier.Proofs.Program.Declarations
import Croupier.Proofs.Run.Eval
import Croupier.Proofs.Table.Layout

/-!
# Executions keep every card

A table has the layout of a program if its stacks are those that the program declares (`Program.LaysOut`), whatever
cards lie in them: a card may be there many times, and it may be one that no deck contains. An execution changes such a
table by steps only, so every card occurs on it as often afterwards as before (`execute_keeps_copies`), however the
functions that run move cards while an expression is still being evaluated.
-/

namespace Croupier

/-- Tells whether an execution committed. -/
def Outcome.commits : Outcome → Bool
  | committed .. => true
  | rejected _ => false

/-- A table has the layout of a program: the shared stacks that the program declares, and for every player a seat with
the stacks that it declares for players. -/
structure Program.LaysOut (p : Program) (t : Table) : Prop where
  shared : t.shared.names = p.tableStacks
  seats : t.seats.map Rack.names = List.replicate p.players.toNat p.playerStacks

namespace Program.LaysOut

variable {p : Program} {t t' : Table}

/-- A change at a place keeps the layout of a program. -/
lemma put (h : p.LaysOut t) (q : Pile) (place : Place) : p.LaysOut (t.put q place) :=
  ⟨(Table.shared_names_put t q place).trans h.shared, (Table.seats_names_put t q place).trans h.seats⟩

/-- A step keeps the layout of a program. -/
lemma step (st : Table.Step t t') (h : p.LaysOut t) : p.LaysOut t' := by
  cases st with
  | transfer hs ht hp => exact (h.put _ _).put _ _
  | shuffle hp =>
    obtain ⟨shared, seats⟩ := h.put (t.generator.shuffle (t.pile _)).1 _
    exact ⟨shared, seats⟩
  | finish => exact ⟨h.shared, h.seats⟩
  | win hw =>
    rcases Table.win?_eq_some hw with rfl | ⟨seat, _, _, rfl⟩
    · exact h
    · exact ⟨h.shared, h.seats⟩
  | pass => exact ⟨h.shared, h.seats⟩

/-- No place of a table is listed twice if its layout is that of a program that was read. -/
lemma places_nodup {source : List Char} (hp : ofSource source = .ok p) (h : p.LaysOut t) : t.places.Nodup := by
  obtain ⟨hshared, hseats, _⟩ := List.nodup_append.mp (stacks_nodup hp)
  apply Table.places_nodup
  · rw [h.shared]
    exact hshared
  · intro rack hrack
    have hnames : Rack.names rack ∈ List.replicate p.players.toNat p.playerStacks := by
      rw [← h.seats]
      exact List.mem_map_of_mem hrack
    rw [List.eq_of_mem_replicate hnames]
    exact hseats

end Program.LaysOut

namespace Program

/-- An execution that commits keeps the layout of the table, and every card occurs at all places together as often as
before, whatever cards lie on the table and in the move. -/
theorem execute_keeps_copies {source : List Char} {p : Program} (hp : ofSource source = .ok p) {t : Table}
    (ht : p.LaysOut t) (depth : Nat) (fn : Function) (ctx : Context) {t' : Table} {v : Value}
    {moves : Option (List String)} (h : p.execute depth fn t ctx = .ok (.committed t' v moves)) :
    p.LaysOut t' ∧ ∀ c, t'.cards.count c = t.cards.count c := by
  have hsteps := execute_steps h
  refine ⟨hsteps.keeps LaysOut.step ht, ?_⟩
  intro c
  exact (hsteps.cards_perm (ht.places_nodup hp)).count_eq c

/-- A program whose predicate takes a card from the pile whenever it is asked. -/
def churn : String := "name churn deck StandardDeck players 2 stack pile stack player:hand
  .(takes a card away) def stir(card)\x7b pile > deck return(true) \x7d
  .(all forms of transfer) def play(player, move)\x7b deck > player:hand - filter(move:cards, stir)
  shuffle(pile) pile > players:hand 1 deck > pile 2 pile > pile end deck > players:hand end \x7d"

/-- On a table with doubles and with a card that no deck contains, every card occurs as often after a move as before. -/
theorem churn_keeps_copies :
    let five := Card.ofCodes 5 1
    let odd := Card.ofCodes 99 7
    let t : Table := ⟨[five, five, odd], [("pile", [five, odd, odd, five])], [[("hand", [odd])], [("hand", [])]], 0, [],
      false, false, 8, .ofSeeds 1 1⟩
    ∃ p fn t' v moves, ofSource churn.toList = .ok p ∧ p.function? "play" = some fn ∧ p.LaysOut t ∧
      p.execute defaultDepth fn t ⟨1, some ⟨1, "play", [odd, five], []⟩⟩ = .ok (.committed t' v moves) ∧
      ∀ c, t'.cards.count c = t.cards.count c := by
  intro five odd t
  have h : (ofSource churn.toList).toOption.any (fun p => (p.function? "play").any fun fn =>
      (t.shared.names = p.tableStacks ∧ t.seats.map Rack.names = List.replicate p.players.toNat p.playerStacks) ∧
      (p.execute defaultDepth fn t ⟨1, some ⟨1, "play", [odd, five], []⟩⟩).toOption.any Outcome.commits) = true := by
    rw [churn, String.toList_ofList]
    decide +kernel
  obtain ⟨p, hp, h⟩ := exists_of_any h
  obtain ⟨fn, hfn, h⟩ := (Option.any_eq_true ..).mp h
  obtain ⟨⟨hshared, hseats⟩, h⟩ := of_decide_eq_true h
  obtain ⟨outcome, hout, h⟩ := exists_of_any h
  cases outcome with
  | committed t' v moves =>
    have ht : p.LaysOut t := ⟨hshared, hseats⟩
    exact ⟨p, fn, t', v, moves, hp, hfn, ht, hout, (execute_keeps_copies hp ht _ fn _ hout).2⟩
  | rejected r => cases h

end Program

end Croupier
