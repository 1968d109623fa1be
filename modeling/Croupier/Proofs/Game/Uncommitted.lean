import Croupier.Proofs.Game.Session

/-!
# Moves that are not committed

A move that is refused or fails leaves the whole game as it was. So moves that are not committed can be put anywhere
between the requests of a session, and the exchanges of the requests stay as they were.
-/

namespace Croupier

/-- A request of a session, or a move that is put between its requests. -/
inductive Slot where
  | own (request : Request)
  | extra (move : Move)
  deriving DecidableEq, Repr

namespace Slot

/-- What is requested in a slot. -/
def request : Slot → Request
  | own r => r
  | extra m => .submit m

/-- The request of the session in a slot. -/
def own? : Slot → Option Request
  | own r => some r
  | extra _ => none

end Slot

namespace Game

/-- The exchanges of a session with extra moves, each with its slot. -/
def slotSession (g : Game) (slots : List Slot) : List (Slot × Exchange) :=
  slots.zip (g.session (slots.map Slot.request))

/-- A session with extra moves goes slot by slot. -/
lemma slotSession_cons (g : Game) (s : Slot) (slots : List Slot) :
    g.slotSession (s :: slots) = (s, g.handle s.request) :: (g.handle s.request).game.slotSession slots := rfl

/-- A move that is not committed leaves the game as it was. -/
lemma submit_game {g : Game} (hs : g.Settled) {m : Move} (hc : (g.submit m).commits = false) :
    (g.submit m).game = g := by
  rcases submit_cases hs m with ⟨_, hg⟩ | ⟨hyes, _⟩
  · exact hg
  · rw [hc] at hyes
    cases hyes

/-- Extra moves that are not committed change no exchange of the session. -/
lemma slotSession_own {g : Game} (hs : g.Settled) {slots : List Slot}
    (hextra : ∀ m e, (.extra m, e) ∈ g.slotSession slots → e.answer.commits = false) :
    (g.slotSession slots).filterMap (fun (s, e) => s.own?.map fun _ => e) = g.session (slots.filterMap Slot.own?) ∧
      g.after (slots.map Slot.request) = g.after (slots.filterMap Slot.own?) := by
  induction slots generalizing g with
  | nil => exact ⟨rfl, rfl⟩
  | cons s slots ih =>
    rw [slotSession_cons] at hextra ⊢
    have hrest := ih (handle_settled hs s.request) fun m e he => hextra m e (List.mem_cons_of_mem _ he)
    cases s with
    | own r => exact ⟨congrArg (g.handle r :: ·) hrest.1, hrest.2⟩
    | extra m =>
      have hc := hextra m _ List.mem_cons_self
      have hg : (g.handle (.submit m)).game = g := submit_game hs (handle_submit_commits g m ▸ hc)
      -- the rest of the session starts from the same game
      have hsame : (g.handle (Slot.extra m).request).game = g := hg
      rw [hsame] at hrest ⊢
      refine ⟨hrest.1, ?_⟩
      show (g.handle (.submit m)).game.after (slots.map Slot.request) = _
      rw [hg]
      exact hrest.2

/-- In every session a move that is not committed leaves the whole game as it was; so a session goes on in the same way,
request by request, when any number of such moves are put between its requests. -/
theorem uncommitted_moves_change_nothing {id : String} {p : Program} {o : GameOptions} {g : Game} {es : List Event}
    (h : start id p o = .ok (g, es)) :
    (∀ rs m, ((g.after rs).submit m).commits = false → ((g.after rs).submit m).game = g.after rs) ∧
      ∀ slots : List Slot,
        (∀ m e, (.extra m, e) ∈ g.slotSession slots → e.answer.commits = false) →
        (g.slotSession slots).filterMap (fun (s, e) => s.own?.map fun _ => e) =
            g.session (slots.filterMap Slot.own?) ∧
          g.after (slots.map Slot.request) = g.after (slots.filterMap Slot.own?) := by
  have hs := start_settled h
  exact ⟨fun rs m hc => submit_game (after_settled hs rs) hc, fun slots hextra => slotSession_own hs hextra⟩

/-- A move that is not open, between two that are committed, leaves no trace. -/
theorem duel_steal_changes_nothing :
    ∃ p g es, start p.name p {} = .ok (g, es) ∧
      g.after [.submit ⟨0, "drop", [], []⟩, .submit ⟨0, "steal", [], []⟩, .submit ⟨0, "quit", [], []⟩] =
        g.after [.submit ⟨0, "drop", [], []⟩, .submit ⟨0, "quit", [], []⟩] := by
  let slots : List Slot :=
    [.own (.submit ⟨0, "drop", [], []⟩), .extra ⟨0, "steal", [], []⟩, .own (.submit ⟨0, "quit", [], []⟩)]
  have hg : (ofSource? duel.toList).any (fun g =>
      (g.slotSession slots).all fun e => e.1.own?.isSome || !e.2.answer.commits) = true := by
    rw [duel, String.toList_ofList]
    decide +kernel
  obtain ⟨p, g, es, _, hs, hall⟩ := exists_of_ofSource? hg
  refine ⟨p, g, es, hs, ((uncommitted_moves_change_nothing hs).2 slots fun m e he => ?_).2⟩
  simpa [Slot.own?] using List.all_eq_true.mp hall _ he

end Game

end Croupier
