import Croupier.Proofs.Game.Session
import Croupier.Proofs.Run.Seed

/-!
# Games of programs that do not shuffle

Two games of a program that does not shuffle, with different seeds, cannot be told apart: one is the other in disguise,
by another name and with another generator (`Game.disguise`). A request to a game in disguise does what it does to the
game itself (`handle_disguise`), so their sessions agree, exchange by exchange (`session_disguise`).
-/

namespace Croupier

namespace Table

variable (t : Table) (x : Generator)

/-- The places that placements refer to do not depend on the generator. -/
lemma targets_reseed (seen : List Place) (ps : List Placement) : (t.reseed x).targets seen ps = t.targets seen ps := by
  induction ps generalizing seen with
  | nil => rfl
  | cons p ps ih =>
    have hfind : (t.reseed x).find p.ref = t.find p.ref := rfl
    unfold targets
    rw [hfind]
    simp only [ih]

/-- To clear places does not touch the generator. -/
lemma clear_reseed (places : List Place) : (t.reseed x).clear places = (t.clear places).reseed x := by
  induction places generalizing t with
  | nil => rfl
  | cons p places ih =>
    show ((t.reseed x).put [] p).clear places = ((t.put [] p).clear places).reseed x
    rw [put_reseed, ih]

/-- Where a card is found does not depend on the generator. -/
lemma takeElsewhere_reseed (filled : List Place) (c : Card) :
    (t.reseed x).takeElsewhere filled c = (t.takeElsewhere filled c).map (·.reseed x) := by
  unfold takeElsewhere
  rw [List.map_findSome?]
  refine congrArg (List.findSome? · _) (funext fun p => ?_)
  have hpile : (t.reseed x).pile p = t.pile p := rfl
  rw [Function.comp_apply, hpile, Option.map_map]
  refine congrArg (Option.map · _) (funext fun rest => ?_)
  exact t.put_reseed x rest p

/-- The table of a result, with another generator. -/
def reseedFst (x : Generator) (r : Table × List Card) : Table × List Card := (r.1.reseed x, r.2)

/-- How a card is placed does not depend on the generator. -/
lemma placeCard_reseed (filled : List Place) (target : Place) (loose : List Card) (c : Card) :
    placeCard filled target (t.reseed x) loose c = (placeCard filled target t loose c).map (reseedFst x) := by
  unfold placeCard
  split
  · rw [push_reseed]
    rfl
  · rw [takeElsewhere_reseed]
    cases t.takeElsewhere filled c with
    | none => rfl
    | some t' =>
      simp only [Option.map_some, push_reseed]
      rfl

/-- How the cards of a placement are placed does not depend on the generator. -/
lemma placeCards_reseed (filled : List Place) (ref : String) (target : Place) (cs loose : List Card) :
    placeCards filled ref target cs (t.reseed x) loose =
      (placeCards filled ref target cs t loose).map (reseedFst x) := by
  induction cs generalizing t loose with
  | nil => rfl
  | cons c cs ih =>
    unfold placeCards
    rw [placeCard_reseed]
    cases placeCard filled target t loose c with
    | none => rfl
    | some r => exact ih r.1 r.2

/-- How the places are filled does not depend on the generator. -/
lemma fill_reseed (filled : List Place) (targets : List (Placement × Place)) (loose : List Card) :
    fill filled targets (t.reseed x) loose = (fill filled targets t loose).map (reseedFst x) := by
  induction targets generalizing t loose with
  | nil => rfl
  | cons target targets ih =>
    obtain ⟨p, target⟩ := target
    exact bind_map (t.placeCards_reseed x filled p.ref target p.cards loose) fun r => ih r.1 r.2

/-- The arrangement of a table does not depend on its generator. -/
lemma arrange_reseed (ps : List Placement) : (t.reseed x).arrange ps = (t.arrange ps).map (·.reseed x) := by
  unfold arrange
  rw [targets_reseed]
  refine bind_map_right fun places => ?_
  refine bind_map (f := reseedFst x) ?_ fun r => ?_
  · rw [clear_reseed]
    exact fill_reseed _ x places (ps.zip places) _
  · obtain ⟨t', loose⟩ := r
    exact ite_map (c := (t'.push loose .deck).total ≠ (t'.push loose .deck).initial) rfl rfl

end Table

/-- The event as one of another game. -/
def Event.ofGame (e : Event) (id : String) : Event := { e with game := id }

/-- The answer as one of another game. -/
def Answer.ofGame (id : String) : Answer → Answer
  | submitted reply events => submitted reply (events.map (·.ofGame id))
  | arranged result => arranged result

/-- The resolution with another generator on its table. -/
def Resolution.reseed (x : Generator) : Resolution → Resolution
  | accepted t moves => accepted (t.reseed x) moves
  | rejected r => rejected r

/-- The same game by another name and with another generator. -/
def Game.disguise (g : Game) (id : String) (x : Generator) : Game := { g with id := id, table := g.table.reseed x }

/-- What a submitted move does to a game in disguise. -/
def Submission.disguise (s : Submission) (id : String) (x : Generator) : Submission :=
  ⟨s.reply, s.game.disguise id x, s.events.map (·.ofGame id)⟩

/-- The exchange with a game in disguise. -/
def Exchange.disguise (e : Exchange) (id : String) (x : Generator) : Exchange :=
  ⟨e.answer.ofGame id, e.game.disguise id x⟩

namespace Game

variable {p : Program} {g : Game}

/-- A function that is found is one of the program's. -/
lemma mem_of_function? {name : String} {fn : Function} (h : p.function? name = some fn) : fn ∈ p.functions :=
  List.mem_of_find?_eq_some h

/-- The setup of a program that does not shuffle does not draw from the generator. -/
lemma setup_reseed (hp : p.NoShuffle) (depth : Nat) (t : Table) (x : Generator) :
    setup p depth (t.reseed x) = (setup p depth t).map (·.reseed x) := by
  unfold setup
  cases hf : p.function? setupName with
  | none => rfl
  | some fn =>
    refine bind_map (f := Outcome.reseed x) ?_ fun outcome => ?_
    · rw [p.execute_reseed hp (mem_of_function? hf), mapError_map]
    · cases outcome <;> rfl

/-- With another seed and another name, the same game starts in disguise, or the start fails in the same way. -/
lemma start_disguise (hp : p.NoShuffle) (id id' : String) (o : GameOptions) (seed : UInt64) :
    start id' p { o with seed := seed } = (start id p o).map fun s =>
      (s.1.disguise id' (Table.generatorOf seed), s.2.map (·.ofGame id')) := by
  refine bind_map (f := fun t => t.reseed (Table.generatorOf seed)) ?_ fun laid => ?_
  · rw [p.newTable_reseed hp _ o.seed seed, mapError_map]
  refine bind_map (setup_reseed hp _ laid _) fun t => ?_
  refine ite_map (c := t.total ≠ t.initial) rfl ?_
  exact bind_map_right (x := (firstTurn p { t with passed := false }).mapError _) fun turn => rfl

/-- An action of a program that does not shuffle is carried out alike with another generator. -/
lemma act_disguise (hp : g.program.NoShuffle) (id : String) (x : Generator) (m : Move) (t : Table)
    (moves : List String) :
    (g.disguise id x).act m (t.reseed x) moves = (g.act m t moves).map (·.reseed x) := by
  unfold act
  have hprogram : (g.disguise id x).program = g.program := rfl
  rw [hprogram]
  cases hf : g.program.function? m.action with
  | none => rfl
  | some fn =>
    refine bind_map (f := Outcome.reseed x) ?_ fun outcome => ?_
    · have hexecute := g.program.execute_reseed hp (mem_of_function? hf) g.depth t x (g.context m)
      exact (congrArg _ hexecute).trans mapError_map
    · cases outcome <;> rfl

/-- A move is resolved alike with another generator, if the program does not shuffle. -/
lemma resolve_disguise (hp : g.program.NoShuffle) (id : String) (x : Generator) (m : Move) :
    (g.disguise id x).resolve m = (g.resolve m).map (·.reseed x) := by
  unfold resolve
  have hprogram : (g.disguise id x).program = g.program := rfl
  rw [hprogram]
  cases hf : g.program.function? playerMoveName with
  | none => rfl
  | some fn =>
    refine bind_map (f := Outcome.reseed x) ?_ fun outcome => ?_
    · have hexecute := g.program.execute_reseed hp (mem_of_function? hf) g.depth g.table x (g.context m)
      exact (congrArg _ hexecute).trans mapError_map
    · cases outcome with
      | rejected r => rfl
      | committed t v declared =>
        simp only [Outcome.reseed]
        have hmoves : (g.disguise id x).moves = g.moves := rfl
        rw [hmoves]
        split
        · exact act_disguise hp id x m t _
        · rfl

/-- Whether the game is over is answered alike with another generator, if the program does not shuffle. -/
lemma isOver_disguise (hp : g.program.NoShuffle) (id : String) (x : Generator) (m : Move) (t : Table) :
    (g.disguise id x).isOver m (t.reseed x) = g.isOver m t := by
  unfold isOver
  have hprogram : (g.disguise id x).program = g.program := rfl
  rw [hprogram]
  cases hf : g.program.function? gameOverName with
  | none => rfl
  | some fn =>
    have hexecute : g.program.execute (g.disguise id x).depth fn (t.reseed x) ((g.disguise id x).context m) = _ :=
      g.program.execute_reseed hp (mem_of_function? hf) g.depth t x (g.context m)
    simp only
    rw [hexecute]
    cases g.program.execute g.depth fn t (g.context m) with
    | error f => rfl
    | ok outcome =>
      cases outcome with
      | rejected r => rfl
      | committed t' v moves => cases v <;> rfl

/-- A game in disguise waits again as the game itself does. -/
lemma resume_disguise (id : String) (x : Generator) : (g.disguise id x).resume = g.resume.disguise id x := by
  unfold resume
  have hturn : (g.disguise id x).turn = g.turn := rfl
  rw [hturn]
  cases g.turn.reject with
  | error e => rfl
  | ok turn => rfl

/-- A move is played alike in disguise, if the program does not shuffle. -/
lemma play_disguise (hp : g.program.NoShuffle) (id : String) (x : Generator) (m : Move) :
    (g.disguise id x).play m = (g.play m).map fun out => (out.1, out.2.disguise id x) := by
  refine bind_map (resolve_disguise hp id x m) fun resolution => ?_
  cases resolution with
  | rejected r =>
    simp only [Resolution.reseed, resume_disguise]
    rfl
  | accepted t moves =>
    simp only [Resolution.reseed, isOver_disguise hp]
    refine bind_map_right fun finished => ?_
    refine ite_map (c := t.total ≠ t.initial) rfl ?_
    exact bind_map_right (x := (nextTurn g.turn { t with ended := t.ended || finished }).mapError _) fun turn => rfl

/-- A move that is submitted to a game in disguise is decided as by the game itself. -/
lemma submit_disguise (hp : g.program.NoShuffle) (hs : g.Settled) (id : String) (x : Generator) (m : Move) :
    (g.disguise id x).submit m = (g.submit m).disguise id x := by
  rcases hs with hphase | hphase
  · have hphase' : (g.disguise id x).turn.phase = .awaitingMove := hphase
    have hplay : (g.disguise id x).resolving.play m = _ := play_disguise (g := g.resolving) hp id x m
    rw [submit_eq hphase, submit_eq hphase', hplay]
    cases g.resolving.play m with
    | error e => rfl
    | ok out =>
      obtain ⟨verdict, after⟩ := out
      cases verdict with
      | rejected r => rfl
      | committed sum =>
        have hended : (after.disguise id x).isEnded = after.isEnded := rfl
        simp only [Except.map, Submission.disguise, verdictEvents, hended]
        split
        · rfl
        · rfl
  · have hphase' : (g.disguise id x).turn.phase = .ended := hphase
    rw [submit_ended hphase, submit_ended hphase']
    rfl

/-- A game in disguise arranges its table as the game itself does. -/
lemma arrange_disguise (id : String) (x : Generator) (ps : List Placement) :
    (g.disguise id x).arrange ps = (g.arrange ps).map (·.disguise id x) := by
  unfold arrange
  have hturn : (g.disguise id x).turn = g.turn := rfl
  rw [hturn]
  cases g.turn.phase with
  | ended => rfl
  | resolving => rfl
  | awaitingMove => exact bind_map (g.table.arrange_reseed x ps) fun t => rfl

/-- A request to a game in disguise does what it does to the game itself. -/
lemma handle_disguise (hp : g.program.NoShuffle) (hs : g.Settled) (id : String) (x : Generator) (r : Request) :
    (g.disguise id x).handle r = (g.handle r).disguise id x := by
  cases r with
  | submit m =>
    simp only [handle, submit_disguise hp hs]
    rfl
  | arrange ps =>
    simp only [handle, arrange_disguise]
    cases g.arrange ps with
    | error e => rfl
    | ok g' => rfl

/-- A session does not change the program, and so not whether it shuffles. -/
lemma invariant_noShuffle : Invariant fun g => g.program.NoShuffle where
  commit hp hc := by
    cases hc with
    | intro moves steps next => exact hp
  arrange hp _ := hp

/-- A session with a game in disguise is the session with the game itself, exchange by exchange. -/
lemma session_disguise (hp : g.program.NoShuffle) (hs : g.Settled) (id : String) (x : Generator) (rs : List Request) :
    (g.disguise id x).session rs = (g.session rs).map (·.disguise id x) := by
  induction rs generalizing g with
  | nil => rfl
  | cons r rs ih =>
    have hrest := ih (invariant_noShuffle.handle hs hp r) (handle_settled hs r)
    unfold session
    rw [handle_disguise hp hs, List.map_cons]
    exact congrArg (_ :: ·) hrest

/-- Two games that differ in nothing but the name and the generator. -/
structure Alike (g g' : Game) : Prop where
  program : g'.program = g.program
  depth : g'.depth = g.depth
  table : ∃ x, g'.table = g.table.reseed x
  checksum : g'.table.checksum = g.table.checksum
  turn : g'.turn = g.turn
  moves : g'.moves = g.moves
  history : g'.history = g.history

/-- A game and the same game in disguise differ in nothing but the name and the generator. -/
lemma alike_disguise (g : Game) (id : String) (x : Generator) : Alike g (g.disguise id x) :=
  ⟨rfl, rfl, ⟨x, rfl⟩, rfl, rfl, rfl, rfl⟩

/-- The seed matters only to the function that shuffles. Two games of a program that does not use its name start alike
with any two seeds, or fail to start for the same reason, and they answer all requests alike. -/
theorem alike_of_noShuffle {p : Program} (hp : p.NoShuffle) (o : GameOptions) (seed seed' : UInt64) (id id' : String) :
    (∀ e, start id p { o with seed := seed } = .error e ↔ start id' p { o with seed := seed' } = .error e) ∧
      ∀ g es, start id p { o with seed := seed } = .ok (g, es) →
        ∃ g', start id' p { o with seed := seed' } = .ok (g', es.map (·.ofGame id')) ∧ Alike g g' ∧
          ∀ rs, List.Forall₂ (fun e e' => e'.answer = e.answer.ofGame id' ∧ Alike e.game e'.game)
            (g.session rs) (g'.session rs) := by
  have hstart := start_disguise hp id id' { o with seed := seed } seed'
  constructor
  · intro e
    rw [hstart]
    cases start id p { o with seed := seed } with
    | error e' => rfl
    | ok s => exact ⟨nofun, nofun⟩
  · intro g es h
    rw [h] at hstart
    refine ⟨g.disguise id' (Table.generatorOf seed'), hstart, alike_disguise .., fun rs => ?_⟩
    have hprogram : g.program.NoShuffle := by
      obtain ⟨laid, t, _, _, rfl⟩ := start_ok h
      exact hp
    rw [session_disguise hprogram (start_settled h), List.forall₂_map_right_iff]
    exact List.forall₂_same.mpr fun e _ => ⟨rfl, alike_disguise ..⟩

/-- Two games by other names and with other seeds have different generators and answer everything alike. -/
theorem duel_alike_of_noShuffle :
    ∃ p g g' es es', Program.ofSource duel.toList = .ok p ∧ p.NoShuffle ∧
      start "red" p { seed := 1 } = .ok (g, es) ∧ start "blue" p { seed := 2 } = .ok (g', es') ∧
      g.table.generator ≠ g'.table.generator ∧
      ∀ rs, List.Forall₂ (fun e e' => e'.answer = e.answer.ofGame "blue" ∧ Alike e.game e'.game)
        (g.session rs) (g'.session rs) := by
  have hduel : (Program.ofSource duel.toList).toOption.any (fun p =>
      p.exprs.all (fun e => e.uses Builtin.shuffle.name = false) &&
        (start "red" p { seed := 1 }).toOption.any fun s =>
          (start "blue" p { seed := 2 }).toOption.any fun s' => s.1.table.generator ≠ s'.1.table.generator) = true := by
    rw [duel, String.toList_ofList]
    decide +kernel
  obtain ⟨p, hp, hduel⟩ := exists_of_any hduel
  obtain ⟨huses, hstart⟩ := Bool.and_eq_true_iff.mp hduel
  obtain ⟨⟨g, es⟩, hred, hstart⟩ := exists_of_any hstart
  obtain ⟨⟨g', es'⟩, hblue, hseeds⟩ := exists_of_any hstart
  have hno : p.NoShuffle := fun e he => of_decide_eq_true (List.all_eq_true.mp huses e he)
  obtain ⟨g'', hstart', _, hsession⟩ := (alike_of_noShuffle hno {} 1 2 "red" "blue").2 g es hred
  cases hblue.symm.trans hstart'
  exact ⟨p, g, g', es, _, hp, hno, hred, hblue, of_decide_eq_true hseeds, hsession⟩

end Game

end Croupier
