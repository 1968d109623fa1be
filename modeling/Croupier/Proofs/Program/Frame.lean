import Croupier.Proofs.Program.Conservation

/-!
# What executions leave alone

Whatever functions a program calls, a table goes on in one way only (`Table.Continues`): its stacks and its players stay
as they are laid out, what has been ended or passed on stays so, the turn moves only by being passed on, and winners are
added behind those who have won already. Every step of a table does so, hence every number of steps, hence every
execution that commits (`execute_continues`).
-/

namespace Croupier

namespace Table

/-- Some players win after others: all of them have a seat, none is named twice, and none has won already. -/
structure NewWinners (t : Table) (new : List Nat) : Prop where
  nodup : new.Nodup
  seated : ∀ id ∈ new, 1 ≤ id ∧ id ≤ t.players
  new : ∀ id ∈ new, id ∉ t.winners

/-- A table goes on to another. -/
structure Continues (t t' : Table) : Prop where
  shared_names : t'.shared.names = t.shared.names
  seats_names : t'.seats.map Rack.names = t.seats.map Rack.names
  initial : t'.initial = t.initial
  current_lt : t.current < t.players → t'.current < t'.players
  ended : t.ended = true → t'.ended = true
  passed : t.passed = true → t'.passed = true
  /-- The turn moves only by being passed on. -/
  current_ne : t'.current ≠ t.current → t'.passed = true
  winners : ∃ new, t'.winners = t.winners ++ new ∧ t.NewWinners new

variable {t t' t'' : Table}

/-- Nobody need win. -/
lemma NewWinners.nil : t.NewWinners [] := ⟨List.nodup_nil, List.forall_mem_nil _, List.forall_mem_nil _⟩

/-- A player with a seat who has not won yet can win. -/
lemma NewWinners.single {id : Nat} (hpos : 1 ≤ id) (hle : id ≤ t.players) (hnew : id ∉ t.winners) :
    t.NewWinners [id] where
  nodup := List.nodup_singleton id
  seated := List.forall_mem_singleton.mpr ⟨hpos, hle⟩
  new := List.forall_mem_singleton.mpr hnew

/-- Those who win later have not won before. -/
lemma NewWinners.append {new new' : List Nat} (h : t.NewWinners new) (hp : t'.players = t.players)
    (hw : t'.winners = t.winners ++ new) (h' : t'.NewWinners new') : t.NewWinners (new ++ new') where
  nodup := by
    refine List.nodup_append.mpr ⟨h.nodup, h'.nodup, ?_⟩
    rintro id hid id' hid' rfl
    apply h'.new id hid'
    rw [hw]
    exact List.mem_append_right _ hid
  seated := List.forall_mem_append.mpr ⟨h.seated, hp ▸ h'.seated⟩
  new := by
    refine List.forall_mem_append.mpr ⟨h.new, ?_⟩
    intro id hid hold
    apply h'.new id hid
    rw [hw]
    exact List.mem_append_left _ hold

/-- A table that goes on keeps its number of players. -/
lemma Continues.players (h : Continues t t') : t'.players = t.players := by
  have hlength := congrArg List.length h.seats_names
  rwa [List.length_map, List.length_map] at hlength

/-- A table may go on as it is. -/
lemma Continues.refl (t : Table) : Continues t t where
  shared_names := rfl
  seats_names := rfl
  initial := rfl
  current_lt h := h
  ended h := h
  passed h := h
  current_ne h := absurd rfl h
  winners := ⟨[], (List.append_nil _).symm, .nil⟩

/-- A table that goes on to another goes on to what that one goes on to. -/
lemma Continues.trans (h : Continues t t') (h' : Continues t' t'') : Continues t t'' where
  shared_names := h'.shared_names.trans h.shared_names
  seats_names := h'.seats_names.trans h.seats_names
  initial := h'.initial.trans h.initial
  current_lt hlt := h'.current_lt (h.current_lt hlt)
  ended he := h'.ended (h.ended he)
  passed hp := h'.passed (h.passed hp)
  current_ne hne := by
    by_cases hsame : t''.current = t'.current
    · rw [hsame] at hne
      exact h'.passed (h.current_ne hne)
    · exact h'.current_ne hsame
  winners := by
    obtain ⟨new, hw, hnew⟩ := h.winners
    obtain ⟨new', hw', hnew'⟩ := h'.winners
    refine ⟨new ++ new', ?_, hnew.append h.players hw hnew'⟩
    rw [hw', hw, List.append_assoc]

/-- A table goes on when a pile is changed. -/
lemma Continues.put (t : Table) (q : Pile) (p : Place) : Continues t (t.put q p) where
  shared_names := shared_names_put t q p
  seats_names := seats_names_put t q p
  initial := initial_put t q p
  current_lt h := by rwa [current_put, players_put]
  ended h := by rwa [ended_put]
  passed h := by rwa [passed_put]
  current_ne h := absurd (current_put t q p) h
  winners := ⟨[], by rw [winners_put, List.append_nil], .nil⟩

/-- A table goes on by every step. -/
lemma Step.continues (st : Step t t') : Continues t t' := by
  cases st with
  | transfer hs ht hp => exact (Continues.put ..).trans (Continues.put ..)
  | @shuffle place hp =>
    -- the generator goes on, too, which the frame leaves open
    have hput := Continues.put t (t.generator.shuffle (t.pile place)).1 place
    exact { hput with }
  | finish => exact { Continues.refl t with ended := fun _ => rfl }
  | win hw =>
    rcases win?_eq_some hw with rfl | ⟨seat, hlt, hnew, rfl⟩
    · exact .refl _
    · exact { Continues.refl t with winners := ⟨[seat + 1], rfl, .single (Nat.le_add_left ..) hlt hnew⟩ }
  | pass =>
    exact { Continues.refl t with
      current_lt := fun hlt => Nat.mod_lt _ (Nat.zero_lt_of_lt hlt)
      passed := fun _ => rfl
      current_ne := fun _ => rfl }

/-- A table goes on by any number of steps. -/
lemma Steps.continues (h : Steps t t') : Continues t t' :=
  h.keeps (fun st hc => hc.trans st.continues) (.refl t)

end Table

/-- The table that an execution commits. -/
def Outcome.committed? : Outcome → Option Table
  | committed t _ _ => some t
  | rejected _ => none

namespace Program

/-- A table on which an execution commits goes on as every table does, whatever is executed and for whom: no stack and
no player comes or goes, a turn that has been passed on or a game that has been ended stays so, the player on turn has a
seat if there was one before, and is another one only if the turn has been passed on, and those who win are added once
each behind those who have won. -/
theorem execute_continues {p : Program} {depth : Nat} {fn : Function} {t t' : Table} {ctx : Context} {v : Value}
    {moves : Option (List String)} (h : p.execute depth fn t ctx = .ok (.committed t' v moves)) : t.Continues t' :=
  (execute_steps h).continues

/-- A program in which a card that is looked at makes a winner and passes the turn on, while cards are being moved. -/
def finale : String := "name finale deck StandardDeck players 3 stack pile stack player:hand
  .(a card for the third) def crown(card)\x7b winner(3) next_player() return(true) \x7d
  .(and for all others) def play(player, move)\x7b deck > players:hand 1 shuffle(pile)
    pile > deck - filter(move:cards, crown) winner(player) winner(2) end() \x7d"

/-- The last player passes the turn on to the first; of three who are named winners one has been a winner before. -/
theorem finale_continues :
    let four := Card.ofCodes 4 2
    let t : Table := ⟨[four, four, four], [("pile", [four])], List.replicate 3 [("hand", [])], 2, [2], false, false, 4,
      .ofSeeds 1 1⟩
    ∃ p fn t' v moves, ofSource finale.toList = .ok p ∧ p.function? "play" = some fn ∧ p.LaysOut t ∧
      p.execute defaultDepth fn t ⟨1, some ⟨1, "play", [four], []⟩⟩ = .ok (.committed t' v moves) ∧ t.Continues t' ∧
      t'.current = 0 ∧ t'.passed = true ∧ t'.ended = true ∧ t'.winners = [2] ++ [3, 1] := by
  intro four t
  have h : (ofSource finale.toList).toOption.any (fun p => (p.function? "play").any fun fn =>
      (t.shared.names = p.tableStacks ∧ t.seats.map Rack.names = List.replicate p.players.toNat p.playerStacks) ∧
      (p.execute defaultDepth fn t ⟨1, some ⟨1, "play", [four], []⟩⟩).toOption.any fun outcome =>
        outcome.committed?.any fun t' =>
          t'.current = 0 ∧ t'.passed = true ∧ t'.ended = true ∧ t'.winners = [2] ++ [3, 1]) = true := by
    rw [finale, String.toList_ofList]
    decide +kernel
  obtain ⟨p, hp, h⟩ := exists_of_any h
  obtain ⟨fn, hfn, h⟩ := (Option.any_eq_true ..).mp h
  obtain ⟨⟨hshared, hseats⟩, h⟩ := of_decide_eq_true h
  obtain ⟨outcome, hout, h⟩ := exists_of_any h
  cases outcome with
  | committed t' v moves =>
    exact ⟨p, fn, t', v, moves, hp, hfn, ⟨hshared, hseats⟩, hout, execute_continues hout, of_decide_eq_true h⟩
  | rejected r => cases h

end Program

end Croupier
