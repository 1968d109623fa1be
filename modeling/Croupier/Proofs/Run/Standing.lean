import Croupier.Proofs.Run.Declaration

/-!
# Where a run leaves the turn

Whose turn it is, whether it has been passed on and whether the game has been ended is the standing of a table. It is a
register: of all built-in functions one passes the turn on and one ends the game (`Builtin.Acts`), and nothing else in a
run writes to it. So the standing after an execution can be told from its calls (`execute_standing`): the turn has gone
on by as many seats as there are calls that pass it on, wherever in the run they were made.
-/

namespace Croupier

/-- What a built-in function that acts does to the table. -/
inductive Builtin.Acts : Builtin → Table → Table → Prop where
  | standardDeck {t : Table} : Acts .standardDeck t t
  | validMoves {t : Table} : Acts .validMoves t t
  | shuffle {t : Table} (place : Place) : Acts .shuffle t (t.shuffle place)
  | endGame {t : Table} : Acts .endGame t { t with ended := true }
  | winner {t t' : Table} {id : Int} : t.win? id = some t' → Acts .winner t t'
  | nextPlayer {t : Table} : Acts .nextPlayer t t.pass

/-- Whose turn it is among the players, whether it has been passed on, and whether the game has been ended. -/
structure Standing where
  players : Nat
  current : Nat
  passed : Bool
  ended : Bool
  deriving DecidableEq, Repr

/-- The standing of a table. -/
def Table.standing (t : Table) : Standing := ⟨t.players, t.current, t.passed, t.ended⟩

/-- What a call of a built-in function makes of a standing. -/
def Standing.call (s : Standing) : Builtin → Standing
  | .nextPlayer => { s with current := (s.current + 1) % s.players, passed := true }
  | .endGame => { s with ended := true }
  | _ => s

/-- After a call the player on turn still has a seat. -/
lemma Standing.call_current_lt (s : Standing) (hs : s.current < s.players) (b : Builtin) :
    (s.call b).current < (s.call b).players := by
  cases b with
  | nextPlayer => exact Nat.mod_lt _ (Nat.zero_lt_of_lt hs)
  | _ => exact hs

/-- The number of calls that pass the turn on. -/
def handOffs (calls : List BuiltinCall) : Nat := calls.countP (·.builtin = .nextPlayer)

/-- Tells whether a call ends the game. -/
def endsGame (calls : List BuiltinCall) : Bool := calls.any (·.builtin = .endGame)

namespace Run

variable {b : Builtin} {invoke : Invoke} {args : List Value} {pos : Pos} {w w' : Work} {v : Value}

/-- To change the table and then give a value changes the table so. -/
lemma modifyTable_then {f : Table → Table} {u : Value}
    (h : (modifyTable f >>= fun _ => (pure u : Run Value)) w = .ok (v, w')) : w'.table = f w.table := by
  obtain ⟨_, w₁, hm, h⟩ := bind_ok.mp h
  obtain ⟨_, rfl⟩ := pure_ok.mp h
  cases hm
  rfl

/-- To read the number of a player changes nothing. -/
lemma playerNumber_still {id : Int} (h : Builtin.playerNumber v pos w = .ok (id, w')) : w' = w := by
  cases v with
  | number n => exact (pure_ok.mp h).2.symm
  | player n => exact (pure_ok.mp h).2.symm
  | _ => cases h

/-- A built-in function that acts does nothing else to the table. -/
lemma acts_of_call (hb : b.asks = false) (h : b.call invoke args pos w = .ok (v, w')) : b.Acts w.table w'.table := by
  cases b with
  | standardDeck =>
    match args with
    | [] =>
      obtain ⟨_, rfl⟩ := pure_ok.mp h
      exact .standardDeck
    | _ :: _ => cases h
  | validMoves =>
    obtain ⟨names, w₁, hn, h⟩ := bind_ok.mp h
    obtain ⟨_, w₂, hd, h⟩ := bind_ok.mp h
    obtain ⟨_, rfl⟩ := pure_ok.mp h
    obtain ⟨_, rfl⟩ := actionNames_ok hn
    cases hd
    exact .validMoves
  | shuffle =>
    match args with
    | [stack] =>
      cases stack with
      | pile r =>
        obtain ⟨place, w₁, hl, hshuffle⟩ := bind_ok.mp h
        obtain ⟨rfl, _⟩ := locate_ok hl
        rw [modifyTable_then hshuffle]
        exact .shuffle place
      | _ => cases h
    | [] | _ :: _ :: _ => cases h
  | endGame =>
    match args with
    | [] =>
      rw [modifyTable_then h]
      exact .endGame
    | _ :: _ => cases h
  | winner =>
    match args with
    | [player] =>
      obtain ⟨id, w₁, hid, hwin⟩ := bind_ok.mp h
      obtain rfl := playerNumber_still hid
      obtain ⟨t, w₂, ht, hwin⟩ := bind_ok.mp hwin
      cases ht
      cases hw : w₁.table.win? id with
      | none =>
        simp only [hw] at hwin
        cases hwin
      | some t =>
        simp only [hw] at hwin
        rw [modifyTable_then hwin]
        exact .winner hw
    | [] | _ :: _ :: _ => cases h
  | nextPlayer =>
    match args with
    | [] =>
      rw [modifyTable_then h]
      exact .nextPlayer
    | _ :: _ => cases h
  | _ => cases hb

/-- The standing of the table that a run works on. -/
def standing : Register Standing where
  read w := w.table.standing
  write c s := s.call c.builtin

/-- To put a pile on the table does not change the standing. -/
lemma standing_put (t : Table) (pile : Pile) (place : Place) : (t.put pile place).standing = t.standing := by
  unfold Table.standing
  rw [Table.players_put, Table.current_put, Table.passed_put, Table.ended_put]

/-- What a built-in function does to the table is what its call makes of the standing. -/
lemma standing_acts {t t' : Table} (h : b.Acts t t') : t'.standing = t.standing.call b := by
  cases h with
  | standardDeck => rfl
  | validMoves => rfl
  | shuffle place => exact standing_put t _ place
  | endGame => rfl
  | winner hw =>
    rcases Table.win?_eq_some hw with rfl | ⟨seat, _, _, rfl⟩
    · rfl
    · rfl
  | nextPlayer => rfl

/-- The standing is written by built-in functions only. -/
lemma standing_sound : standing.Sound where
  put := standing_put ..
  asks {b args s} hb := by
    cases b with
    | nextPlayer => cases hb
    | endGame => cases hb
    | _ => rfl
  acts hb h := standing_acts (acts_of_call hb h)

/-- One more call that passes the turn on is counted. -/
lemma handOffs_cons (c : BuiltinCall) (cs : List BuiltinCall) :
    handOffs (c :: cs) = handOffs cs + if c.builtin = .nextPlayer then 1 else 0 := by
  unfold handOffs
  rw [List.countP_cons]
  simp only [decide_eq_true_eq]

/-- The calls that pass the turn on are counted part by part. -/
lemma handOffs_append (calls calls' : List BuiltinCall) :
    handOffs (calls ++ calls') = handOffs calls + handOffs calls' := List.countP_append

/-- The game is ended by the first call or by one of the others. -/
lemma endsGame_cons (c : BuiltinCall) (cs : List BuiltinCall) :
    endsGame (c :: cs) = (decide (c.builtin = .endGame) || endsGame cs) := rfl

/-- After some calls the turn has gone on by as many seats as there are calls that pass it on. -/
lemma standing_after (calls : List BuiltinCall) {s : Standing} (hs : s.current < s.players) :
    standing.after calls s = ⟨s.players, (s.current + handOffs calls) % s.players,
      s.passed || decide (0 < handOffs calls), s.ended || endsGame calls⟩ := by
  induction calls generalizing s with
  | nil =>
    obtain ⟨players, current, passed, ended⟩ := s
    simp only [handOffs, endsGame, List.countP_nil, List.any_nil, Nat.add_zero, Nat.lt_irrefl, decide_false,
      Bool.or_false, Nat.mod_eq_of_lt hs]
    rfl
  | cons c cs ih =>
    show standing.after cs (s.call c.builtin) = _
    rw [ih (s.call_current_lt hs _), handOffs_cons, endsGame_cons]
    generalize c.builtin = b
    cases b with
    | nextPlayer =>
      -- to go on by one seat and then by the others is to go on by all of them
      have hcurrent : ((s.current + 1) % s.players + handOffs cs) % s.players =
          (s.current + (handOffs cs + 1)) % s.players := by
        rw [Nat.mod_add_mod, Nat.add_right_comm, Nat.add_assoc]
      simp [Standing.call, hcurrent]
    | _ => simp [Standing.call]

end Run

namespace Program

open Run

/-- An execution passes the turn on as often as its calls do, and ends the game if one of them does. -/
lemma execute_standing {p : Program} {depth : Nat} {fn : Function} {t t' : Table} {ctx : Context} {v : Value}
    {moves : Option (List String)} (h : p.execute depth fn t ctx = .ok (.committed t' v moves)) :
    t'.standing = standing.after (p.executionCalls depth fn t ctx) t.standing := by
  obtain ⟨args, ha, h⟩ := bind_eq_ok.mp h
  split at h
  · next value work hr =>
    cases h
    unfold executionCalls
    rw [ha]
    exact enter_records standing_sound depth fn args fn.pos hr
  · cases h
  · cases h

end Program

end Croupier
