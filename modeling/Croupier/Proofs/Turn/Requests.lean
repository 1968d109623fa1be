import Mathlib.Data.List.Basic
import Croupier.Turn

/-!
# What a turn manager grants

A turn manager is asked to begin, to reject, to commit or to end, in any order and with any target. Every operation
tests before it writes, so one that fails leaves the turn as it was (`operation_keeps`). What is granted and what is
done then is said once, by the steps that a manager can take (`Step`). Whatever is asked, the player on turn has a seat
and the turns count the commits that handed the turn on, and a manager that has ended grants nothing any more
(`turn_manager_keeps`).
-/

namespace Croupier

/-- A request to a turn manager. -/
inductive TurnRequest where
  | begin
  | reject
  | commit (ended : Bool)
  | commitTo (id : Int)
  | close
  deriving DecidableEq, Repr

namespace TurnRequest

/-- Tells whether a request asks to hand the turn on. -/
def handsOn : TurnRequest → Bool
  | commit ended => !ended
  | commitTo _ => true
  | _ => false

/-- The operation that a request asks for. -/
def operation : TurnRequest → Turn.Operation
  | begin => Turn.Operation.begin
  | reject => Turn.Operation.reject
  | commit false => Turn.Operation.commit
  | commit true => Turn.Operation.commitLast
  | commitTo id => Turn.Operation.commitTo id
  | close => Turn.Operation.close

end TurnRequest

namespace Turn

namespace Operation

/-- If an operation fails, the turn stays as it was. -/
def Keeps (op : Operation) : Prop := ∀ ⦃t t' : Turn⦄ ⦃e : TurnError⦄, op t = .error e t' → t' = t

variable {op next : Operation} {t t' : Turn} {e : TurnError} {source target : Phase} {id : Int}

/-- After an operation that succeeds the next one starts from the turn that it leaves. -/
lemma andThen_of_ok (h : op t = .ok () t') : (op >>= fun _ => next) t = next t' := by
  show EStateM.bind op _ t = _
  unfold EStateM.bind
  rw [h]

/-- After an operation that fails nothing is done. -/
lemma andThen_of_error (h : op t = .error e t') : (op >>= fun _ => next) t = .error e t' := by
  show EStateM.bind op _ t = _
  unfold EStateM.bind
  rw [h]

/-- An operation has a result if and only if it succeeds. -/
lemma result_eq_ok : op.result t = .ok t' ↔ op t = .ok () t' := by
  unfold result
  cases op t with
  | ok u t₁ => simp
  | error e t₁ => simp

/-- A failure as such writes nothing. -/
lemma throw_keeps (e : TurnError) : Keeps (throw e) := by
  intro t t' e' h
  cases h
  rfl

/-- To write does not fail. -/
lemma set_keeps (t₁ : Turn) : Keeps (set t₁) := by
  intro t t' e h
  cases h

/-- A test writes nothing itself. -/
lemma Keeps.test {c : Turn → Prop} [DecidablePred c] {yes no : Turn → Operation} (hyes : ∀ t, (yes t).Keeps)
    (hno : ∀ t, (no t).Keeps) : Keeps (get >>= fun t => if c t then yes t else no t) := by
  intro t t' e h
  have h : (if c t then yes t else no t) t = .error e t' := h
  split_ifs at h
  · exact hyes t h
  · exact hno t h

/-- What is written after the last test is not left half done. -/
lemma Keeps.andThen (h : op.Keeps) (sure : ∀ t, ∃ t', next t = .ok () t') : Keeps (op >>= fun _ => next) := by
  intro t t' e hfails
  cases hop : op t with
  | ok u t₁ =>
    obtain ⟨t₂, hnext⟩ := sure t₁
    rw [andThen_of_ok hop, hnext] at hfails
    cases hfails
  | error e₁ t₁ =>
    rw [andThen_of_error hop] at hfails
    cases hfails
    exact h hop

/-- A transition tests the phase and then writes it. -/
lemma transition_keeps (source target : Phase) : (transition source target).Keeps :=
  .test (fun _ => set_keeps _) fun _ => throw_keeps _

/-- A commit writes the player and the number after the transition, which may fail, and so does not fail any more. -/
lemma commit_keeps : commit.Keeps := by
  have sure : ∀ t, ∃ t', (get >>= fun t => handTo (t.current % t.players + 1) : Operation) t = .ok () t' :=
    fun _ => ⟨_, rfl⟩
  exact (transition_keeps _ _).andThen sure

/-- The seat of the player who is chosen is tested before the transition is made. -/
lemma commitTo_keeps (id : Int) : (commitTo id).Keeps :=
  .test (fun _ => throw_keeps _) fun _ => (transition_keeps _ _).andThen fun _ => ⟨_, rfl⟩

/-- The end is written unless it has been reached before. -/
lemma close_keeps : close.Keeps := .test (fun _ => throw_keeps _) fun _ => set_keeps _

/-- A transition is made from its source. -/
lemma transition_of_eq (h : t.phase = source) : transition source target t = .ok () { t with phase := target } :=
  congrFun (if_pos h) t

/-- A transition is not made from another phase than its source. -/
lemma transition_of_ne (h : t.phase ≠ source) :
    transition source target t = .error (.transition source target t.phase) t :=
  congrFun (if_neg h) t

/-- The turn is handed to a player who has a seat, once the transition is made. -/
lemma commitTo_of_seat (hone : 1 ≤ id) (hle : id ≤ t.players) :
    commitTo id t = (transition .resolving .awaitingMove >>= fun _ => handTo id.toNat) t := by
  have hseat : ¬ (id < 1 ∨ (t.players : Int) < id) := by omega
  exact congrFun (if_neg hseat) t

end Operation

/-- What a turn manager makes of a request. -/
def request (t : Turn) (r : TurnRequest) : EStateM.Result TurnError Turn Unit := r.operation t

/-- The turn manager as a request leaves it, whether it is granted or refused. -/
def serve (t : Turn) (r : TurnRequest) : Turn :=
  match t.request r with
  | .ok _ t' => t'
  | .error _ t' => t'

/-- The turn manager after some requests. -/
def after (t : Turn) : List TurnRequest → Turn
  | [] => t
  | r :: rs => (t.serve r).after rs

/-- The requests that are granted. -/
def granted (t : Turn) : List TurnRequest → List TurnRequest
  | [] => []
  | r :: rs =>
    match t.request r with
    | .ok _ t' => r :: t'.granted rs
    | .error _ t' => t'.granted rs

/-- A request that a turn manager can grant. -/
def Allows (t : Turn) : TurnRequest → Prop
  | .begin => t.phase = .awaitingMove
  | .reject => t.phase = .resolving
  | .commit _ => t.phase = .resolving
  | .commitTo id => t.phase = .resolving ∧ 1 ≤ id ∧ id ≤ t.players
  | .close => t.phase ≠ .ended

/-- What a turn manager does when it grants a request. -/
inductive Step (t : Turn) : TurnRequest → Turn → Prop where
  | begin : Step t .begin { t with phase := .resolving }
  | reject : Step t .reject { t with phase := .awaitingMove }
  | commit : Step t (.commit false) ⟨.awaitingMove, t.players, t.current % t.players + 1, t.number + 1⟩
  | commitLast : Step t (.commit true) { t with phase := .ended }
  | commitTo {id : Int} : 1 ≤ id → id ≤ t.players →
    Step t (.commitTo id) ⟨.awaitingMove, t.players, id.toNat, t.number + 1⟩
  | close : Step t .close { t with phase := .ended }

variable {t t' : Turn} {r : TurnRequest} {e : TurnError}

/-- A request that is refused leaves the turn manager as it was. -/
lemma operation_keeps (r : TurnRequest) : r.operation.Keeps := by
  cases r with
  | begin => exact Operation.transition_keeps _ _
  | reject => exact Operation.transition_keeps _ _
  | commit ended =>
    cases ended with
    | true => exact Operation.transition_keeps _ _
    | false => exact Operation.commit_keeps
  | commitTo id => exact Operation.commitTo_keeps id
  | close => exact Operation.close_keeps

/-- A request that is allowed is granted, and what is granted is a step. -/
lemma request_of_allows (h : t.Allows r) : ∃ t', t.request r = .ok () t' ∧ t.Step r t' := by
  cases r with
  | begin => exact ⟨_, Operation.transition_of_eq h, .begin⟩
  | reject => exact ⟨_, Operation.transition_of_eq h, .reject⟩
  | commit ended =>
    cases ended with
    | true => exact ⟨_, Operation.transition_of_eq h, .commitLast⟩
    | false => exact ⟨_, Operation.andThen_of_ok (Operation.transition_of_eq h), .commit⟩
  | commitTo id =>
    obtain ⟨hphase, hone, hle⟩ := h
    refine ⟨_, ?_, .commitTo hone hle⟩
    show Operation.commitTo id t = _
    rw [Operation.commitTo_of_seat hone hle, Operation.andThen_of_ok (Operation.transition_of_eq hphase)]
    rfl
  | close => exact ⟨_, congrFun (if_neg h) t, .close⟩

/-- A request that is not allowed is refused. -/
lemma request_of_not_allows (h : ¬ t.Allows r) : ∃ e t', t.request r = .error e t' := by
  cases r with
  | begin => exact ⟨_, _, Operation.transition_of_ne h⟩
  | reject => exact ⟨_, _, Operation.transition_of_ne h⟩
  | commit ended =>
    cases ended with
    | true => exact ⟨_, _, Operation.transition_of_ne h⟩
    | false => exact ⟨_, _, Operation.andThen_of_error (Operation.transition_of_ne h)⟩
  | commitTo id =>
    -- the seat is tested first, so the phase is the reason only if there is a seat
    by_cases hid : id < 1 ∨ t.players < id
    · exact ⟨_, _, congrFun (if_pos hid) t⟩
    · have hseat : 1 ≤ id ∧ id ≤ t.players := by omega
      have hphase : t.phase ≠ .resolving := fun hphase => h ⟨hphase, hseat⟩
      have hgoes := Operation.commitTo_of_seat hseat.1 hseat.2
      exact ⟨_, _, hgoes.trans (Operation.andThen_of_error (Operation.transition_of_ne hphase))⟩
  | close => exact ⟨_, _, congrFun (if_pos (not_not.mp h)) t⟩

/-- A request is granted if and only if it is allowed. -/
lemma request_ok_iff : (∃ t', t.request r = .ok () t') ↔ t.Allows r := by
  constructor
  · rintro ⟨t', hok⟩
    by_contra h
    obtain ⟨e, t₁, he⟩ := request_of_not_allows h
    rw [he] at hok
    cases hok
  · intro h
    obtain ⟨t', hok, _⟩ := request_of_allows h
    exact ⟨t', hok⟩

/-- What is granted is a step. -/
lemma step_of_request (h : t.request r = .ok () t') : t.Step r t' := by
  obtain ⟨t'', hok, hstep⟩ := request_of_allows (request_ok_iff.mp ⟨t', h⟩)
  rw [h] at hok
  cases hok
  exact hstep

/-- The turn to which the operation of a request leads is that after a step. -/
lemma step_of_result (h : r.operation.result t = .ok t') : t.Step r t' :=
  step_of_request (Operation.result_eq_ok.mp h)

/-- A request that is granted makes the turn what it leads to. -/
lemma serve_of_ok (h : t.request r = .ok () t') : t.serve r = t' := by
  unfold serve
  rw [h]

/-- A request that is refused leaves the turn manager as it was, since its operation tests before it writes. -/
lemma serve_of_error (h : t.request r = .error e t') : t.serve r = t := by
  unfold serve
  rw [h]
  exact operation_keeps r h

/-- The player on turn is one of so many players. -/
structure Seated (players : Nat) (t : Turn) : Prop where
  players_eq : t.players = players
  one_le : 1 ≤ t.current
  le : t.current ≤ players

/-- A step puts a player on turn who has a seat. -/
lemma Step.seated {players : Nat} (hstep : t.Step r t') (h : t.Seated players) : t'.Seated players := by
  obtain ⟨hplayers, hone, hle⟩ := h
  cases hstep with
  | begin => exact ⟨hplayers, hone, hle⟩
  | reject => exact ⟨hplayers, hone, hle⟩
  | commit =>
    have hlt : t.current % t.players < t.players := Nat.mod_lt _ (by omega)
    exact ⟨hplayers, Nat.le_add_left .., hplayers ▸ hlt⟩
  | commitLast => exact ⟨hplayers, hone, hle⟩
  | commitTo hid hid' =>
    refine ⟨hplayers, ?_, ?_⟩
    · show 1 ≤ Int.toNat _
      omega
    · show Int.toNat _ ≤ players
      omega
  | close => exact ⟨hplayers, hone, hle⟩

/-- A step counts a turn if it hands the turn on. -/
lemma Step.number (hstep : t.Step r t') : t'.number = t.number + if r.handsOn then 1 else 0 := by
  cases hstep <;> rfl

/-- Whatever is asked, the player on turn has a seat. -/
lemma after_seated {players : Nat} (h : t.Seated players) (rs : List TurnRequest) : (t.after rs).Seated players := by
  induction rs generalizing t with
  | nil => exact h
  | cons r rs ih =>
    apply ih
    cases hr : t.request r with
    | error e t' => exact (serve_of_error hr).symm ▸ h
    | ok u t' => exact (serve_of_ok hr).symm ▸ (step_of_request hr).seated h

/-- The turns count the requests granted that hand the turn on. -/
lemma after_number (rs : List TurnRequest) :
    (t.after rs).number = t.number + (t.granted rs).countP TurnRequest.handsOn := by
  induction rs generalizing t with
  | nil => rfl
  | cons r rs ih =>
    rw [after, ih, granted]
    cases hr : t.request r with
    | error e t' => rw [serve_of_error hr, operation_keeps r hr]
    | ok u t' =>
      simp only [serve_of_ok hr, List.countP_cons, (step_of_request hr).number]
      omega

/-- At the end no request is allowed. -/
lemma not_allows_of_ended (h : t.phase = .ended) (r : TurnRequest) : ¬ t.Allows r := by
  cases r with
  | close => exact not_not.mpr h
  | commitTo id =>
    rintro ⟨hphase, _⟩
    rw [h] at hphase
    cases hphase
  | _ =>
    intro hphase
    rw [Allows, h] at hphase
    cases hphase

/-- A turn manager that has ended refuses whatever it is asked and stays as it is. -/
lemma after_ended (h : t.phase = .ended) (rs : List TurnRequest) : t.granted rs = [] ∧ t.after rs = t := by
  induction rs with
  | nil => exact ⟨rfl, rfl⟩
  | cons r rs ih =>
    obtain ⟨e, t', he⟩ := request_of_not_allows (not_allows_of_ended h r)
    rw [granted, after, serve_of_error he, he, operation_keeps r he]
    exact ih

/-- A turn manager starts with a first player among the players, and then, whatever has been requested: the player on
turn is one of the players; the turns count from one the commits granted that handed the turn on; a request that is
refused leaves the manager as it was; a move is begun only where one is awaited, and rejected or committed only where
one is being resolved, and what is granted is one step; and a manager that has ended refuses every request and stays as
it is. -/
theorem turn_manager_keeps {players first : Int} (hplayers : 1 ≤ players) (hone : 1 ≤ first) (hle : first ≤ players) :
    ∃ t, start players first = .ok t ∧ ∀ rs,
      (1 ≤ (t.after rs).current ∧ ((t.after rs).current : Int) ≤ players) ∧
      (t.after rs).number = 1 + (t.granted rs).countP TurnRequest.handsOn ∧
      (∀ r e left, (t.after rs).request r = .error e left → left = t.after rs ∧ (t.after rs).serve r = t.after rs) ∧
      (∀ r, (∃ t', (t.after rs).request r = .ok () t') ↔ (t.after rs).Allows r) ∧
      (∀ r t', (t.after rs).request r = .ok () t' → (t.after rs).Step r t') ∧
      ((t.after rs).phase = .ended →
        ∀ more, (t.after rs).granted more = [] ∧ (t.after rs).after more = t.after rs) := by
  refine ⟨⟨.awaitingMove, players.toNat, first.toNat, 1⟩, ?_, ?_⟩
  · unfold start
    rw [if_neg (by omega), if_neg (by omega)]
  · intro rs
    have hstart : Seated players.toNat ⟨.awaitingMove, players.toNat, first.toNat, 1⟩ :=
      ⟨rfl, show 1 ≤ first.toNat by omega, show first.toNat ≤ players.toNat by omega⟩
    obtain ⟨_, hone', hle'⟩ := after_seated hstart rs
    refine ⟨⟨hone', by omega⟩, after_number rs, ?_, ?_, ?_, ?_⟩
    · exact fun r e left he => ⟨operation_keeps r he, serve_of_error he⟩
    · exact fun r => request_ok_iff
    · exact fun r t' hr => step_of_request hr
    · exact fun h => after_ended h

/-- Among three players the last one begins. A turn goes round the table and then to a chosen player, but not to one
without a seat; after the end nothing is granted. -/
theorem three_players_keep_turns : ∃ t, start 3 3 = .ok t ∧
    (t.after [.begin, .commit false, .begin, .commitTo 4, .reject, .begin, .commitTo 2]).current = 2 ∧
    (t.after [.begin, .commit false, .begin, .commitTo 4, .reject, .begin, .commitTo 2]).number = 1 + 2 ∧
    (t.after [.begin, .close]).granted [.commit true, .close, .begin] = [] := by
  have hthree : (1 : Int) ≤ 3 := by decide
  obtain ⟨t, ht, hkeeps⟩ := turn_manager_keeps hthree hthree (Int.le_refl 3)
  have hstart : t = ⟨.awaitingMove, 3, 3, 1⟩ := by
    cases ht
    rfl
  refine ⟨t, ht, ?_, ?_, ?_⟩
  · rw [hstart]
    decide
  · rw [(hkeeps _).2.1, hstart]
    decide
  · refine ((hkeeps [.begin, .close]).2.2.2.2.2 ?_ _).1
    rw [hstart]
    decide

end Turn

end Croupier
