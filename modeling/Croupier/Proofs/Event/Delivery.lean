import Mathlib.Data.List.Nodup
import Croupier.Event

/-!
# Who is called when an event is published

The calls to a bus are listeners that come, subscriptions that are taken back and events that are published. The log of
a bus tells for every call what the bus did (`Bus.log`), and from the log alone it can be said which subscriptions stand:
those that were made and have not been taken back since (`BusLog.Stands`). The lists that a bus keeps reflect its log
(`Bus.Reflects`), whatever call comes next (`Reflects.answer`). So every handle is given once, and an event is heard by
those whose subscriptions stand, each of them once (`published_to_standing`).
-/

namespace Croupier

/-- A call to a bus. -/
inductive BusCall (α : Type) where
  | subscribe (kind : Option EventKind) (listener : Option α)
  | unsubscribe (handle : Int)
  | publish (event : Event)

/-- What a bus does when it is called: it gives a handle if it can, takes a subscription back, or calls listeners. -/
inductive BusReply (α : Type) where
  | handle (handle : Option Nat)
  | done
  | called (listeners : List (Subscription α))

/-- Calls to a bus, each with what the bus did. -/
abbrev BusLog (α : Type) := List (BusCall α × BusReply α)

variable {α : Type}

namespace BusLog

/-- The entry of a subscription. -/
def entry (s : Subscription α) : BusCall α × BusReply α :=
  (.subscribe s.kind (some s.listener), .handle (some s.handle))

/-- The subscription that an entry is of. -/
def made? : BusCall α × BusReply α → Option (Subscription α)
  | (.subscribe kind (some listener), .handle (some handle)) => some ⟨handle, kind, listener⟩
  | _ => none

/-- The handle that was given. -/
def handle? : BusCall α × BusReply α → Option Nat
  | (_, .handle handle) => handle
  | _ => none

/-- All subscriptions that were made, in their order. -/
def made (log : BusLog α) : List (Subscription α) := log.filterMap made?

/-- All handles that were given, in their order. -/
def handles (log : BusLog α) : List Nat := log.filterMap handle?

/-- A subscription was made and has not been taken back since. -/
def Stands (log : BusLog α) (s : Subscription α) : Prop :=
  ∃ before after, log = before ++ entry s :: after ∧ ∀ reply, (.unsubscribe s.handle, reply) ∉ after

variable {log : BusLog α} {s s' : Subscription α} {e : BusCall α × BusReply α}

/-- An entry is of one subscription. -/
lemma entry_inj (h : entry s = entry s') : s = s' := by
  cases s
  cases s'
  cases h
  rfl

/-- After one more entry a subscription stands if the entry is of it, or if it stood and is not taken back. -/
lemma stands_concat :
    Stands (log ++ [e]) s ↔ e = entry s ∨ (log.Stands s ∧ ∀ reply, e ≠ (.unsubscribe s.handle, reply)) := by
  constructor
  · rintro ⟨before, after, hlog, hkept⟩
    rcases List.eq_nil_or_concat after with rfl | ⟨after, last, rfl⟩
    · obtain ⟨_, he⟩ := List.append_inj' hlog rfl
      exact .inl (List.singleton_inj.mp he)
    · rw [List.concat_eq_append, ← List.cons_append, ← List.append_assoc] at hlog
      obtain ⟨rfl, he⟩ := List.append_inj' hlog rfl
      obtain rfl := List.singleton_inj.mp he
      refine .inr ⟨⟨before, after, rfl, fun reply hmem => hkept reply ?_⟩, fun reply he => hkept reply ?_⟩
      · rw [List.concat_eq_append]
        exact List.mem_append_left _ hmem
      · rw [List.concat_eq_append, he]
        exact List.mem_append_right _ (List.mem_singleton.mpr rfl)
  · rintro (rfl | ⟨⟨before, after, rfl, hkept⟩, hlast⟩)
    · exact ⟨log, [], rfl, fun _ => List.not_mem_nil⟩
    · refine ⟨before, after ++ [e], List.append_assoc .., fun reply hmem => ?_⟩
      rcases List.mem_append.mp hmem with hmem | hmem
      · exact hkept reply hmem
      · exact hlast reply (List.mem_singleton.mp hmem).symm

end BusLog

namespace Bus

open BusLog (made? handle? entry)

/-- What a bus does when it is called, and the bus after it. -/
def answer (bus : Bus α) : BusCall α → BusReply α × Bus α
  | .subscribe kind listener => (.handle (bus.subscribe kind listener).1, (bus.subscribe kind listener).2)
  | .unsubscribe handle => (.done, bus.unsubscribe handle)
  | .publish event => (.called (bus.listeners event.kind), bus)

/-- The log of some calls. -/
def log (bus : Bus α) : List (BusCall α) → BusLog α
  | [] => []
  | c :: cs => (c, (bus.answer c).1) :: (bus.answer c).2.log cs

/-- The bus after some calls. -/
def after (bus : Bus α) : List (BusCall α) → Bus α
  | [] => bus
  | c :: cs => (bus.answer c).2.after cs

/-- The subscriptions to one kind of event, or to all events. -/
def heard (bus : Bus α) : Option EventKind → List (Subscription α)
  | none => bus.general
  | some k => bus.special k

variable {bus : Bus α} {handle : Nat} {kind kind' : Option EventKind} {listener : α}

/-- A subscription is entered at the end of its list, and in no other. -/
lemma heard_enter (hnew : ∀ s ∈ bus.general, s.handle ≠ handle) : (bus.enter handle kind listener).heard kind' =
    if kind' = kind then bus.heard kind ++ [⟨handle, kind, listener⟩] else bus.heard kind' := by
  cases kind with
  | none =>
    cases kind' with
    | none =>
      have hkeys : ∀ e ∈ bus.toAll, e.1 ≠ handle := fun e he => hnew _ (List.mem_map_of_mem he)
      show (bus.toAll.set handle listener).map _ = _
      rw [Dictionary.set_eq_append hkeys, List.map_append]
      rfl
    | some k => rfl
  | some k =>
    cases kind' with
    | none => rfl
    | some k' =>
      show ((bus.byKind.set k _).lookup k').getD [] = _
      rw [Dictionary.lookup_set]
      by_cases hk : k' = k
      · rw [if_pos hk, if_pos (congrArg some hk)]
        rfl
      · rw [if_neg hk, if_neg (mt Option.some_inj.mp hk)]
        rfl

/-- Where every handle occurs once, to cut the first subscription with a handle is to keep those with another. -/
lemma eraseP_eq_filter {ss : List (Subscription α)} (h : (ss.map (·.handle)).Nodup) (handle : Int) :
    ss.eraseP (fun s => (s.handle : Int) == handle) = ss.filter fun s => (s.handle : Int) != handle := by
  induction ss with
  | nil => rfl
  | cons s ss ih =>
    obtain ⟨hs, hss⟩ := List.nodup_cons.mp h
    rw [List.eraseP_cons, List.filter_cons]
    by_cases he : (s.handle : Int) = handle
    · have hother : ∀ s' ∈ ss, ((s'.handle : Int) != handle) = true := by
        intro s' hs'
        apply bne_iff_ne.mpr
        intro he'
        apply hs
        show s.handle ∈ _
        rw [Int.ofNat_inj.mp (he.trans he'.symm)]
        exact List.mem_map_of_mem hs'
      rw [beq_iff_eq.mpr he, if_neg (by simp [he]), List.filter_eq_self.mpr hother]
      rfl
    · rw [beq_eq_false_iff_ne.mpr he, if_pos (bne_iff_ne.mpr he), ih hss]
      rfl

/-- A subscription is cut out of its list, and the others stay as they were. -/
lemma heard_unsubscribe (hdistinct : ∀ k, ((bus.heard k).map (·.handle)).Nodup) (handle : Int) :
    (bus.unsubscribe handle).heard kind = (bus.heard kind).filter fun s => (s.handle : Int) != handle := by
  cases kind with
  | none =>
    show (bus.toAll.filter _).map _ = (bus.toAll.map _).filter _
    rw [List.filter_map]
    rfl
  | some k =>
    rw [← eraseP_eq_filter (hdistinct (some k))]
    show (List.lookup k (bus.byKind.map _)).getD [] = ((bus.byKind.lookup k).getD []).eraseP _
    rw [Dictionary.lookup_map]
    cases bus.byKind.lookup k with
    | none => rfl
    | some ss => rfl

/-- The handles of a log ascend to the next one, and the lists of a bus hold the subscriptions that stand, in the order
in which they were made. -/
structure Reflects (bus : Bus α) (log : BusLog α) : Prop where
  below : ∀ h ∈ log.handles, h < bus.next
  ascending : log.handles.Pairwise (· < ·)
  made : log.made.map (·.handle) = log.handles
  standing : ∀ k s, s ∈ bus.heard k ↔ log.Stands s ∧ s.kind = k
  order : ∀ k, (bus.heard k).Sublist log.made

namespace Reflects

variable {log : BusLog α} {s s' : Subscription α} {k k' : Option EventKind}

/-- No two subscriptions were given the same handle. -/
lemma made_nodup (h : bus.Reflects log) : (log.made.map (·.handle)).Nodup := by
  rw [h.made]
  exact h.ascending.imp Nat.ne_of_lt

/-- No handle is twice in a list. -/
lemma heard_nodup (h : bus.Reflects log) (k : Option EventKind) : ((bus.heard k).map (·.handle)).Nodup :=
  h.made_nodup.sublist ((h.order k).map _)

/-- The handles in a list have been given. -/
lemma heard_below (h : bus.Reflects log) (hs : s ∈ bus.heard k) : s.handle < bus.next := by
  apply h.below
  rw [← h.made]
  exact List.mem_map_of_mem ((h.order k).subset hs)

/-- No handle is in two lists. -/
lemma heard_disjoint (h : bus.Reflects log) (hs : s ∈ bus.heard k) (hs' : s' ∈ bus.heard k') (hk : k ≠ k') :
    s.handle ≠ s'.handle := by
  intro he
  have hsame : s = s' := List.inj_on_of_nodup_map h.made_nodup ((h.order k).subset hs) ((h.order k').subset hs') he
  apply hk
  rw [← ((h.standing k s).mp hs).2, ← ((h.standing k' s').mp hs').2, hsame]

/-- An entry that neither gives a handle nor takes a subscription back changes nothing. -/
lemma silent (h : bus.Reflects log) {e : BusCall α × BusReply α} (hmade : made? e = none) (hhandle : handle? e = none)
    (hkeeps : ∀ handle reply, e ≠ (.unsubscribe handle, reply)) : bus.Reflects (log ++ [e]) := by
  have hm : BusLog.made (log ++ [e]) = log.made := by simp [BusLog.made, hmade]
  have hh : BusLog.handles (log ++ [e]) = log.handles := by simp [BusLog.handles, hhandle]
  have hstands : ∀ s, BusLog.Stands (log ++ [e]) s ↔ log.Stands s := by
    intro s
    rw [BusLog.stands_concat, or_iff_right, and_iff_left (hkeeps s.handle)]
    rintro rfl
    cases hmade
  exact {
    below := hh ▸ h.below
    ascending := hh ▸ h.ascending
    made := by rw [hm, hh, h.made]
    standing := fun k s => by rw [hstands, h.standing]
    order := fun k => hm ▸ h.order k }

/-- A new subscription has a handle that was never given. -/
lemma subscribed (h : bus.Reflects log) (kind : Option EventKind) (listener : α) :
    Reflects { bus.enter bus.next kind listener with next := bus.next + 1 }
      (log ++ [entry ⟨bus.next, kind, listener⟩]) := by
  have hm : BusLog.made (log ++ [entry ⟨bus.next, kind, listener⟩]) = log.made ++ [⟨bus.next, kind, listener⟩] := by
    simp [BusLog.made, made?, entry]
  have hh : BusLog.handles (log ++ [entry ⟨bus.next, kind, listener⟩]) = log.handles ++ [bus.next] := by
    simp [BusLog.handles, handle?, entry]
  have hheard : ∀ k, heard { bus.enter bus.next kind listener with next := bus.next + 1 } k =
      if k = kind then bus.heard kind ++ [⟨bus.next, kind, listener⟩] else bus.heard k := by
    -- the next handle is greater than all that were given, so the new listener takes the place of nobody
    have hnew : ∀ s ∈ bus.general, s.handle ≠ bus.next := fun s hs => Nat.ne_of_lt (h.heard_below (k := none) hs)
    intro k
    rw [← heard_enter hnew]
    cases k <;> rfl
  constructor
  case below =>
    intro n hn
    rw [hh] at hn
    rcases List.mem_append.mp hn with hn | hn
    · exact Nat.lt_succ_of_lt (h.below n hn)
    · rw [List.mem_singleton.mp hn]
      exact Nat.lt_succ_self _
  case ascending =>
    rw [hh, List.pairwise_append]
    refine ⟨h.ascending, List.pairwise_singleton .., fun n hn n' hn' => ?_⟩
    rw [List.mem_singleton.mp hn']
    exact h.below n hn
  case made =>
    rw [hm, hh, List.map_append, h.made]
    rfl
  case standing =>
    intro k s
    -- the new entry takes nothing back, so what stood still stands
    have hstands : BusLog.Stands (log ++ [entry ⟨bus.next, kind, listener⟩]) s ↔
        s = ⟨bus.next, kind, listener⟩ ∨ log.Stands s := by
      rw [BusLog.stands_concat, and_iff_left fun reply he => by cases he]
      exact or_congr ⟨fun he => (BusLog.entry_inj he).symm, fun hs => hs ▸ rfl⟩ Iff.rfl
    rw [hheard, hstands]
    split
    · next hk =>
      subst hk
      rw [List.mem_append, List.mem_singleton, h.standing]
      constructor
      · rintro (⟨hs, hk⟩ | rfl)
        · exact ⟨.inr hs, hk⟩
        · exact ⟨.inl rfl, rfl⟩
      · rintro ⟨rfl | hs, hk⟩
        · exact .inr rfl
        · exact .inl ⟨hs, hk⟩
    · next hk =>
      rw [h.standing]
      constructor
      · exact fun hs => ⟨.inr hs.1, hs.2⟩
      · rintro ⟨rfl | hs, hkind⟩
        · exact absurd hkind.symm hk
        · exact ⟨hs, hkind⟩
  case order =>
    intro k
    rw [hheard, hm]
    split
    · exact (h.order kind).append (List.Sublist.refl _)
    · exact (h.order k).trans (List.sublist_append_left ..)

/-- A handle that is taken back, if it is one, leaves its list. -/
lemma unsubscribed (h : bus.Reflects log) (handle : Int) :
    (bus.unsubscribe handle).Reflects (log ++ [(.unsubscribe handle, .done)]) := by
  have hm : BusLog.made (log ++ [(.unsubscribe handle, .done)]) = log.made := by simp [BusLog.made, made?]
  have hh : BusLog.handles (log ++ [(.unsubscribe handle, .done)]) = log.handles := by simp [BusLog.handles, handle?]
  constructor
  case below => exact hh ▸ h.below
  case ascending => exact hh ▸ h.ascending
  case made => rw [hm, hh, h.made]
  case standing =>
    intro k s
    have hkept : (∀ reply, ((BusCall.unsubscribe handle, BusReply.done) : BusCall α × BusReply α) ≠
        (.unsubscribe s.handle, reply)) ↔ (s.handle : Int) ≠ handle := by
      constructor
      · rintro hne rfl
        exact hne _ rfl
      · intro hne reply he
        cases he
        exact hne rfl
    rw [heard_unsubscribe h.heard_nodup, List.mem_filter, h.standing, bne_iff_ne, BusLog.stands_concat, hkept]
    constructor
    · rintro ⟨⟨hs, hk⟩, hne⟩
      exact ⟨.inr ⟨hs, hne⟩, hk⟩
    · rintro ⟨he | ⟨hs, hne⟩, hk⟩
      · cases he
      · exact ⟨⟨hs, hk⟩, hne⟩
  case order =>
    intro k
    rw [heard_unsubscribe h.heard_nodup, hm]
    exact List.filter_sublist.trans (h.order k)

/-- Whatever call comes next, the lists of the bus reflect the log with its entry. -/
lemma answer (h : bus.Reflects log) (c : BusCall α) : (bus.answer c).2.Reflects (log ++ [(c, (bus.answer c).1)]) := by
  cases c with
  | subscribe kind listener =>
    cases listener with
    | none => exact h.silent rfl rfl fun _ _ he => by cases he
    | some l =>
      show (bus.subscribe kind (some l)).2.Reflects (log ++ [(_, .handle (bus.subscribe kind (some l)).1)])
      by_cases hopen : bus.isOpen = true
      · rw [subscribe, if_pos hopen]
        exact h.subscribed kind l
      · rw [subscribe, if_neg hopen]
        exact h.silent rfl rfl fun _ _ he => by cases he
  | unsubscribe handle => exact h.unsubscribed handle
  | publish event => exact h.silent rfl rfl fun _ _ he => by cases he

/-- The lists of a bus reflect its log after any calls. -/
lemma after (h : bus.Reflects log) (calls : List (BusCall α)) : (bus.after calls).Reflects (log ++ bus.log calls) := by
  induction calls generalizing bus log with
  | nil => exact (List.append_nil log).symm ▸ h
  | cons c cs ih =>
    have hcs := ih (h.answer c)
    rw [List.append_assoc] at hcs
    exact hcs

end Reflects

/-- A bus that nobody has called. -/
def fresh (isOpen : Bool) : Bus α := if isOpen then new else closed

/-- A bus that nobody has called is as open as it was made. -/
lemma isOpen_fresh (isOpen : Bool) : (fresh isOpen : Bus α).isOpen = isOpen := by cases isOpen <;> rfl

/-- Nobody hears a bus that nobody has called. -/
lemma heard_fresh (isOpen : Bool) (k : Option EventKind) : (fresh isOpen : Bus α).heard k = [] := by
  cases isOpen <;> cases k <;> rfl

/-- A bus that nobody has called reflects the empty log. -/
lemma fresh_reflects (isOpen : Bool) : (fresh isOpen : Bus α).Reflects [] where
  below := List.forall_mem_nil _
  ascending := .nil
  made := rfl
  standing k s := by
    rw [heard_fresh]
    refine iff_of_false List.not_mem_nil ?_
    rintro ⟨⟨before, after, hlog, _⟩, _⟩
    exact List.append_ne_nil_of_right_ne_nil before (List.cons_ne_nil _ after) hlog.symm
  order k := by
    rw [heard_fresh]
    exact List.nil_sublist _

/-- No call opens or closes a bus. -/
lemma isOpen_answer (bus : Bus α) (c : BusCall α) : (bus.answer c).2.isOpen = bus.isOpen := by
  cases c with
  | subscribe kind listener =>
    show (bus.subscribe kind listener).2.isOpen = _
    unfold subscribe enter
    split
    · rfl
    · split_ifs
      · cases kind <;> rfl
      · rfl
  | unsubscribe handle => rfl
  | publish event => rfl

/-- The entry of a call tells what the bus does after the calls before it. -/
lemma log_eq_append_cons {calls : List (BusCall α)} {before after : BusLog α} {c : BusCall α} {r : BusReply α}
    (h : bus.log calls = before ++ (c, r) :: after) :
    ∃ earlier, before = bus.log earlier ∧ r = ((bus.after earlier).answer c).1 ∧
      (bus.after earlier).isOpen = bus.isOpen := by
  induction calls generalizing bus before with
  | nil => exact absurd h.symm (List.append_ne_nil_of_right_ne_nil before (List.cons_ne_nil _ _))
  | cons d cs ih =>
    cases before with
    | nil =>
      obtain ⟨he, _⟩ := List.cons.inj h
      cases he
      exact ⟨[], rfl, rfl, rfl⟩
    | cons e before =>
      obtain ⟨he, hrest⟩ := List.cons.inj h
      obtain ⟨earlier, hbefore, hr, hopen⟩ := ih hrest
      refine ⟨d :: earlier, ?_, hr, hopen.trans (isOpen_answer bus d)⟩
      rw [← he, hbefore]
      rfl

/-- A listener is given a handle by an open bus. -/
lemma subscribe_isSome (bus : Bus α) (kind : Option EventKind) (listener : Option α) :
    (bus.subscribe kind listener).1.isSome = (bus.isOpen && listener.isSome) := by
  cases listener with
  | none => exact (Bool.and_false _).symm
  | some l =>
    unfold subscribe
    cases hopen : bus.isOpen with
    | true => rfl
    | false => rfl

/-- Whoever is called for a kind of event has a subscription that stands and hears that kind, and is called once. -/
lemma Reflects.listeners {log : BusLog α} (h : bus.Reflects log) (kind : EventKind) :
    ((bus.listeners kind).map (·.handle)).Nodup ∧
      (∀ s, s ∈ bus.listeners kind ↔ log.Stands s ∧ (s.kind = none ∨ s.kind = some kind)) ∧
      ((bus.listeners kind).filter (·.kind.isSome)).Sublist log.made := by
  have hsplit : bus.listeners kind = bus.heard none ++ bus.heard (some kind) := rfl
  rw [hsplit]
  refine ⟨?_, ?_, ?_⟩
  · rw [List.map_append, List.nodup_append]
    refine ⟨h.heard_nodup none, h.heard_nodup (some kind), ?_⟩
    intro n hn n' hn'
    obtain ⟨s, hs, rfl⟩ := List.mem_map.mp hn
    obtain ⟨s', hs', rfl⟩ := List.mem_map.mp hn'
    exact h.heard_disjoint hs hs' (by simp)
  · intro s
    rw [List.mem_append, h.standing, h.standing, and_or_left]
  · have hnone : (bus.heard none).filter (·.kind.isSome) = [] := by
      refine List.filter_eq_nil_iff.mpr fun s hs => ?_
      rw [((h.standing none s).mp hs).2]
      exact Bool.false_ne_true
    rw [List.filter_append, hnone, List.nil_append]
    exact List.filter_sublist.trans (h.order (some kind))

/-- Whatever calls are made to a bus, no handle is given twice. A listener is given a handle if the bus is open, and
whoever publishes an event calls exactly those listeners, each of them once, that hear all events or events of its kind
and whose subscriptions stand: they have been given a handle before, which has not been taken back since. Listeners to
the kind are called in the order in which they subscribed. -/
theorem published_to_standing (isOpen : Bool) (calls : List (BusCall α)) :
    ((fresh isOpen).log calls).handles.Nodup ∧
    ∀ before call reply after, (fresh isOpen).log calls = before ++ (call, reply) :: after →
      (∀ kind listener, call = .subscribe kind listener →
        ∃ handle, reply = .handle handle ∧ handle.isSome = (isOpen && listener.isSome)) ∧
      ∀ event, call = .publish event → ∃ called, reply = .called called ∧
        (called.map (·.handle)).Nodup ∧
        (∀ s, s ∈ called ↔ BusLog.Stands before s ∧ (s.kind = none ∨ s.kind = some event.kind)) ∧
        (called.filter (·.kind.isSome)).Sublist before.made := by
  constructor
  · exact ((fresh_reflects isOpen).after calls).ascending.imp Nat.ne_of_lt
  · intro before call reply after hlog
    obtain ⟨earlier, rfl, rfl, hopen⟩ := log_eq_append_cons hlog
    refine ⟨?_, ?_⟩
    · rintro kind listener rfl
      refine ⟨_, rfl, (subscribe_isSome _ kind listener).trans ?_⟩
      rw [hopen, isOpen_fresh]
    · rintro event rfl
      exact ⟨_, rfl, ((fresh_reflects isOpen).after earlier).listeners event.kind⟩

end Bus

end Croupier
