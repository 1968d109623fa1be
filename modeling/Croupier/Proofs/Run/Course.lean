import Croupier.Proofs.Run.Eval
import Croupier.Proofs.Run.Point
import Croupier.Proofs.Run.Register

/-!
# The course of a run

Every task has a trace. When a run comes to a point, it has made some of its calls of built-in functions, and next it
makes those of the task there; a register holds what the calls have written so far (`Passes`). What a task needs it
passes to (`Needs.passes`), and so does the whole run (`ComesTo.passes`). In the same way a sound law is obeyed at every
point if it is where the run starts (`ComesTo.obeys`).
-/

namespace Croupier.Run

open Trace (quiet andThen)

namespace Env

variable (env : Env)

/-- The calls of the program's functions when so many calls may still be nested, with their traces. -/
def entry (depth : Nat) : Entry := ⟨enter env depth, enterTrace env depth⟩

/-- The calls by name, with their traces. -/
def caller (depth : Nat) : Caller := (env.entry depth).caller env

/-- The calls of what a built-in function is given by name, with their traces. -/
def referrer (depth : Nat) : Caller := (env.entry depth).refer env

end Env

/-- The trace of a task. -/
def Task.trace (env : Env) : Task → Trace
  | eval depth scope e => evalTrace env (env.caller depth) scope e
  | evalAll depth scope es => evalAllTrace env (env.caller depth) scope es
  | exec depth fn scope s => execTrace env (env.caller depth) fn scope s
  | execAll depth fn scope ss => execAllTrace env (env.caller depth) fn scope ss
  | call depth name args pos => (env.caller depth).trace name args pos
  | callback depth name args pos => (env.referrer depth).trace name args pos
  | enter depth fn args pos => enterTrace env depth fn args pos

/-- On its way from one point to another a run makes some calls, and then those of the task at the other point. -/
structure Passes (env : Env) (point : Task × Work) (calls : List BuiltinCall) (point' : Task × Work) : Prop where
  begins : calls ++ point'.1.trace env point'.2 <+: point.1.trace env point.2
  records : ∀ {σ : Type} {reg : Register σ}, reg.Sound → reg.read point'.2 = reg.after calls (reg.read point.2)

variable {α σ : Type} {env : Env} {reg : Register σ}

/-- The calls of a sequence are those of its first part and then those of the second. -/
lemma Trace.andThen_of_ok {m : Run α} {calls : Trace} {next : α → Trace} {w w' : Work} {a : α}
    (h : m w = .ok (a, w')) : andThen m calls next w = calls w ++ next a w' := by
  unfold andThen
  rw [h]

/-- The traces of calls by name are right, however deep they may be nested. -/
lemma Env.caller_records (sound : reg.Sound) (depth : Nat) : (env.caller depth).Records reg :=
  Run.caller_records sound (enter_records sound depth)

/-- The traces of calls back are right, however deep they may be nested. -/
lemma Env.referrer_records (sound : reg.Sound) (depth : Nat) : (env.referrer depth).Records reg :=
  dispatch_records sound (enter_records sound depth) fun _ _ _ => .fail

namespace Passes

variable {task task' : Task} {w w' : Work} {point point' point'' : Task × Work} {calls calls' : List BuiltinCall}

/-- A task begins with another. -/
lemma start (h : task'.trace env w <+: task.trace env w) : Passes env (task, w) [] (task', w) where
  begins := h
  records _ := rfl

/-- A task does another after a run that it begins with. -/
lemma next {m : Run α} {before : Trace} {more : α → Trace} {a : α}
    (hm : ∀ {σ : Type} {reg : Register σ}, reg.Sound → Records reg m before) (hr : m w = .ok (a, w'))
    (h : task.trace env w = andThen m before more w) (hmore : task'.trace env w' <+: more a w') :
    Passes env (task, w) (before w) (task', w') where
  begins := by
    rw [h, Trace.andThen_of_ok hr]
    exact (List.prefix_append_right_inj _).mpr hmore
  records sound := hm sound hr

/-- What is passed to on the way to a point and on the way from there is passed to on the whole way. -/
lemma trans (h : Passes env point calls point') (h' : Passes env point' calls' point'') :
    Passes env point (calls ++ calls') point'' where
  begins := by
    rw [List.append_assoc]
    exact ((List.prefix_append_right_inj _).mpr h'.begins).trans h.begins
  records sound := by rw [Register.after_append, h'.records sound, h.records sound]

end Passes

section Calls

variable {e : Entry} {refer c : Caller} {name predicate : String} {args args' : List Value} {pos : Pos} {fn : Function}
  {b : Builtin} {w w' : Work}

/-- A name that means a function of the program has the trace of that function. -/
lemma trace_of_own? (h : env.own? name = some fn) :
    (e.dispatch env refer).trace name args pos = e.trace fn args pos := by
  obtain ⟨hfn, hown⟩ := Option.filter_eq_some_iff.mp h
  unfold Entry.dispatch
  simp only [hfn]
  cases hb : Builtin.ofName? name with
  | none => rfl
  | some b =>
    rw [hb] at hown
    exact if_neg (by simpa using hown)

/-- A name that means a built-in function has the trace of that function. -/
lemma trace_of_builtin? (h : env.builtin? name = some b) :
    (e.dispatch env refer).trace name args pos = builtinTrace refer b args pos := by
  unfold Env.builtin? at h
  split at h
  · cases h
  next hown =>
    unfold Entry.dispatch
    simp only [h]
    cases hfn : env.program.function? name with
    | none => rfl
    | some fn =>
      -- the program's function would be meant if its body were not empty
      refine if_pos ?_
      simpa [Env.own?, hfn, h] using hown

/-- The trace of a filter is that of the predicate on the first card and then that of the filter on the others. -/
lemma keepTrace_cons {x : Card} {xs : List Card} {keeps : Bool}
    (h : c.invoke predicate [.card x] pos w = .ok (.bool keeps, w')) :
    keepTrace c predicate pos (x :: xs) w = c.trace predicate [.card x] pos w ++ keepTrace c predicate pos xs w' :=
  Trace.andThen_of_ok h

/-- The trace of a filter goes on after the cards that the predicate has been asked about. -/
lemma keepTrace_append {cs cs' kept : List Card} (h : Builtin.keep c.invoke predicate pos cs w = .ok (kept, w')) :
    keepTrace c predicate pos (cs ++ cs') w =
      keepTrace c predicate pos cs w ++ keepTrace c predicate pos cs' w' := by
  induction cs generalizing w kept with
  | nil =>
    obtain ⟨_, rfl⟩ := pure_ok.mp h
    rfl
  | cons x xs ih =>
    obtain ⟨v, w₁, hv, h⟩ := bind_ok.mp h
    cases v with
    | bool keeps =>
      obtain ⟨rest, w₂, hrest, h⟩ := bind_ok.mp h
      obtain ⟨_, rfl⟩ := pure_ok.mp h
      rw [List.cons_append, keepTrace_cons hv, keepTrace_cons hv, ih hrest, List.append_assoc]
    | _ => cases h

/-- What a built-in function calls back comes next after some of the calls that it makes. -/
lemma CallsBack.passes (h : CallsBack c.invoke b args pos w name args' w') :
    ∃ calls, calls ++ c.trace name args' pos w' <+: callbackTrace c b args pos w ∧ b.asks = true ∧
      ∀ {σ : Type} {reg : Register σ}, c.Records reg → reg.read w' = reg.after calls (reg.read w) := by
  cases h with
  | count => exact ⟨[], List.prefix_rfl, rfl, fun _ => rfl⟩
  | getValue => exact ⟨[], List.prefix_rfl, rfl, fun _ => rfl⟩
  | handRank => exact ⟨[], List.prefix_rfl, rfl, fun _ => rfl⟩
  | cardsInStack hlocate =>
    obtain ⟨rfl, _⟩ := locate_ok hlocate
    refine ⟨[], ?_, rfl, fun _ => rfl⟩
    rw [callbackTrace, Trace.andThen_of_ok hlocate]
    exact List.prefix_rfl
  | @filter name predicate pos w =>
    cases predicate with
    | function p => exact ⟨[], List.prefix_append _ _, rfl, fun _ => rfl⟩
    | _ => exact ⟨[], List.prefix_rfl, rfl, fun _ => rfl⟩
  | @keep source name x before after kept pos w w₁ w₂ hcards hkeep =>
    have htrace : callbackTrace c .filter [source, .function name] pos w =
        cardsTrace c source pos w ++ keepTrace c name pos (before ++ x :: after) w₁ := Trace.andThen_of_ok hcards
    refine ⟨cardsTrace c source pos w ++ keepTrace c name pos before w₁, ?_, rfl, fun hc => ?_⟩
    · rw [htrace, keepTrace_append hkeep, ← List.append_assoc]
      exact (List.prefix_append_right_inj _).mpr (List.prefix_append _ _)
    · rw [Register.after_append, ← cardsOf_records hc hcards, keep_records hc hkeep]

end Calls

section Transfer

variable {eval : Expr → Run Value} {trace : Expr → Trace} {c : Caller} {source target : Expr} {r r' : PileRef}
  {place place' : Place} {w w₁ w₂ : Work}

/-- The trace of a transfer of a set of cards whose ends have been found. -/
lemma transferTrace_of_ends {e : Expr} (hsource : eval source w = .ok (.pile r, w₁))
    (htarget : eval target w₁ = .ok (.pile r', w₂)) (hplace : locate r source.pos w₂ = .ok (place, w₂))
    (hplace' : locate r' target.pos w₂ = .ok (place', w₂)) :
    transferTrace eval trace c source target (.these e) w = trace source w ++ (trace target w₁ ++
      andThen (eval e) (trace e) (fun v => cardsTrace c v e.pos) w₂) := by
  have hbetween : betweenTrace eval trace c r' target.pos (.these e) w₂ =
      andThen (eval e) (trace e) (fun v => cardsTrace c v e.pos) w₂ := by
    cases r' with
    | everyPlayer name => cases hplace'
    | _ => exact Trace.andThen_of_ok hplace'
  rw [transferTrace, Trace.andThen_of_ok hsource, ← hbetween]
  refine congrArg (trace source w ++ ·) ((Trace.andThen_of_ok htarget).trans ?_)
  exact congrArg (trace target w₁ ++ ·) (Trace.andThen_of_ok hplace)

end Transfer

variable {task task' : Task} {w w' : Work}

/-- What a task needs comes next after some of its calls. -/
lemma Needs.passes (h : Needs env task w task' w') : ∃ calls, Passes env (task, w) calls (task', w') := by
  have hcaller : ∀ d {σ : Type} {reg : Register σ}, reg.Sound → (env.caller d).Records reg :=
    fun d _ _ sound => env.caller_records sound d
  have heval : ∀ d scope e {σ : Type} {reg : Register σ}, reg.Sound →
      Records reg (eval env (env.call d) scope e) (evalTrace env (env.caller d) scope e) :=
    fun d scope e _ _ sound => eval_records (hcaller d sound) e
  -- what comes first in a task comes after no calls; anything else comes after those of the parts before it
  cases h with
  | @base d scope base key pos w hevery =>
    refine ⟨[], .start ?_⟩
    rw [Task.trace, Task.trace, evalTrace, hevery]
    exact List.prefix_rfl
  | args => exact ⟨[], .start (List.prefix_append _ _)⟩
  | call hargs =>
    exact ⟨_, .next (fun sound => evalAll_records (hcaller _ sound) _) hargs rfl List.prefix_rfl⟩
  | compareLeft => exact ⟨[], .start (List.prefix_append _ _)⟩
  | compareRight hleft => exact ⟨_, .next (heval _ _ _) hleft rfl List.prefix_rfl⟩
  | joinLeft => exact ⟨[], .start (List.prefix_append _ _)⟩
  | @joinRight d scope op left right pos w b w' hleft hopen =>
    refine ⟨_, .next (heval _ _ _) hleft rfl ?_⟩
    -- the left side does not decide, so the right one is evaluated next
    have hmore : andThen (truth op.sign (.bool b) left.pos) quiet (fun a => if decides op a then quiet
        else evalTrace env (env.caller d) scope right) w' = evalTrace env (env.caller d) scope right w' := by
      rw [Trace.andThen_of_ok rfl, if_neg (ne_true_of_eq_false hopen)]
      rfl
    rw [hmore]
    exact List.prefix_rfl
  | operand => exact ⟨[], .start List.prefix_rfl⟩
  | firstArg => exact ⟨[], .start (List.prefix_append _ _)⟩
  | otherArgs hfirst => exact ⟨_, .next (heval _ _ _) hfirst rfl List.prefix_rfl⟩
  | source => exact ⟨[], .start (List.prefix_append _ _)⟩
  | target hsource =>
    refine ⟨_, .next (heval _ _ _) hsource rfl ?_⟩
    exact List.prefix_append _ _
  | @cards d fn scope source target e pos w r w₁ r' w₂ place place' hsource htarget hplace hplace' =>
    refine ⟨evalTrace env (env.caller d) scope source w ++ evalTrace env (env.caller d) scope target w₁, ?_, ?_⟩
    · show _ <+: transferTrace (eval env (env.call d) scope) _ _ source target (.these e) w
      rw [transferTrace_of_ends hsource htarget hplace hplace', List.append_assoc]
      refine (List.prefix_append_right_inj _).mpr ((List.prefix_append_right_inj _).mpr ?_)
      exact List.prefix_append _ _
    · intro σ reg sound
      rw [Register.after_append, ← heval _ _ _ sound hsource, heval _ _ _ sound htarget]
  | @cardsCall d fn scope source target e pos w r w₁ r' w₂ place place' name w₃ hsource htarget hplace hplace' he =>
    refine ⟨evalTrace env (env.caller d) scope source w ++ (evalTrace env (env.caller d) scope target w₁ ++
      evalTrace env (env.caller d) scope e w₂), ?_, ?_⟩
    · show _ <+: transferTrace (eval env (env.call d) scope) _ _ source target (.these e) w
      rw [transferTrace_of_ends hsource htarget hplace hplace', Trace.andThen_of_ok he]
      simp only [List.append_assoc]
      exact List.prefix_rfl
    · intro σ reg sound
      rw [Register.after_append, Register.after_append, ← heval _ _ _ sound hsource, ← heval _ _ _ sound htarget,
        heval _ _ _ sound he]
  | checked => exact ⟨[], .start List.prefix_rfl⟩
  | returned => exact ⟨[], .start List.prefix_rfl⟩
  | called => exact ⟨[], .start List.prefix_rfl⟩
  | condition => exact ⟨[], .start (List.prefix_append _ _)⟩
  | body hcondition => exact ⟨_, .next (heval _ _ _) hcondition rfl List.prefix_rfl⟩
  | firstStmt => exact ⟨[], .start (List.prefix_append _ _)⟩
  | otherStmts hfirst =>
    exact ⟨_, .next (fun sound => exec_records sound (hcaller _ sound) _) hfirst rfl List.prefix_rfl⟩
  | own hfn =>
    refine ⟨[], .start ?_⟩
    rw [Task.trace, Task.trace, Env.caller, Entry.caller, trace_of_own? hfn]
    exact List.prefix_rfl
  | @callback d name args pos w b name' args' w' hb hback =>
    have hback : CallsBack (env.referrer d).invoke b args pos w name' args' w' := hback
    obtain ⟨calls, hbegins, hasks, hrecords⟩ := hback.passes
    refine ⟨⟨b, args⟩ :: calls, ?_, fun sound => ?_⟩
    · show _ <+: (Entry.caller _ env).trace name args pos w
      rw [Entry.caller, trace_of_builtin? hb]
      exact List.cons_prefix_cons.mpr ⟨rfl, hbegins⟩
    · show _ = Register.after _ calls (Register.write _ ⟨b, args⟩ _)
      -- a built-in function that calls back writes nothing itself
      rw [sound.asks hasks]
      exact hrecords (env.referrer_records sound d)
  | ownCallback hfn =>
    refine ⟨[], .start ?_⟩
    rw [Task.trace, Task.trace, Env.referrer, Entry.refer, trace_of_own? hfn]
    exact List.prefix_rfl
  | @enter d fn args pos w harity =>
    have hcheck : checkArity fn args pos w = .ok ((), w) := by
      rw [checkArity, if_pos harity]
      rfl
    refine ⟨[], .start ?_⟩
    rw [Task.trace, Task.trace, enterTrace, Trace.andThen_of_ok hcheck]
    exact List.prefix_rfl

/-- When a run comes to a point, it has made some of its calls, and it makes those of the task there next. -/
lemma ComesTo.passes {point point' : Task × Work} (h : ComesTo env point point') :
    ∃ calls, Passes env point calls point' := by
  induction h with
  | refl => exact ⟨[], .start List.prefix_rfl⟩
  | tail _ hneeds ih =>
    obtain ⟨calls, hcalls⟩ := ih
    obtain ⟨calls', hcalls'⟩ := hneeds.passes
    exact ⟨calls ++ calls', hcalls.trans hcalls'⟩

/-- The values that a task is given obey a law. -/
def Task.Obeys (law : Law) (task : Task) : Prop := ∀ v ∈ task.given, law.value v

variable {law : Law}

/-- What a built-in function calls back with obeys a law that its arguments obey. -/
lemma CallsBack.obeys (sound : law.Sound) {invoke : Invoke} (hcall : KeepsCalls law invoke) {b : Builtin}
    {args args' : List Value} {pos : Pos} {name : String} (h : CallsBack invoke b args pos w name args' w')
    (hargs : ∀ v ∈ args, law.value v) (hw : law.table w.table) : (∀ v ∈ args', law.value v) ∧ law.table w'.table := by
  cases h with
  | count => exact ⟨List.forall_mem_nil _, hw⟩
  | getValue => exact ⟨List.forall_mem_nil _, hw⟩
  | handRank => exact ⟨List.forall_mem_nil _, hw⟩
  | cardsInStack hlocate =>
    obtain ⟨rfl, _⟩ := locate_ok hlocate
    exact ⟨List.forall_mem_nil _, hw⟩
  | filter => exact ⟨List.forall_mem_nil _, hw⟩
  | keep hcards hkeep =>
    -- the card that the predicate is asked about is one of the cards of the source
    obtain ⟨steps, hcs⟩ := cardsOf_keeps sound hcall (hargs _ List.mem_cons_self) hw hcards
    have hbefore := sound.sublist (List.sublist_append_left _ _) hcs
    have hw₁ := steps.keeps sound.step hw
    have hw₂ := (Builtin.keep_keeps sound hcall hbefore hw₁ hkeep).1.keeps sound.step hw₁
    refine ⟨List.forall_mem_singleton.mpr (sound.sublist (List.singleton_sublist.mpr ?_) hcs), hw₂⟩
    exact List.mem_append_right _ List.mem_cons_self

/-- What a task needs obeys a law if the task does. -/
lemma Needs.obeys (sound : law.Sound) (hmove : ∀ m ∈ env.context.move, law.move m) (h : Needs env task w task' w')
    (ht : task.Obeys law) (hw : law.table w.table) : task'.Obeys law ∧ law.table w'.table := by
  have hcalls : ∀ d, KeepsCalls law (env.call d) := fun d => invoke_keeps sound (enter_keeps sound hmove d)
  have heval : ∀ {d scope e v} {w w' : Work}, (∀ v ∈ scope.map (·.2), law.value v) → law.table w.table →
      eval env (env.call d) scope e w = .ok (v, w') → law.table w'.table := by
    intro d scope e v w w' hscope hw hr
    exact (eval_keeps sound (hcalls d) (List.forall_mem_map.mp hscope) e hw hr).1.keeps sound.step hw
  cases h with
  | base _ => exact ⟨ht, hw⟩
  | args => exact ⟨ht, hw⟩
  | call hargs =>
    obtain ⟨steps, hvs⟩ := evalAll_keeps sound (hcalls _) (List.forall_mem_map.mp ht) _ hw hargs
    exact ⟨hvs, steps.keeps sound.step hw⟩
  | compareLeft => exact ⟨ht, hw⟩
  | compareRight hleft => exact ⟨ht, heval ht hw hleft⟩
  | joinLeft => exact ⟨ht, hw⟩
  | joinRight hleft _ => exact ⟨ht, heval ht hw hleft⟩
  | operand => exact ⟨ht, hw⟩
  | firstArg => exact ⟨ht, hw⟩
  | otherArgs hfirst => exact ⟨ht, heval ht hw hfirst⟩
  | source => exact ⟨ht, hw⟩
  | target hsource => exact ⟨ht, heval ht hw hsource⟩
  | cards hsource htarget _ _ => exact ⟨ht, heval ht (heval ht hw hsource) htarget⟩
  | cardsCall hsource htarget _ _ he =>
    exact ⟨List.forall_mem_nil _, heval ht (heval ht (heval ht hw hsource) htarget) he⟩
  | checked => exact ⟨ht, hw⟩
  | returned => exact ⟨ht, hw⟩
  | called => exact ⟨ht, hw⟩
  | condition => exact ⟨ht, hw⟩
  | body hcondition => exact ⟨ht, heval ht hw hcondition⟩
  | firstStmt => exact ⟨ht, hw⟩
  | otherStmts hfirst =>
    have steps := (exec_keeps sound (hcalls _) (List.forall_mem_map.mp ht) _ hw hfirst).1
    exact ⟨ht, steps.keeps sound.step hw⟩
  | own _ => exact ⟨ht, hw⟩
  | @callback d name args pos w b name' args' w' _ hback =>
    have hrefer : KeepsCalls law (env.callback d) :=
      dispatch_keeps sound (enter_keeps sound hmove d) fun _ _ _ _ => .fail
    exact hback.obeys sound hrefer ht hw
  | ownCallback _ => exact ⟨ht, hw⟩
  | enter _ => exact ⟨List.forall_mem_map.mpr (scope_lawful hmove ht), hw⟩

/-- At every point that a run comes to, a law is obeyed that is obeyed where the run starts. -/
lemma ComesTo.obeys (sound : law.Sound) (hmove : ∀ m ∈ env.context.move, law.move m) {point point' : Task × Work}
    (h : ComesTo env point point') (ht : point.1.Obeys law) (hw : law.table point.2.table) :
    point'.1.Obeys law ∧ law.table point'.2.table := by
  induction h with
  | refl => exact ⟨ht, hw⟩
  | tail _ hneeds ih => exact hneeds.obeys sound hmove ih.1 ih.2

end Croupier.Run
