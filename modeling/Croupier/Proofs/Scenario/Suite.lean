import Croupier.Command
import Croupier.Proofs.Except
import Croupier.Proofs.Game.Session

/-!
# The two ways to play a suite

A suite is played to its end, or only up to the first scenario that does not pass. Played to its end it gives the
outcomes of all scenarios (`playAll_false`). Otherwise all scenarios pass and nothing changes, or the scenarios are
split at the first that does not pass: that one and those before it are played, and those behind it are skipped
(`playAll_true`). So a suite passes either way if and only if every scenario passes alone.
-/

namespace Croupier

namespace Report

/-- A report passes if and only if nothing is skipped and all that is played passes. -/
lemma passed_iff {r : Report} : r.passed = true ↔ (∀ res ∈ r.results, res.passed = true) ∧ r.skipped = 0 := by
  simp [passed, failed, List.filter_eq_nil_iff]

end Report

namespace Suite

/-- A suite of which only one scenario is left. -/
def only (s : Suite) (t : Scenario) : Suite := { s with scenarios := [t] }

variable {p : Program} {o : GameOptions}

/-- A suite is played to its end if nothing stops it. -/
lemma playAll_false (ss : List Scenario) : playAll p o false ss = ⟨ss.map (·.play p o), 0⟩ := by
  induction ss with
  | nil => rfl
  | cons s ss ih =>
    rw [playAll, ih]
    rfl

/-- Up to the first scenario that does not pass, a suite is played as it is to its end. -/
lemma playAll_true (ss : List Scenario) :
    ((∀ t ∈ ss, (t.play p o).passed = true) ∧ playAll p o true ss = ⟨ss.map (·.play p o), 0⟩) ∨
      ∃ before t after, ss = before ++ t :: after ∧ (∀ t ∈ before, (t.play p o).passed = true) ∧
        (t.play p o).passed = false ∧
        playAll p o true ss = ⟨before.map (·.play p o) ++ [t.play p o], after.length⟩ := by
  induction ss with
  | nil => exact .inl ⟨List.forall_mem_nil _, rfl⟩
  | cons s ss ih =>
    rw [playAll]
    cases hs : (s.play p o).passed with
    | false => exact .inr ⟨[], s, ss, rfl, List.forall_mem_nil _, hs, rfl⟩
    | true =>
      rcases ih with ⟨hall, hplay⟩ | ⟨before, t, after, rfl, hbefore, ht, hplay⟩
      · refine .inl ⟨List.forall_mem_cons.mpr ⟨hs, hall⟩, ?_⟩
        rw [hplay]
        rfl
      · refine .inr ⟨s :: before, t, after, rfl, List.forall_mem_cons.mpr ⟨hs, hbefore⟩, ht, ?_⟩
        rw [hplay]
        rfl

/-- What is played before a suite is stopped has passed. -/
lemma playAll_true_prefix (ss : List Scenario) :
    (playAll p o true ss).results <+: ss.map (·.play p o) ∧
      ∀ r ∈ (playAll p o true ss).results.dropLast, r.passed = true := by
  rcases playAll_true ss with ⟨hall, hplay⟩ | ⟨before, t, after, rfl, hbefore, _, hplay⟩
  · rw [hplay]
    refine ⟨List.prefix_rfl, ?_⟩
    intro r hr
    obtain ⟨t, ht, rfl⟩ := List.mem_map.mp (List.dropLast_subset _ hr)
    exact hall t ht
  · rw [hplay]
    constructor
    · refine ⟨after.map (·.play p o), ?_⟩
      rw [List.append_assoc, List.map_append]
      rfl
    · rw [List.dropLast_concat]
      exact List.forall_mem_map.mpr hbefore

/-- Every scenario is either played or skipped. -/
lemma length_add_skipped (failFast : Bool) (ss : List Scenario) :
    (playAll p o failFast ss).results.length + (playAll p o failFast ss).skipped = ss.length := by
  cases failFast with
  | false => rw [playAll_false, List.length_map, Nat.add_zero]
  | true =>
    rcases playAll_true ss with ⟨_, hplay⟩ | ⟨before, t, after, rfl, _, _, hplay⟩
    · rw [hplay, List.length_map, Nat.add_zero]
    · rw [hplay]
      simp [Nat.add_assoc, Nat.add_comm 1]

/-- A suite passes, in whichever way it is played, if and only if every scenario passes. -/
lemma playAll_passed_iff (failFast : Bool) (ss : List Scenario) :
    (playAll p o failFast ss).passed = true ↔ ∀ t ∈ ss, (t.play p o).passed = true := by
  rw [Report.passed_iff]
  cases failFast with
  | false => simp [playAll_false]
  | true =>
    rcases playAll_true ss with ⟨hall, hplay⟩ | ⟨before, t, after, rfl, _, ht, hplay⟩
    · rw [hplay]
      exact iff_of_true ⟨List.forall_mem_map.mpr hall, rfl⟩ hall
    · rw [hplay]
      -- The scenario that stops the suite is played and does not pass.
      apply iff_of_false
      · rintro ⟨hplayed, _⟩
        exact Bool.false_ne_true (ht.symm.trans (hplayed _ (List.mem_append_right _ List.mem_cons_self)))
      · intro hall
        exact Bool.false_ne_true (ht.symm.trans (hall t (List.mem_append_right _ List.mem_cons_self)))

/-- A suite passes if and only if every scenario passes as the only one. -/
lemma passed_iff_alone (s : Suite) (failFast alone : Bool) :
    (s.play p o failFast).passed = true ↔ ∀ t ∈ s.scenarios, ((s.only t).play p o alone).passed = true := by
  have halone : ∀ t, ((s.only t).play p o alone).passed = true ↔ (t.play p o).passed = true := by
    intro t
    rw [play, playAll_passed_iff, only, List.forall_mem_singleton]
  simp only [halone]
  exact playAll_passed_iff failFast s.scenarios

end Suite

namespace Command

variable {p : Program} {st : Settings} {decode : String → Except String Suite}
  {read : String → Id (Except FileError String)}

/-- On files that can be read, the command plays the suite for the program, whatever reads the text of the suite. -/
lemma runWith_test {id game path text : String} {rest : List String} {s : Suite}
    (hp : readProgram game (read game) = .ok p) (htext : read path = .ok text) (hs : decode text = .ok s) :
    (runWith decode read id st ("test" :: game :: path :: rest)).code =
      if (s.play p st.gameOptions st.failFast).passed then 0 else 1 := by
  have hrun : runWith decode read id st ("test" :: game :: path :: rest) =
      perform decode read id st p "test" (path :: rest) := by
    simp only [runWith, bind, hp]
  have hperform : perform decode read id st p "test" (path :: rest) = testSuite decode p st path (.ok text) :=
    congrArg (testSuite decode p st path) htext
  rw [hrun, hperform, testSuite]
  simp only [hs]

end Command

/-- Let a suite be played to its end, and also only up to the first scenario that does not pass. In the first case all
scenarios are played in their order and none is skipped. In the second the outcomes are the first ones of these, and all
but the last pass. In both cases every scenario is either played or skipped, and the suite passes if and only if every
scenario passes alone. So the command for a suite succeeds under the same condition, whichever way the settings ask for
and whatever reads the text of the suite. -/
theorem Suite.modes_agree (s : Suite) (p : Program) (o : GameOptions) :
    ((s.play p o false).results = s.scenarios.map (·.play p o) ∧ (s.play p o false).skipped = 0) ∧
      ((s.play p o true).results <+: (s.play p o false).results ∧
        ∀ r ∈ (s.play p o true).results.dropLast, r.passed = true) ∧
      (∀ failFast, (s.play p o failFast).results.length + (s.play p o failFast).skipped = s.scenarios.length) ∧
      (∀ failFast alone, (s.play p o failFast).passed = true ↔
        ∀ t ∈ s.scenarios, ((s.only t).play p o alone).passed = true) ∧
      ∀ (decode : String → Except String Suite) (read : String → Id (Except FileError String)) (id : String)
        (st : Settings) (game path text : String) (rest : List String),
        Command.readProgram game (read game) = .ok p → read path = .ok text → decode text = .ok s →
        st.gameOptions = o → ∀ alone,
        ((Command.runWith decode read id st ("test" :: game :: path :: rest)).code = 0 ↔
          ∀ t ∈ s.scenarios, ((s.only t).play p o alone).passed = true) := by
  have hfull : s.play p o false = ⟨s.scenarios.map (·.play p o), 0⟩ := playAll_false s.scenarios
  refine ⟨by rw [hfull]; exact ⟨rfl, rfl⟩, ?_, fun failFast => length_add_skipped failFast s.scenarios,
    passed_iff_alone s, ?_⟩
  · rw [hfull]
    exact playAll_true_prefix s.scenarios
  · rintro decode read id st game path text rest hp htext hs rfl alone
    rw [Command.runWith_test hp htext hs, ← passed_iff_alone s st.failFast alone]
    simp

/-- A suite for `duel` whose first scenario does not pass. -/
def duelSuite : String := "tests:
- name: over at once
  expect:
    ended: true
- name: nothing to see
"

/-- The first scenario of `duelSuite`. -/
def overAtOnce : Scenario := { name := "over at once", expect := { ended := some true } }

/-- The files of `duel`. -/
def duelFiles (path : String) : Id (Except FileError String) := .ok (if path = "duel.card" then duel else duelSuite)

/-- The command for `duelSuite` fails, whichever way it is played. -/
theorem duelSuite_modes_agree : ∃ p s, Program.ofSource duel.toList = .ok p ∧ Suite.ofText duelSuite = .ok s ∧
    ∀ failFast, (Command.run duelFiles "" { failFast := failFast } ["test", "duel.card", "duel.yaml"]).code ≠ 0 := by
  have hs : Suite.ofText duelSuite = .ok { scenarios := [overAtOnce, { name := "nothing to see" }] } := by
    decide +kernel
  have hplay : (Program.ofSource duel.toList).toOption.any (fun p =>
      !(Suite.play { scenarios := [overAtOnce] } p ({} : Settings).gameOptions false).passed) = true := by
    rw [duel, String.toList_ofList]
    decide +kernel
  obtain ⟨p, hp, hfails⟩ := exists_of_any hplay
  refine ⟨p, _, hp, hs, ?_⟩
  intro failFast hcode
  have hfile : duelFiles "duel.card" = .ok duel := congrArg Except.ok (if_pos rfl)
  have htext : duelFiles "duel.yaml" = .ok duelSuite := congrArg Except.ok (if_neg (by decide))
  have hgame : Command.readProgram "duel.card" (duelFiles "duel.card") = .ok p := by
    rw [hfile]
    exact bind_eq_ok.mpr ⟨duel, rfl, mapError_eq_ok.mpr hp⟩
  obtain ⟨_, _, _, _, hcommand⟩ := Suite.modes_agree _ p ({} : Settings).gameOptions
  have hdecode : Suite.decode duelSuite = .ok _ := mapError_eq_ok.mpr hs
  have halone := (hcommand Suite.decode duelFiles "" { failFast := failFast } "duel.card" "duel.yaml" duelSuite [] hgame
    htext hdecode rfl false).mp hcode overAtOnce List.mem_cons_self
  rw [Suite.only] at halone
  rw [halone] at hfails
  cases hfails

end Croupier
