import Mathlib.Data.List.Forall2
import Croupier.Proofs.Numeral
import Croupier.Proofs.Run.Subset
import Croupier.Proofs.Table.Arrange
import Croupier.Proofs.Text.Parts
import Croupier.Scenario.Play

/-!
# When a scenario passes

A scenario holds if a game of its own starts, its start position can be laid out, every move can be read and ends as is
expected, and what is expected of the game at the end is met (`Scenario.Holds`). These are said without what is noted
while the scenario is played: a start position gives placements if no reference is named twice and all cards can be read
(`Fixture.Gives`), moves are made one after the other (`Plays`), and a pile, a number of cards, the player on turn, the
end of the game and the winners are looked at each in its way (`Expectation.Met`). Something is noted as soon as one of
them fails, and nothing otherwise, so a scenario passes if and only if it holds.
-/

namespace Croupier

section Text

/-- A number is a word that can stand in a list with blanks between the items. -/
lemma item_toString (n : Int) : Text.Item ' ' (toString n) where
  ne_empty := by
    intro h
    have hn := Numeral.denotes_toString n
    rw [h] at hn
    cases hn with
    | unsigned hds => exact hds.ne_nil rfl
  notMem hmem := by
    rcases (Numeral.denotes_toString n).mem hmem with h | h | h
    · cases h
    · cases h
    · cases h

/-- Lists of numbers can be told from how they are written. -/
lemma bracketed_inj {ids ids' : List Int}
    (h : Text.bracketed (ids.map toString) = Text.bracketed (ids'.map toString)) : ids = ids' := by
  have hlist (ns : List Int) : (Text.bracketed (ns.map toString)).toList =
      '[' :: (Text.listed ' ' (ns.map toString) ++ [']']) := by
    simp [Text.bracketed, Text.listed, String.toList_intercalate]
  have htext := congrArg String.toList h
  rw [hlist, hlist, List.cons_inj_right, List.append_cancel_right_eq] at htext
  have hitems (ns : List Int) : ∀ word ∈ ns.map toString, Text.Item ' ' word :=
    List.forall_mem_map.mpr fun n _ => item_toString n
  have hwords := Text.listed_inj (hitems ids) (hitems ids') htext
  exact List.map_injective_iff.mpr (fun _ _ => Numeral.toString_inj) hwords

end Text

/-- All items of a list can be turned into results if and only if each can. -/
lemma mapM_eq_ok_iff {ε α β : Type} {f : α → Except ε β} {as : List α} {bs : List β} :
    as.mapM f = .ok bs ↔ List.Forall₂ (fun a b => f a = .ok b) as bs := by
  induction as generalizing bs with
  | nil =>
    rw [List.mapM_nil, List.forall₂_nil_left_iff]
    exact ⟨fun h => (Except.ok.inj h).symm, fun h => h ▸ rfl⟩
  | cons a as ih =>
    rw [List.mapM_cons, bind_eq_ok, List.forall₂_cons_left_iff]
    constructor
    · rintro ⟨b, hb, h⟩
      obtain ⟨bs', hbs, h⟩ := bind_eq_ok.mp h
      cases h
      exact ⟨b, bs', hb, ih.mp hbs, rfl⟩
    · rintro ⟨b, bs', hb, hbs, rfl⟩
      exact ⟨b, hb, bind_eq_ok.mpr ⟨bs', ih.mpr hbs, rfl⟩⟩

namespace Fixture

/-- The stacks of players, the first of whom has a given number, by their references. -/
def playerEntries (first : Nat) (players : List CardNames) : CardNames :=
  (players.zipIdx first).flatMap fun (piles, id) => piles.map fun (name, cards) => (toString id ++ ":" ++ name, cards)

/-- Everything that a start position names, with the names of the cards. -/
def entries (f : Fixture) : CardNames :=
  f.piles ++ playerEntries 1 f.players ++ f.deck.toList.map fun cards => (deckName, cards)

/-- A start position names no reference twice, all its cards can be read, and these are its placements in the order of
the references. -/
def Gives (f : Fixture) (ps : List Placement) : Prop :=
  (f.entries.map Prod.fst).Nodup ∧ ∃ entries : CardNames, entries.Perm f.entries ∧
    entries.Pairwise (fun e e' => e.1 ≤ e'.1) ∧
    List.Forall₂ (fun e p => e.1 = p.ref ∧ Card.readAll e.2 = .ok p.cards) entries ps

/-- From a game a start position is laid out, if there is one. -/
inductive Lays : Option Fixture → Game → Game → Prop where
  | none {g : Game} : Lays none g g
  | some {f : Fixture} {ps : List Placement} {g g' : Game} : f.Gives ps → g.arrange ps = .ok g' → Lays (some f) g g'

end Fixture

/-- The cards of a scripted move can be read, and so it stands for a move. -/
structure ScriptedMove.StandsFor (m : ScriptedMove) (move : Move) : Prop where
  player : move.player = m.player
  action : move.action = m.action
  cards : Card.readAll m.cards = .ok move.cards
  target : Card.readAll m.target = .ok move.target

/-- A submitted move ends in one of three ways. -/
inductive Submission.EndsAs (s : Submission) : MoveEnd → Prop where
  | error {e : MoveError} : s.reply = .error e → EndsAs s .error
  | rejected {r : Reply} {why : Rejection} : s.reply = .ok r → r.verdict = .rejected why → EndsAs s .rejected
  | committed {r : Reply} {sum : String} : s.reply = .ok r → r.verdict = .committed sum → EndsAs s .committed

/-- A scripted move is expected to end in a way: in the way that it names, or else to be committed. -/
def ScriptedMove.Expects (m : ScriptedMove) (e : MoveEnd) : Prop :=
  m.expect = e.name ∨ m.expect = "" ∧ e = .committed

/-- Moves are made one after the other, and every one ends as is expected. -/
inductive Plays : List ScriptedMove → Game → Game → Prop where
  | nil {g : Game} : Plays [] g g
  | cons {m : ScriptedMove} {move : Move} {e : MoveEnd} {ms : List ScriptedMove} {g last : Game} :
    m.StandsFor move → (g.submit move).EndsAs e → m.Expects e → Plays ms (g.submit move).game last →
    Plays (m :: ms) g last

/-- What is expected of a game is met. -/
structure Expectation.Met (e : Expectation) (g : Game) : Prop where
  /-- Every pile holds the expected cards: the deck in their order, any other pile in any order. -/
  piles : ∀ ref names, (ref, names) ∈ e.piles → ∃ want place, Card.readAll names = .ok want ∧
    g.table.Refers ref place ∧ (if place = .deck then g.table.pile place = want else (g.table.pile place).Perm want)
  counts : ∀ ref n, (ref, n) ∈ e.counts → ∃ place, g.table.Refers ref place ∧ (g.table.pile place).length = n
  currentPlayer : e.currentPlayer ≠ 0 → g.currentPlayer = e.currentPlayer
  ended : ∀ b, e.ended = some b → g.isEnded = b
  winners : ∀ ids, e.winners = some ids → g.table.winners.map Int.ofNat = ids

/-- A scenario holds for a program. -/
def Scenario.Holds (s : Scenario) (p : Program) (o : GameOptions) : Prop :=
  ∃ g es g' last, Game.start s.name p o = .ok (g, es) ∧ Fixture.Lays s.fixture g g' ∧ Plays s.moves g' last ∧
    s.expect.Met last

/-- Sorted by name, the entries are the same. -/
lemma sortByName_perm {α : Type} (entries : List (String × α)) : (sortByName entries).Perm entries :=
  List.mergeSort_perm _ _

/-- Sorted by name, no entry has a name that comes before that of an earlier one. -/
lemma pairwise_sortByName {α : Type} (entries : List (String × α)) :
    (sortByName entries).Pairwise fun e e' => e.1 ≤ e'.1 := by
  have h : (sortByName entries).Pairwise fun e e' => decide (e.1 ≤ e'.1) = true := by
    apply List.pairwise_mergeSort
    · intro a b c hab hbc
      exact decide_eq_true (String.le_trans (of_decide_eq_true hab) (of_decide_eq_true hbc))
    · intro a b
      simpa using String.le_total a.1 b.1
  exact h.imp of_decide_eq_true

/-- Nothing comes out of sorted entries if and only if nothing comes out of any entry. -/
lemma flatMap_sortByName_eq_nil_iff {α β : Type} {entries : List (String × α)} {f : String × α → List β} :
    (sortByName entries).flatMap f = [] ↔ ∀ e ∈ entries, f e = [] := by
  simp only [List.flatMap_eq_nil_iff, (sortByName_perm entries).mem_iff]

/-- Entries with names of their own have one order. -/
lemma eq_sortByName {α : Type} {entries entries' : List (String × α)} (hn : (entries.map Prod.fst).Nodup)
    (hp : entries'.Perm entries) (hs : entries'.Pairwise fun e e' => e.1 ≤ e'.1) : entries' = sortByName entries := by
  apply List.Perm.eq_of_pairwise _ hs (pairwise_sortByName entries) (hp.trans (sortByName_perm entries).symm)
  intro a b ha hb hab hba
  have ha : a ∈ entries := hp.mem_iff.mp ha
  have hb : b ∈ entries := (sortByName_perm entries).mem_iff.mp hb
  exact List.inj_on_of_nodup_map hn ha hb (String.le_antisymm hab hba)

/-- Placements that name different places have different references. -/
lemma Table.Names.nodup_refs {t : Table} {ps : List Placement} {places : List Place} (h : t.Names ps places)
    (hn : places.Nodup) : (ps.map (·.ref)).Nodup := by
  induction h with
  | nil => exact List.nodup_nil
  | @cons q place ps places hrefers hnames ih =>
    obtain ⟨hplace, hn⟩ := List.nodup_cons.mp hn
    refine List.nodup_cons.mpr ⟨?_, ih hn⟩
    intro hmem
    obtain ⟨q', hq', href⟩ := List.mem_map.mp hmem
    exact hplace (List.of_mem_zip (hnames.mem_zip hq' (href ▸ hrefers))).2

/-- What has been arranged names no reference twice. -/
lemma Game.nodup_of_arrange {g g' : Game} {ps : List Placement} (h : g.arrange ps = .ok g') :
    (ps.map (·.ref)).Nodup := by
  rw [arrange] at h
  split at h
  · cases h
  · cases h
  · obtain ⟨t, ht, _⟩ := bind_eq_ok.mp h
    obtain ⟨places, _, _, htargets, _⟩ := Table.arrange_eq_ok_iff.mp ht
    obtain ⟨named, hnames, hplaces, hn⟩ := (Table.targets_eq_ok_iff List.nodup_nil).mp htargets
    rw [List.nil_append] at hplaces
    exact hnames.nodup_refs (hplaces ▸ hn)

namespace Fixture

variable {refs es out : CardNames} {f : Fixture}

/-- What is added stands after what is there. -/
lemma addAll_ok (h : addAll refs es = .ok out) : out = refs ++ es := by
  induction es generalizing refs with
  | nil =>
    cases h
    exact (List.append_nil _).symm
  | cons e es ih =>
    rw [addAll] at h
    split at h
    · cases h
    · rw [ih h, List.append_assoc, List.singleton_append]

/-- References that are not there yet can be added. -/
lemma addAll_of_nodup (h : ((refs ++ es).map Prod.fst).Nodup) : addAll refs es = .ok (refs ++ es) := by
  induction es generalizing refs with
  | nil => rw [addAll, List.append_nil]
  | cons e es ih =>
    have hnew : refs.lookup e.1 = none := by
      rw [List.map_append, List.nodup_append] at h
      rw [List.lookup_eq_none_iff]
      intro e' he'
      have hne := h.2.2 e'.1 (List.mem_map_of_mem he') e.1 (List.mem_map_of_mem List.mem_cons_self)
      simpa using hne.symm
    have happ : refs ++ e :: es = refs ++ [e] ++ es := by simp
    rw [addAll, hnew, Option.isSome_none, if_neg Bool.false_ne_true, happ]
    exact ih (happ ▸ h)

/-- The stacks of the first player come before those of the others. -/
lemma playerEntries_cons (first : Nat) (p : CardNames) (ps : List CardNames) :
    playerEntries first (p :: ps) =
      p.map (fun (name, cards) => (toString first ++ ":" ++ name, cards)) ++ playerEntries (first + 1) ps := rfl

/-- What is added for players stands after what is there. -/
lemma addPlayers_ok {first : Nat} {players : List CardNames} (h : addPlayers refs first players = .ok out) :
    out = refs ++ playerEntries first players := by
  induction players generalizing refs first with
  | nil =>
    cases h
    exact (List.append_nil _).symm
  | cons p ps ih =>
    obtain ⟨refs', hp, hps⟩ := bind_eq_ok.mp h
    rw [ih hps, addAll_ok hp, playerEntries_cons, List.append_assoc]

/-- Stacks of players can be added if no reference is named twice. -/
lemma addPlayers_of_nodup {first : Nat} {players : List CardNames}
    (h : ((refs ++ playerEntries first players).map Prod.fst).Nodup) :
    addPlayers refs first players = .ok (refs ++ playerEntries first players) := by
  induction players generalizing refs first with
  | nil => rw [addPlayers, playerEntries, List.zipIdx_nil, List.flatMap_nil, List.append_nil]
  | cons p ps ih =>
    rw [playerEntries_cons, ← List.append_assoc] at h ⊢
    have hp := addAll_of_nodup (List.Nodup.of_append_left (List.map_append ▸ h))
    rw [addPlayers, hp]
    exact ih h

/-- The references of a start position are all that it names, sorted. -/
lemma references_ok (h : f.references = .ok out) : out = sortByName f.entries := by
  obtain ⟨refs, hplayers, h⟩ := bind_eq_ok.mp h
  rw [entries, ← addPlayers_ok hplayers]
  cases hd : f.deck with
  | none =>
    simp only [hd] at h
    cases h
    rw [Option.toList_none, List.map_nil, List.append_nil]
  | some deck =>
    simp only [hd] at h
    obtain ⟨refs', hdeck, h⟩ := bind_eq_ok.mp h
    cases h
    rw [addAll_ok hdeck]
    rfl

/-- A start position that names no reference twice has references. -/
lemma references_of_nodup (h : (f.entries.map Prod.fst).Nodup) : f.references = .ok (sortByName f.entries) := by
  have hplayers : addPlayers f.piles 1 f.players = .ok (f.piles ++ playerEntries 1 f.players) := by
    rw [entries, List.map_append] at h
    exact addPlayers_of_nodup h.of_append_left
  refine bind_eq_ok.mpr ⟨_, hplayers, ?_⟩
  rw [entries] at h ⊢
  cases hd : f.deck with
  | none =>
    rw [Option.toList_none, List.map_nil, List.append_nil]
    rfl
  | some deck =>
    rw [hd] at h
    exact bind_eq_ok.mpr ⟨_, addAll_of_nodup h, rfl⟩

/-- A start position is laid out if and only if it gives placements that the game accepts. -/
lemma apply_eq_ok_iff {g g' : Game} : f.apply g = .ok g' ↔ ∃ ps, f.Gives ps ∧ g.arrange ps = .ok g' := by
  have hread : ∀ (e : String × List String) (p : Placement), (do
      let cards ← (Card.readAll e.2).mapError (FixtureError.cards e.1)
      .ok ⟨e.1, cards⟩) = Except.ok p ↔ e.1 = p.ref ∧ Card.readAll e.2 = .ok p.cards := by
    intro e p
    simp only [bind_eq_ok, mapError_eq_ok]
    constructor
    · rintro ⟨cards, hcards, hp⟩
      cases hp
      exact ⟨rfl, hcards⟩
    · rintro ⟨href, hcards⟩
      exact ⟨p.cards, hcards, by rw [href]⟩
  have hplacements : ∀ ps, f.placements = .ok ps ↔ ∃ refs, f.references = .ok refs ∧
      List.Forall₂ (fun e p => e.1 = p.ref ∧ Card.readAll e.2 = .ok p.cards) refs ps := by
    intro ps
    rw [placements, bind_eq_ok]
    simp only [mapM_eq_ok_iff, hread]
  rw [apply, bind_eq_ok]
  simp only [mapError_eq_ok, hplacements]
  constructor
  · rintro ⟨ps, ⟨refs, hrefs, hps⟩, harrange⟩
    obtain rfl := references_ok hrefs
    have hnames : (sortByName f.entries).map Prod.fst = ps.map (·.ref) := by
      rw [← List.forall₂_eq_eq_eq, List.forall₂_map_left_iff, List.forall₂_map_right_iff]
      exact hps.imp fun _ _ h => h.1
    have hn : ((sortByName f.entries).map Prod.fst).Nodup := hnames ▸ Game.nodup_of_arrange harrange
    have hperm := sortByName_perm f.entries
    exact ⟨ps, ⟨(hperm.map _).nodup_iff.mp hn, _, hperm, pairwise_sortByName _, hps⟩, harrange⟩
  · rintro ⟨ps, ⟨hn, entries, hperm, hsorted, hps⟩, harrange⟩
    rw [eq_sortByName hn hperm hsorted] at hps
    exact ⟨ps, ⟨_, references_of_nodup hn, hps⟩, harrange⟩

/-- Without a start position the game stays as it is. -/
lemma lays_none_iff {g g' : Game} : Lays none g g' ↔ g = g' := by
  constructor
  · intro h
    cases h
    rfl
  · rintro rfl
    exact .none

/-- With a start position the game is as it leaves it. -/
lemma lays_some_iff {g g' : Game} : Lays (some f) g g' ↔ f.apply g = .ok g' := by
  rw [apply_eq_ok_iff]
  constructor
  · intro h
    cases h with
    | some hgives harrange => exact ⟨_, hgives, harrange⟩
  · rintro ⟨ps, hgives, harrange⟩
    exact .some hgives harrange

end Fixture

section Moves

variable {m : ScriptedMove} {s : Submission}

/-- A scripted move can be made if and only if it stands for a move. -/
lemma ScriptedMove.move_eq_ok_iff {move : Move} : m.move = .ok move ↔ m.StandsFor move := by
  rw [ScriptedMove.move, bind_eq_ok]
  constructor
  · rintro ⟨cards, hcards, h⟩
    obtain ⟨target, htarget, h⟩ := bind_eq_ok.mp h
    cases h
    exact ⟨rfl, rfl, hcards, htarget⟩
  · rintro ⟨hplayer, haction, hcards, htarget⟩
    refine ⟨_, hcards, bind_eq_ok.mpr ⟨_, htarget, ?_⟩⟩
    rw [← hplayer, ← haction]

/-- How a submitted move is noted to end is how it ends. -/
lemma Submission.endsAs_iff {e : MoveEnd} : s.EndsAs e ↔ s.moveEnd.1 = e := by
  unfold Submission.moveEnd
  constructor
  · intro h
    cases h with
    | error hreply => simp only [hreply]
    | rejected hreply hverdict => simp only [hreply, hverdict]
    | committed hreply hverdict => simp only [hreply, hverdict]
  · intro h
    cases hreply : s.reply with
    | error why =>
      simp only [hreply] at h
      exact h ▸ .error hreply
    | ok r =>
      simp only [hreply] at h
      cases hverdict : r.verdict with
      | committed sum =>
        simp only [hverdict] at h
        exact h ▸ .committed hreply hverdict
      | rejected why =>
        simp only [hverdict] at h
        exact h ▸ .rejected hreply hverdict

/-- A scripted move is expected to end in the way that is compared with. -/
lemma ScriptedMove.expects_iff {e : MoveEnd} : m.Expects e ↔ e.name = m.expected := by
  unfold ScriptedMove.Expects ScriptedMove.expected
  by_cases hdefault : m.expect = ""
  · rw [hdefault]
    cases e <;> decide
  · have hgiven : ¬m.expect.isEmpty = true := by simpa using hdefault
    rw [if_neg hgiven, or_iff_left fun h => hdefault h.1, eq_comm]

/-- Nothing is noted about a move if and only if it ends as is expected. -/
lemma ScriptedMove.failures_eq_nil_iff {i : Nat} : m.failures i s = [] ↔ ∃ e, s.EndsAs e ∧ m.Expects e := by
  simp only [Submission.endsAs_iff, expects_iff, exists_eq_left']
  unfold ScriptedMove.failures
  simp

/-- Nothing is noted about moves that are made to the end if and only if every one ends as is expected. -/
lemma playMoves_eq_iff {i : Nat} {ms : List ScriptedMove} {g last : Game} :
    playMoves i ms g = ([], some last) ↔ Plays ms g last := by
  induction ms generalizing i g with
  | nil =>
    constructor
    · intro h
      cases h
      exact .nil
    · intro h
      cases h
      rfl
  | cons m ms ih =>
    rw [playMoves]
    constructor
    · intro h
      cases hmove : m.move with
      | error e =>
        simp only [hmove] at h
        cases h
      | ok move =>
        simp only [hmove, Prod.mk.injEq, List.append_eq_nil_iff] at h
        obtain ⟨⟨hnotes, hrest⟩, hlast⟩ := h
        obtain ⟨e, hends, hexpects⟩ := ScriptedMove.failures_eq_nil_iff.mp hnotes
        exact .cons (ScriptedMove.move_eq_ok_iff.mp hmove) hends hexpects (ih.mp (Prod.ext hrest hlast))
    · intro h
      cases h with
      | cons hstands hends hexpects hplays =>
        have hnotes := (ScriptedMove.failures_eq_nil_iff (i := i)).mpr ⟨_, hends, hexpects⟩
        have hrest := (ih (i := i + 1)).mpr hplays
        simp only [ScriptedMove.move_eq_ok_iff.mpr hstands, hnotes, hrest, List.append_nil]

/-- Moves that are not made to the end leave a note. -/
lemma notes_ne_nil {i : Nat} {ms : List ScriptedMove} {g : Game} (h : (playMoves i ms g).2 = none) :
    (playMoves i ms g).1 ≠ [] := by
  induction ms generalizing i g with
  | nil => cases h
  | cons m ms ih =>
    rw [playMoves] at h ⊢
    cases hmove : m.move with
    | error e => exact List.cons_ne_nil _ _
    | ok move =>
      simp only [hmove] at h ⊢
      exact List.append_ne_nil_of_right_ne_nil _ (ih h)

end Moves

namespace Expectation

variable {e : Expectation} {g : Game} {ref : String}

/-- A reference that names a place shows what lies there. -/
lemma render_eq_ok_iff {cs : Pile} :
    g.render ref = .ok cs ↔ ∃ place, g.table.Refers ref place ∧ g.table.pile place = cs := by
  simp only [Game.render, bind_eq_ok, Table.find_eq_ok_iff, Except.ok.injEq]

/-- Of the cards of the deck the order counts. -/
lemma holds_iff {place : Place} (h : g.table.Refers ref place) {want got : List Card} :
    holds ref want got = true ↔ if place = .deck then got = want else got.Perm want := by
  have hdeck : ref = deckName ↔ place = .deck := by
    constructor
    · rintro rfl
      exact h.eq .deck
    · rintro rfl
      cases h
      rfl
  unfold holds
  by_cases hplace : place = .deck
  · rw [if_pos (hdeck.mpr hplace), if_pos hplace, beq_iff_eq, eq_comm]
  · rw [if_neg fun href => hplace (hdeck.mp href), if_neg hplace, Pile.same_iff_perm]
    exact List.perm_comm

/-- Nothing is noted about a pile if and only if it holds the expected cards. -/
lemma stackFailures_eq_nil_iff {names : List String} :
    stackFailures g ref names = [] ↔ ∃ want place, Card.readAll names = .ok want ∧ g.table.Refers ref place ∧
      (if place = .deck then g.table.pile place = want else (g.table.pile place).Perm want) := by
  unfold stackFailures
  cases hread : Card.readAll names with
  | error why => exact ⟨nofun, fun ⟨_, _, h, _⟩ => nomatch h⟩
  | ok want =>
    cases hrender : g.render ref with
    | error why =>
      refine ⟨nofun, fun ⟨_, place, _, hrefers, _⟩ => ?_⟩
      cases hrender.symm.trans (render_eq_ok_iff.mpr ⟨place, hrefers, rfl⟩)
    | ok got =>
      obtain ⟨place, hrefers, rfl⟩ := render_eq_ok_iff.mp hrender
      constructor
      · intro hnotes
        exact ⟨want, place, rfl, hrefers, (holds_iff hrefers).mp (by simpa using hnotes)⟩
      · rintro ⟨want', place', hwant, hrefers', hholds⟩
        cases hwant
        obtain rfl := hrefers.eq hrefers'
        exact if_pos ((holds_iff hrefers).mpr hholds)

/-- Nothing is noted about a number of cards if and only if it is the expected one. -/
lemma countFailures_eq_nil_iff {n : Int} :
    countFailures g ref n = [] ↔ ∃ place, g.table.Refers ref place ∧ (g.table.pile place).length = n := by
  unfold countFailures
  cases hrender : g.render ref with
  | error why =>
    refine ⟨nofun, fun ⟨place, hrefers, _⟩ => ?_⟩
    cases hrender.symm.trans (render_eq_ok_iff.mpr ⟨place, hrefers, rfl⟩)
  | ok got =>
    obtain ⟨place, hrefers, rfl⟩ := render_eq_ok_iff.mp hrender
    constructor
    · intro hnotes
      exact ⟨place, hrefers, by simpa using hnotes⟩
    · rintro ⟨place', hrefers', hlength⟩
      obtain rfl := hrefers.eq hrefers'
      exact if_pos hlength

/-- Nothing is noted about the player on turn if and only if it is the expected one, or none is expected. -/
lemma playerFailures_eq_nil_iff {want : Int} :
    playerFailures g want = [] ↔ (want ≠ 0 → (g.currentPlayer : Int) = want) := by
  unfold playerFailures
  simp [or_iff_not_imp_left]

/-- Nothing is noted about the end of the game if and only if it has come as expected, or nothing is expected. -/
lemma endFailures_eq_nil_iff {want : Option Bool} : endFailures g want = [] ↔ ∀ b, want = some b → g.isEnded = b := by
  cases want with
  | none => simp [endFailures]
  | some b => simp [endFailures]

/-- Winners that are written alike are the same. -/
lemma winnerFailures_eq_nil_iff {want : Option (List Int)} :
    winnerFailures g want = [] ↔ ∀ ids, want = some ids → g.table.winners.map Int.ofNat = ids := by
  have hwritten : g.table.winners.map toString = (g.table.winners.map Int.ofNat).map toString := by
    rw [List.map_map]
    rfl
  cases want with
  | none => simp [winnerFailures]
  | some ids =>
    simp only [winnerFailures, hwritten, Option.some.injEq, forall_eq']
    constructor
    · intro h
      exact bracketed_inj (by simpa using h)
    · intro h
      rw [h]
      exact if_pos rfl

/-- Nothing is noted about a game if and only if what is expected of it is met. -/
lemma failures_eq_nil_iff : e.failures g = [] ↔ e.Met g := by
  unfold failures
  simp only [List.append_eq_nil_iff, flatMap_sortByName_eq_nil_iff, Prod.forall, stackFailures_eq_nil_iff,
    countFailures_eq_nil_iff, playerFailures_eq_nil_iff, endFailures_eq_nil_iff, winnerFailures_eq_nil_iff]
  constructor
  · rintro ⟨⟨⟨⟨hpiles, hcounts⟩, hplayer⟩, hended⟩, hwinners⟩
    exact ⟨hpiles, hcounts, hplayer, hended, hwinners⟩
  · rintro ⟨hpiles, hcounts, hplayer, hended, hwinners⟩
    exact ⟨⟨⟨⟨hpiles, hcounts⟩, hplayer⟩, hended⟩, hwinners⟩

end Expectation

namespace Scenario

variable {s : Scenario} {p : Program} {o : GameOptions}

/-- A scenario can begin if and only if its game starts and its start position is laid out. -/
lemma begin_eq_ok_iff {g' : Game} :
    s.begin p o = .ok g' ↔ ∃ g es, Game.start s.name p o = .ok (g, es) ∧ Fixture.Lays s.fixture g g' := by
  rw [begin, bind_eq_ok, Prod.exists]
  simp only [mapError_eq_ok]
  cases s.fixture with
  | none => simp only [Fixture.lays_none_iff, Except.ok.injEq]
  | some f => simp only [Fixture.lays_some_iff, mapError_eq_ok]

/-- A scenario that does not pass leaves a note. -/
lemma passed_eq_isEmpty : (s.play p o).passed = (s.play p o).failures.isEmpty := by
  unfold play
  cases s.begin p o with
  | error note => rfl
  | ok g =>
    cases hlast : (playMoves 1 s.moves g).2 with
    | none =>
      simp only [hlast]
      exact (List.isEmpty_eq_false_iff.mpr (notes_ne_nil hlast)).symm
    | some last => simp only [hlast]

/-- Nothing is noted about a scenario if and only if it holds. -/
lemma failures_eq_nil_iff : (s.play p o).failures = [] ↔ s.Holds p o := by
  unfold play
  constructor
  · intro h
    cases hbegin : s.begin p o with
    | error note =>
      simp only [hbegin] at h
      cases h
    | ok g' =>
      obtain ⟨g, es, hstart, hlays⟩ := begin_eq_ok_iff.mp hbegin
      simp only [hbegin] at h
      cases hlast : (playMoves 1 s.moves g').2 with
      | none =>
        simp only [hlast] at h
        exact absurd h (notes_ne_nil hlast)
      | some last =>
        simp only [hlast, List.append_eq_nil_iff] at h
        exact ⟨g, es, g', last, hstart, hlays, playMoves_eq_iff.mp (Prod.ext h.1 hlast),
          Expectation.failures_eq_nil_iff.mp h.2⟩
  · rintro ⟨g, es, g', last, hstart, hlays, hplays, hmet⟩
    have hbegin := begin_eq_ok_iff.mpr ⟨g, es, hstart, hlays⟩
    have hmoves := (playMoves_eq_iff (i := 1)).mpr hplays
    simp only [hbegin, hmoves, Expectation.failures_eq_nil_iff.mpr hmet, List.append_nil]

/-- A scenario passes if and only if it holds, and one that does not pass leaves a note. -/
theorem passed_iff_holds (s : Scenario) (p : Program) (o : GameOptions) :
    ((s.play p o).passed = true ↔ s.Holds p o) ∧
      ((s.play p o).passed = false ↔ (s.play p o).failures ≠ []) := by
  rw [passed_eq_isEmpty, List.isEmpty_eq_false_iff, List.isEmpty_iff]
  exact ⟨failures_eq_nil_iff, Iff.rfl⟩

end Scenario

end Croupier
