import Mathlib.Data.Multiset.Basic
import Croupier.Proofs.Card.Name
import Croupier.Proofs.Program.Conservation
import Croupier.Proofs.Program.Spelling
import Croupier.Proofs.Table.Places
import Croupier.Table.Canonical

/-!
# What the canonical text of a table tells

The canonical text tells the player on turn, whether the game has ended, the winners and the deck in order, and for
every stack which cards lie in it (`Table.view`); it tells nothing else (`canonical_eq_iff`). On the one hand sorting
forgets the order of the cards in a stack and of the stacks in a rack (`entries_eq_iff`). On the other hand the text can
be taken apart again: card by card, line by line, and seat by seat (`canonical_inj`).
-/

namespace Croupier

open Text (listed Item Row)

section Order

/-- Strings in ascending order. -/
def ascending (words : List String) : List String := words.mergeSort fun a b => decide (a ≤ b)

/-- Sorting only changes the order. -/
lemma ascending_perm (words : List String) : (ascending words).Perm words := List.mergeSort_perm _ _

/-- Sorted strings stand in ascending order. -/
lemma pairwise_ascending (words : List String) : (ascending words).Pairwise (· ≤ ·) := by
  have h : (ascending words).Pairwise fun a b => decide (a ≤ b) = true := by
    apply List.pairwise_mergeSort
    · intro a b c hab hbc
      exact decide_eq_true (String.le_trans (of_decide_eq_true hab) (of_decide_eq_true hbc))
    · intro a b
      simpa using String.le_total a b
  exact h.imp of_decide_eq_true

/-- Two lists are the same in ascending order if and only if they have the same members as often. -/
lemma ascending_eq_iff {words words' : List String} : ascending words = ascending words' ↔ words.Perm words' := by
  constructor
  · intro h
    have hperm := (ascending_perm words).symm
    rw [h] at hperm
    exact hperm.trans (ascending_perm words')
  · intro h
    refine List.Perm.eq_of_pairwise (fun a b _ _ => String.le_antisymm) (pairwise_ascending _) (pairwise_ascending _) ?_
    exact ((ascending_perm words).trans h).trans (ascending_perm words').symm

/-- What has been kept so far stands in front of what is kept of the rest. -/
lemma eraseReps_loop (a : String) (words kept : List String) :
    List.eraseRepsBy.loop (· == ·) a words kept = kept.reverse ++ (a :: words).eraseReps := by
  induction words generalizing a kept with
  | nil => simp [List.eraseReps, List.eraseRepsBy, List.eraseRepsBy.loop]
  | cons b words ih =>
    rw [List.eraseReps, List.eraseRepsBy, List.eraseRepsBy.loop, List.eraseRepsBy.loop]
    cases a == b with
    | true =>
      simp only
      rw [ih a kept, ih a []]
      rfl
    | false =>
      simp only
      rw [ih b (a :: kept), ih b [a], List.reverse_cons, List.append_assoc]
      rfl

/-- Of two equal neighbours one is kept. -/
lemma eraseReps_cons_cons (a b : String) (words : List String) :
    (a :: b :: words).eraseReps = if a = b then (b :: words).eraseReps else a :: (b :: words).eraseReps := by
  rw [List.eraseReps, List.eraseRepsBy, List.eraseRepsBy.loop]
  split_ifs with h
  · subst h
    simp [eraseReps_loop]
  · have hne : (a == b) = false := by simpa using h
    simp [hne, eraseReps_loop]

/-- No string is lost that does not stand beside its like. -/
lemma mem_eraseReps {x : String} {words : List String} : x ∈ words.eraseReps ↔ x ∈ words := by
  induction words with
  | nil => rfl
  | cons a words ih =>
    cases words with
    | nil => rfl
    | cons b words =>
      rw [eraseReps_cons_cons]
      split_ifs with h
      · rw [ih, h]
        simp
      · rw [List.mem_cons, ih, ← List.mem_cons]

/-- Words in ascending order stay in order, and none is left twice. -/
lemma pairwise_eraseReps {words : List String} (h : words.Pairwise (· ≤ ·)) :
    words.eraseReps.Pairwise fun a b => a ≤ b ∧ a ≠ b := by
  induction words with
  | nil => exact List.Pairwise.nil
  | cons a words ih =>
    cases words with
    | nil => exact List.pairwise_singleton _ a
    | cons b words =>
      obtain ⟨hle, hwords⟩ := List.pairwise_cons.mp h
      rw [eraseReps_cons_cons]
      split_ifs with hab
      · exact ih hwords
      · refine List.pairwise_cons.mpr ⟨?_, ih hwords⟩
        intro x hx
        have hx := mem_eraseReps.mp hx
        refine ⟨hle x hx, ?_⟩
        -- `a` stands before `b`, and `b` before the rest: if `a` comes again it is `b`
        rintro rfl
        rcases List.mem_cons.mp hx with rfl | hx
        · exact hab rfl
        · exact hab (String.le_antisymm (hle b List.mem_cons_self) ((List.pairwise_cons.mp hwords).1 a hx))

end Order

namespace Rack

variable {r r' : Rack}

/-- The cards that lie in each pile, in no order. -/
def contents (r : Rack) (name : String) : Option (Multiset Card) := (r.pile? name).map (↑)

/-- What is written about a rack: the names of the piles, and for each the names of its cards. -/
def entries (r : Rack) : List (String × List String) :=
  r.sortedNames.map fun name => (name, ascending (Card.names ((r.pile? name).getD [])))

/-- The sorted names are the names. -/
lemma mem_sortedNames {name : String} : name ∈ r.sortedNames ↔ name ∈ r.names :=
  mem_eraseReps.trans (ascending_perm r.names).mem_iff

/-- Racks with the same names list them alike, in whatever order they were and however often. -/
lemma sortedNames_eq (h : ∀ name, name ∈ r.names ↔ name ∈ r'.names) : r.sortedNames = r'.sortedNames := by
  have hr := pairwise_eraseReps (pairwise_ascending r.names)
  have hr' := pairwise_eraseReps (pairwise_ascending r'.names)
  refine List.Perm.eq_of_pairwise (fun a b _ _ => String.le_antisymm) (hr.imp And.left) (hr'.imp And.left) ?_
  apply (List.perm_ext_iff_of_nodup (hr.imp And.right) (hr'.imp And.right)).mpr
  intro name
  exact mem_sortedNames.trans ((h name).trans mem_sortedNames.symm)

/-- There are contents under the names of a rack, and under no other. -/
lemma contents_isSome {name : String} : (r.contents name).isSome ↔ name ∈ r.names := by
  rw [contents, Option.isSome_map, pile?_isSome]

/-- The order of the cards in a pile does not count. -/
lemma contents_cons_perm {name : String} {p q : Pile} (h : p.Perm q) (r : Rack) :
    Rack.contents ((name, p) :: r) = Rack.contents ((name, q) :: r) := by
  funext other
  simp only [contents, pile?, List.lookup_cons]
  cases other == name with
  | true => exact congrArg some (Multiset.coe_eq_coe.mpr h)
  | false => rfl

/-- Of a pile that is there the contents are written, and nothing else. -/
lemma contents_eq_iff {name : String} (hr : name ∈ r.names) (hr' : name ∈ r'.names) :
    r.contents name = r'.contents name ↔ ascending (Card.names ((r.pile? name).getD [])) =
      ascending (Card.names ((r'.pile? name).getD [])) := by
  obtain ⟨p, hp⟩ := Option.isSome_iff_exists.mp (pile?_isSome.mpr hr)
  obtain ⟨p', hp'⟩ := Option.isSome_iff_exists.mp (pile?_isSome.mpr hr')
  rw [ascending_eq_iff, contents, contents, hp, hp', Option.map_some, Option.map_some, Option.some_inj]
  exact Multiset.coe_eq_coe.trans (List.map_perm_map_iff Card.name_injective).symm

/-- The same is written about two racks if and only if they have the same piles with the same cards in them. -/
lemma entries_eq_iff : r.entries = r'.entries ↔ r.contents = r'.contents := by
  constructor
  · intro h
    have hnames : r.sortedNames = r'.sortedNames := by
      simpa [entries, Function.comp_def] using congrArg (List.map (·.1)) h
    funext name
    by_cases hr : name ∈ r.names
    · have hsorted := mem_sortedNames.mpr hr
      have hr' : name ∈ r'.names := by
        rw [← mem_sortedNames, ← hnames]
        exact hsorted
      rw [entries, entries, ← hnames] at h
      exact (contents_eq_iff hr hr').mpr (congrArg Prod.snd (List.map_inj_left.mp h name hsorted))
    · have hr' : name ∉ r'.names := by
        rw [← mem_sortedNames, ← hnames, mem_sortedNames]
        exact hr
      rw [← contents_isSome, Bool.not_eq_true, Option.isSome_eq_false_iff, Option.isNone_iff_eq_none] at hr hr'
      rw [hr, hr']
  · intro h
    have hmem (name : String) : name ∈ r.names ↔ name ∈ r'.names := by rw [← contents_isSome, ← contents_isSome, h]
    rw [entries, entries, sortedNames_eq hmem]
    apply List.map_congr_left
    intro name hname
    have hr' := mem_sortedNames.mp hname
    exact congrArg (Prod.mk name) ((contents_eq_iff ((hmem name).mpr hr') hr').mp (congrFun h name))

/-- What is written about a pile can be told from its line. -/
structure Legible (entry : String × List String) : Prop where
  name : '|' ∉ entry.1.toList
  cards : ∀ card ∈ entry.2, Item ',' card ∧ '\n' ∉ card.toList

/-- The line of a pile. -/
def line (indent : String) (entry : String × List String) : List Char :=
  indent.toList ++ "STACK:".toList ++ (entry.1.toList ++ '|' :: (listed ',' entry.2 ++ ['\n']))

/-- Names without a bar and the names of cards can be told from their line. -/
lemma legible_of_mem {entry : String × List String} (hr : ∀ name ∈ r.names, '|' ∉ name.toList)
    (h : entry ∈ r.entries) : Legible entry := by
  obtain ⟨name, hname, rfl⟩ := List.mem_map.mp h
  refine ⟨hr name (mem_sortedNames.mp hname), ?_⟩
  intro card hcard
  obtain ⟨c, _, rfl⟩ := List.mem_map.mp ((ascending_perm _).mem_iff.mp hcard)
  exact ⟨⟨c.name_ne_empty, Card.notMem_name rfl (by decide) c⟩, Card.notMem_name rfl (by decide) c⟩

/-- What is written about a rack is one line for each pile. -/
lemma toList_canonical (r : Rack) (indent : String) :
    (r.canonical indent).toList = r.entries.flatMap (line indent) := by
  rw [canonical, String.toList_join, List.flatMap_map, entries, List.flatMap_map]
  refine List.flatMap_congr fun name _ => ?_
  simp [line, sortedCards, listed, ascending, String.toList_intercalate]

/-- Lines of piles stand in a row. -/
lemma row_line {indent : String} {first : Char} (h : (indent.toList ++ "STACK:".toList).head? = some first) :
    Row (line indent) first Legible fun _ => True where
  head entry := by
    rw [line, List.head?_append, h]
    rfl
  next _ _ := trivial
  inj := by
    rintro ⟨name, cards⟩ ⟨name', cards'⟩ rest rest' hl hl' _ _ h
    simp only [line, List.append_assoc, List.cons_append, List.append_cancel_left_eq] at h
    obtain ⟨hname, h⟩ := Text.cut_inj hl.name hl'.name h
    have hend {cards : List String} (hc : ∀ card ∈ cards, Item ',' card ∧ '\n' ∉ card.toList) :
        '\n' ∉ listed ',' cards := Text.notMem_listed (by decide) fun card hcard => (hc card hcard).2
    obtain ⟨hcards, hrest⟩ := Text.cut_inj (hend hl.cards) (hend hl'.cards) h
    have hsame := Text.listed_inj (fun card hc => (hl.cards card hc).1) (fun card hc => (hl'.cards card hc).1) hcards
    exact ⟨Prod.ext (String.toList_injective hname) hsame, hrest⟩

end Rack

/-- What the canonical text of a table tells. A player has no number but their place at the table, counted from one: the
numbers are told with the seats, and they cannot differ without them. -/
structure View where
  current : Nat
  ended : Bool
  winners : List Nat
  deck : List Card
  shared : String → Option (Multiset Card)
  /-- The players by their numbers, and for each the cards in every stack. -/
  seats : List (Nat × (String → Option (Multiset Card)))

namespace Table

variable {t t' : Table}

/-- The players by their numbers, with something of each. -/
def numbered {α : Type} (t : Table) (f : Rack → α) : List (Nat × α) :=
  t.seats.zipIdx.map fun seat => (seat.2 + 1, f seat.1)

/-- The table as it shows in its canonical text. -/
def view (t : Table) : View where
  current := t.current
  ended := t.ended
  winners := t.winners
  deck := t.deck
  shared := t.shared.contents
  seats := t.numbered Rack.contents

/-- The names of all stacks. -/
def stackNames (t : Table) : List String := t.shared.names ++ t.seats.flatMap Rack.names

/-- No name of a stack holds a bar. -/
def Barless (t : Table) : Prop := ∀ name ∈ t.stackNames, '|' ∉ name.toList

/-- What is written about a player. -/
def block (seat : Nat × List (String × List String)) : List Char :=
  "PLAYER:".toList ++ (seat.1.repr.toList ++ '\n' :: seat.2.flatMap (Rack.line "  "))

/-- The canonical text, with each of its parts where it stands. -/
lemma toList_canonical (t : Table) : t.canonical.toList =
    "GAME:".toList ++ (t.current.repr.toList ++ '|' :: ((toString t.ended).toList ++ '|' :: '[' ::
      (listed ' ' (t.winners.map Nat.repr) ++ ']' :: '\n' :: ("DECK:".toList ++
        (listed ',' (Card.names t.deck) ++ '\n' :: (t.shared.entries.flatMap (Rack.line "") ++
          ((t.numbered Rack.entries).flatMap block ++ []))))))) := by
  have hwinners : (Text.bracketed (t.winners.map toString)).toList =
      '[' :: (listed ' ' (t.winners.map Nat.repr) ++ [']']) := by
    simp [Text.bracketed, listed, String.toList_intercalate, Nat.toString_eq_repr, Function.comp_def]
  have hdeck : (",".intercalate (Card.names t.deck)).toList = listed ',' (Card.names t.deck) := by
    simp [listed, String.toList_intercalate]
  have hseats : (t.seats.zipIdx.map fun seat => "PLAYER:" ++ (seat.2 + 1).repr ++ "\n" ++ seat.1.canonical "  ").flatMap
      String.toList = (t.numbered Rack.entries).flatMap block := by
    rw [List.flatMap_map, numbered, List.flatMap_map]
    refine List.flatMap_congr fun seat _ => ?_
    unfold block
    simp [Rack.toList_canonical]
  have hbar : "|".toList = ['|'] := rfl
  have hline : "\n".toList = ['\n'] := rfl
  simp only [canonical, String.toList_append, hwinners, hdeck, Rack.toList_canonical, String.toList_join,
    Nat.toString_eq_repr, hbar, hline, hseats, List.append_assoc, List.cons_append, List.nil_append, List.append_nil]

/-- What is written about the players stands in a row, if no line of a stack comes after it. -/
lemma row_block : Row block 'P' (fun seat => ∀ entry ∈ seat.2, Rack.Legible entry) (·.head? ≠ some ' ') where
  head seat := by
    unfold block
    rw [List.head?_append]
    rfl
  next cs h := by
    rw [h]
    decide
  inj := by
    rintro ⟨i, entries⟩ ⟨i', entries'⟩ rest rest' hl hl' hrest hrest' h
    unfold block at h
    simp only [List.append_assoc, List.cons_append, List.append_cancel_left_eq] at h
    have hline (n : Nat) : '\n' ∉ n.repr.toList := Numeral.notMem_repr rfl n
    obtain ⟨hi, h⟩ := Text.cut_inj (hline i) (hline i') h
    obtain ⟨rfl, hrests⟩ := (Rack.row_line rfl).items_inj hl hl' trivial trivial hrest hrest' h
    rw [Numeral.repr_inj (String.toList_injective hi)]
    exact ⟨rfl, hrests⟩

/-- The numbers of winners stand between blanks and do not close the bracket. -/
lemma winners_items (t : Table) : ∀ word ∈ t.winners.map Nat.repr, Item ' ' word ∧ ']' ∉ word.toList := by
  refine List.forall_mem_map.mpr fun n _ => ?_
  exact ⟨⟨Nat.repr_ne_empty, Numeral.notMem_repr rfl n⟩, Numeral.notMem_repr rfl n⟩

/-- The cards of the deck stand between commas on one line. -/
lemma deck_items (t : Table) : ∀ word ∈ Card.names t.deck, Item ',' word ∧ '\n' ∉ word.toList := by
  refine List.forall_mem_map.mpr fun c _ => ?_
  exact ⟨⟨c.name_ne_empty, Card.notMem_name rfl (by decide) c⟩, Card.notMem_name rfl (by decide) c⟩

/-- The lines of the shared stacks can be told apart. -/
lemma Barless.shared (ht : t.Barless) : ∀ entry ∈ t.shared.entries, Rack.Legible entry :=
  fun _ => Rack.legible_of_mem fun name hname => ht name (List.mem_append_left _ hname)

/-- The lines of the stacks at every seat can be told apart. -/
lemma Barless.seats (ht : t.Barless) :
    ∀ seat ∈ t.numbered Rack.entries, ∀ entry ∈ seat.2, Rack.Legible entry := by
  refine List.forall_mem_map.mpr fun seat hseat entry hentry => ?_
  have hrack : seat.1 ∈ t.seats := List.fst_mem_of_mem_zipIdx hseat
  refine Rack.legible_of_mem (fun name hname => ?_) hentry
  exact ht name (List.mem_append_right _ (List.mem_flatMap.mpr ⟨seat.1, hrack, hname⟩))

/-- What is written about a table can be told from its canonical text. -/
lemma canonical_inj (ht : t.Barless) (ht' : t'.Barless) (h : t.canonical = t'.canonical) :
    t.current = t'.current ∧ t.ended = t'.ended ∧ t.winners = t'.winners ∧ t.deck = t'.deck ∧
      t.shared.entries = t'.shared.entries ∧ t.numbered Rack.entries = t'.numbered Rack.entries := by
  have htext := congrArg String.toList h
  rw [toList_canonical, toList_canonical, List.append_cancel_left_eq] at htext
  have hbar (n : Nat) : '|' ∉ n.repr.toList := Numeral.notMem_repr rfl n
  obtain ⟨hcurrent, htext⟩ := Text.cut_inj (hbar t.current) (hbar t'.current) htext
  have hbar' : ∀ b : Bool, '|' ∉ (toString b).toList := by decide
  obtain ⟨hended, htext⟩ := Text.cut_inj (hbar' t.ended) (hbar' t'.ended) htext
  have hclose (t : Table) : ']' ∉ listed ' ' (t.winners.map Nat.repr) :=
    Text.notMem_listed (by decide) fun word hword => (t.winners_items word hword).2
  obtain ⟨hwinners, htext⟩ := Text.cut_inj (hclose t) (hclose t') (List.cons.inj htext).2
  rw [List.cons_inj_right, List.append_cancel_left_eq] at htext
  have hline (t : Table) : '\n' ∉ listed ',' (Card.names t.deck) :=
    Text.notMem_listed (by decide) fun word hword => (t.deck_items word hword).2
  obtain ⟨hdeck, htext⟩ := Text.cut_inj (hline t) (hline t') htext
  have hnil (c : Char) : ([] : List Char).head? ≠ some c := (Option.some_ne_none c).symm
  have hplayers (t : Table) : ((t.numbered Rack.entries).flatMap block ++ []).head? ≠ some 'S' :=
    row_block.head?_ne _ (by decide) (hnil 'S')
  obtain ⟨hentries, htext⟩ := (Rack.row_line rfl).items_inj ht.shared ht'.shared trivial trivial (hplayers t)
    (hplayers t') htext
  obtain ⟨hseats, _⟩ := row_block.items_inj ht.seats ht'.seats (hnil ' ') (hnil ' ') (hnil 'P') (hnil 'P') htext
  have hrepr : Function.Injective Nat.repr := fun _ _ => Numeral.repr_inj
  refine ⟨hrepr (String.toList_injective hcurrent), ?_, ?_, ?_, hentries, hseats⟩
  · exact (by decide : ∀ b b' : Bool, (toString b).toList = (toString b').toList → b = b') _ _ hended
  · apply List.map_injective_iff.mpr hrepr
    exact Text.listed_inj (fun w hw => (t.winners_items w hw).1) (fun w hw => (t'.winners_items w hw).1) hwinners
  · apply List.map_injective_iff.mpr Card.name_injective
    exact Text.listed_inj (fun w hw => (t.deck_items w hw).1) (fun w hw => (t'.deck_items w hw).1) hdeck

/-- The players show the same in two ways, if one player does. -/
lemma numbered_eq_iff {α β : Type} {f : Rack → α} {g : Rack → β} (hfg : ∀ r r', f r = f r' ↔ g r = g r') :
    t.numbered f = t'.numbered f ↔ t.numbered g = t'.numbered g := by
  unfold numbered
  generalize t.seats.zipIdx = seats
  generalize t'.seats.zipIdx = seats'
  induction seats generalizing seats' with
  | nil => simp
  | cons seat seats ih =>
    cases seats' with
    | nil => simp
    | cons seat' seats' => simp only [List.map_cons, List.cons.injEq, Prod.mk.injEq, hfg, ih]

/-- Two tables have the same canonical text if and only if they show the same. -/
lemma canonical_eq_iff_view (ht : t.Barless) (ht' : t'.Barless) : t.canonical = t'.canonical ↔ t.view = t'.view := by
  have hentries := @numbered_eq_iff t t' _ _ Rack.entries Rack.contents fun _ _ => Rack.entries_eq_iff
  rw [view, view, View.mk.injEq, ← hentries, ← Rack.entries_eq_iff]
  constructor
  · exact canonical_inj ht ht'
  · rintro ⟨hcurrent, hended, hwinners, hdeck, hshared, hseats⟩
    apply String.toList_injective
    rw [toList_canonical, toList_canonical, hcurrent, hended, hwinners, hdeck, hshared, hseats]

/-- The names of the stacks are those that the program declares, so they are words. -/
lemma word_of_mem_stackNames {source : List Char} {p : Program} (hp : Program.ofSource source = .ok p)
    (ht : p.LaysOut t) {name : String} (h : name ∈ t.stackNames) : Token.Lexeme .ident name.toList := by
  apply (Program.spelled_of_source hp).1
  rcases List.mem_append.mp h with h | h
  · rw [ht.shared] at h
    exact List.mem_append_left _ h
  · obtain ⟨rack, hrack, hname⟩ := List.mem_flatMap.mp h
    have hnames : Rack.names rack ∈ List.replicate p.players.toNat p.playerStacks := by
      rw [← ht.seats]
      exact List.mem_map_of_mem hrack
    rw [List.eq_of_mem_replicate hnames] at hname
    exact List.mem_append_right _ hname

/-- A character that may not be in a word is not in one. -/
lemma notMem_word {c : Char} (hstart : Token.isWordStart c = false) (hc : Token.isWordChar c = false)
    {cs : List Char} (h : Token.Lexeme .ident cs) : c ∉ cs := by
  cases h with
  | ident hfirst hrest _ =>
    intro hmem
    rcases List.mem_cons.mp hmem with rfl | hmem
    · rw [hfirst] at hstart
      exact Bool.noConfusion hstart
    · rw [hrest c hmem] at hc
      exact Bool.noConfusion hc

/-- If no name of a stack holds a bar, two tables have the same canonical bytes if and only if they show the same: the
player on turn, the end, the winners and the deck in order, and which cards lie in which stack. A line end in a name
does no harm; but in the programs that can be read the names hold neither. -/
theorem canonical_eq_iff :
    (∀ {t t' : Table}, t.Barless → t'.Barless → (t.canonical.toUTF8 = t'.canonical.toUTF8 ↔ t.view = t'.view)) ∧
    ∀ {source : List Char} {p : Program} {t : Table}, Program.ofSource source = .ok p → p.LaysOut t →
      ∀ name ∈ t.stackNames, '|' ∉ name.toList ∧ '\n' ∉ name.toList := by
  constructor
  · intro t t' ht ht'
    rw [← canonical_eq_iff_view ht ht']
    exact String.toByteArray_inj
  · intro source p t hp ht name hname
    have hword := word_of_mem_stackNames hp ht hname
    exact ⟨notMem_word rfl rfl hword, notMem_word rfl rfl hword⟩

/-- A program with a stack on the table and one for every player. -/
def cellar : String := "name cellar deck StandardDeck players 2 stack pile stack player:hand"

/-- Turning piles over, or drawing another random number, does not show; turning the deck over does. -/
theorem cellar_canonical :
    let five := Card.ofCodes 5 1
    let odd := Card.ofCodes 99 7
    let t : Table := ⟨[five, odd], [("pile", [odd, five, odd])], [[("hand", [five, odd])], [("hand", [])]], 1, [2, 1],
      true, false, 7, .ofSeeds 1 1⟩
    let t' : Table := { t with
      shared := [("pile", [odd, odd, five])], seats := [[("hand", [odd, five])], [("hand", [])]],
      passed := true, initial := 52, generator := .ofSeeds 2 2 }
    let u : Table := { t with deck := [odd, five] }
    ∃ p, Program.ofSource cellar.toList = .ok p ∧ p.LaysOut t ∧ p.LaysOut t' ∧ p.LaysOut u ∧
      t.canonical.toUTF8 = t'.canonical.toUTF8 ∧ t.canonical.toUTF8 ≠ u.canonical.toUTF8 := by
  intro five odd t t' u
  have h : (Program.ofSource cellar.toList).toOption.any (fun p => p.tableStacks = ["pile"] ∧
      p.playerStacks = ["hand"] ∧ p.players = 2) = true := by
    rw [cellar, String.toList_ofList]
    decide +kernel
  obtain ⟨p, hp, h⟩ := exists_of_any h
  obtain ⟨htable, hplayer, hplayers⟩ := of_decide_eq_true h
  have hlaid (s : Table) (hs : s.shared.names = ["pile"]) (hs' : s.seats.map Rack.names = [["hand"], ["hand"]]) :
      p.LaysOut s := by
    refine ⟨hs.trans htable.symm, ?_⟩
    rw [hs', hplayer, hplayers]
    rfl
  have ht : p.LaysOut t := hlaid t rfl rfl
  have ht' : p.LaysOut t' := hlaid t' rfl rfl
  have hu : p.LaysOut u := hlaid u rfl rfl
  have hbar {s : Table} (hs : p.LaysOut s) : s.Barless :=
    fun name hname => (canonical_eq_iff.2 hp hs name hname).1
  refine ⟨p, hp, ht, ht', hu, ?_, ?_⟩
  · apply (canonical_eq_iff.1 (hbar ht) (hbar ht')).mpr
    have hshared : t.shared.contents = t'.shared.contents := Rack.contents_cons_perm (by decide) []
    have hhand : Rack.contents [("hand", [five, odd])] = Rack.contents [("hand", [odd, five])] :=
      Rack.contents_cons_perm (by decide) []
    rw [view, view, View.mk.injEq]
    refine ⟨rfl, rfl, rfl, rfl, hshared, ?_⟩
    exact congrArg (fun first => [(1, first), (2, Rack.contents [("hand", [])])]) hhand
  · intro hsame
    have hview := (canonical_eq_iff.1 (hbar ht) (hbar hu)).mp hsame
    exact absurd (congrArg View.deck hview) (by decide)

end Table

end Croupier
