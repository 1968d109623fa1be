import Croupier.Proofs.Program.Equality
import Croupier.Proofs.Program.Locality
import Croupier.Proofs.Program.Merge
import Croupier.Proofs.Program.WellFormed

/-!
# The order of items does not matter

A program is the sum of its items, which are read on their own whatever follows them: put in another order, they are
read again, and they make the same program up to the order of its stacks and functions (`ofTokens_perm`). Binding does
not look at that order, since it asks for members only.
-/

namespace Croupier

namespace Draft

variable {d d' : Draft} {c : Cursor}

section Items

variable {k c' : Cursor} {ts : List Token} {budget : Nat}

/-- What the tokens of an item declare on their own. -/
def ofItem (ts : List Token) : Draft :=
  match parseItem {} ⟨ts, .start⟩ with
  | .ok (d, _) => d
  | .error _ => {}

/-- The tokens of the items that are read after a draft, item by item. -/
def items : Nat → Draft → Cursor → List (List Token)
  | 0, _, _ => []
  | budget + 1, d, c =>
    if c.atEnd then []
    else match parseItem d c with
      | .ok (d', c') => c.rest.take (c.left - c'.left) :: items budget d' c'
      | .error _ => []

/-- The tokens are an item, whatever follows them. -/
def IsItem (ts : List Token) : Prop := ∀ k : Cursor, k.Fresh → parseItem {} (k.before ts) = .ok (ofItem ts, k)

/-- An item starts with the keyword of a declaration. -/
lemma fresh_of_parseItem {r : Draft × Cursor} (h : parseItem d c = .ok r) : c.Fresh := by
  unfold parseItem at h
  right
  split_ifs at h with hname hdeck hplayers hfirst hstack hdef
  · exact ⟨_, by decide, hname⟩
  · exact ⟨_, by decide, hdeck⟩
  · exact ⟨_, by decide, hplayers⟩
  · exact ⟨_, by decide, hfirst⟩
  · exact ⟨_, by decide, hstack⟩
  · exact ⟨_, by decide, hdef⟩

/-- What is left is at its end or starts with the keyword of a declaration. -/
lemma fresh_of_parseItems (hb : 0 < budget) (h : parseItems budget d c = .ok d') : c.Fresh := by
  obtain ⟨budget, rfl⟩ := Nat.exists_eq_add_one_of_ne_zero (Nat.ne_zero_of_lt hb)
  unfold parseItems at h
  split at h
  · next hend => exact .inl hend
  · obtain ⟨_, hitem, _⟩ := bind_eq_ok.mp h
    exact fresh_of_parseItem hitem

/-- Tokens that are read as an item before something fresh are an item before anything fresh. -/
lemma isItem_of_parseItem (hk : k.Fresh) (h : parseItem {} (k.before ts) = .ok (d, k)) : IsItem ts ∧ ofItem ts = d := by
  have hread : ∀ k' : Cursor, k'.Fresh → parseItem {} (k'.before ts) = .ok (d, k') := fun k' hk' =>
    parseItem_same hk hk' ts d [] h
  have hof : ofItem ts = d := by
    have hstart : parseItem {} ⟨ts, .start⟩ = .ok (d, ⟨[], .start⟩) := by
      simpa [Cursor.before] using hread ⟨[], .start⟩ (.inl rfl)
    unfold ofItem
    rw [hstart]
  refine ⟨?_, hof⟩
  unfold IsItem
  rw [hof]
  exact hread

/-- The tokens that are read are those of the items, which are apart from each other and from what came before. -/
lemma items_of_parseItems {ds : List Draft} (hds : ds.Pairwise Apart) (hb : c.left < budget)
    (h : parseItems budget (gather ds) c = .ok d) :
    (∀ ts ∈ items budget (gather ds) c, IsItem ts) ∧ c.rest = (items budget (gather ds) c).flatten ∧
      (ds ++ (items budget (gather ds) c).map ofItem).Pairwise Apart ∧
      d = gather (ds ++ (items budget (gather ds) c).map ofItem) := by
  induction budget generalizing ds c with
  | zero => cases hb
  | succ budget ih =>
    unfold parseItems at h
    unfold items
    split at h
    · next hend =>
      cases h
      simp only [if_pos hend, List.map_nil, List.append_nil, List.flatten_nil]
      exact ⟨List.forall_mem_nil _, List.isEmpty_iff.mp hend, hds, trivial⟩
    · next hend =>
      obtain ⟨⟨d', c'⟩, hitem, h⟩ := bind_eq_ok.mp h
      obtain ⟨ts, hspan, hts⟩ := parseItem_onward _ _ hitem
      have hlt := parseItem_onward.left_le hitem
      obtain ⟨d₁, hread, hapart, rfl⟩ := (parseItem_adds (gather ds) d' c').mp hitem
      have hfresh := fresh_of_parseItems (by omega) h
      obtain rfl := hspan.eq_before
      obtain ⟨his, rfl⟩ := isItem_of_parseItem hfresh hread
      have htake : (c'.before ts).rest.take ((c'.before ts).left - c'.left) = ts := by
        rw [Cursor.left_before, Nat.add_sub_cancel]
        exact List.take_left
      rw [← gather_concat] at h hitem
      have hds' : (ds ++ [ofItem ts]).Pairwise Apart :=
        List.pairwise_append.mpr ⟨hds, List.pairwise_singleton _ _, fun d' hd' _ hd₁ =>
          List.mem_singleton.mp hd₁ ▸ gather_apart_iff.mp hapart d' hd'⟩
      obtain ⟨hitems, hrest, hpairwise, rfl⟩ := ih hds' (by omega) h
      simp only [List.append_assoc, List.singleton_append] at hpairwise ⊢
      simp only [if_neg hend, hitem, htake, List.map_cons, List.flatten_cons]
      exact ⟨List.forall_mem_cons.mpr ⟨his, hitems⟩, congrArg (ts ++ ·) hrest, hpairwise, trivial⟩

/-- Items in a row start as an item does, or there are none. -/
lemma fresh_of_items {pieces : List (List Token)} (h : ∀ ts ∈ pieces, IsItem ts) (stop : Pos) :
    Cursor.Fresh ⟨pieces.flatten, stop⟩ := by
  induction pieces with
  | nil => exact .inl rfl
  | cons ts pieces ih =>
    obtain ⟨hts, hpieces⟩ := List.forall_mem_cons.mp h
    exact fresh_of_parseItem (hts _ (ih hpieces))

/-- Items that are apart from each other are read in any order. -/
lemma parseItems_of_items {pieces : List (List Token)} {ds : List Draft} {stop : Pos} (h : ∀ ts ∈ pieces, IsItem ts)
    (hapart : (ds ++ pieces.map ofItem).Pairwise Apart) (hb : pieces.flatten.length < budget) :
    parseItems budget (gather ds) ⟨pieces.flatten, stop⟩ = .ok (gather (ds ++ pieces.map ofItem)) := by
  induction pieces generalizing ds budget with
  | nil =>
    obtain ⟨budget, rfl⟩ := Nat.exists_eq_add_one_of_ne_zero (Nat.ne_zero_of_lt hb)
    rw [List.map_nil, List.append_nil]
    rfl
  | cons ts pieces ih =>
    obtain ⟨budget, rfl⟩ := Nat.exists_eq_add_one_of_ne_zero (Nat.ne_zero_of_lt hb)
    obtain ⟨hts, hpieces⟩ := List.forall_mem_cons.mp h
    have hread := hts ⟨pieces.flatten, stop⟩ (fresh_of_items hpieces stop)
    have hlt := parseItem_onward.left_le hread
    rw [Cursor.left_before] at hlt
    have hd : (gather ds).Apart (ofItem ts) := gather_apart_iff.mpr fun d hd =>
      (List.pairwise_append.mp hapart).2.2 d hd _ List.mem_cons_self
    have hitem : parseItem (gather ds) (Cursor.before ⟨pieces.flatten, stop⟩ ts) =
        .ok (gather (ds ++ [ofItem ts]), ⟨pieces.flatten, stop⟩) := by
      rw [gather_concat]
      exact (parseItem_adds _ _ _).mpr ⟨_, hread, hd, rfl⟩
    have hend : (Cursor.before ⟨pieces.flatten, stop⟩ ts).atEnd = false := by
      cases ts with
      | nil => exact absurd hlt (by simp)
      | cons t ts => rfl
    rw [List.map_cons, List.append_cons] at hapart ⊢
    rw [List.flatten_cons, List.length_append] at hb
    show parseItems (budget + 1) (gather ds) (Cursor.before ⟨pieces.flatten, stop⟩ ts) = _
    unfold parseItems
    rw [hend, if_neg Bool.false_ne_true, hitem]
    exact ih hpieces hapart (by omega)

end Items

section Compatible

variable {pieces pieces' : List (List Token)}

/-- Items that declare nothing twice. -/
structure Compatible (pieces : List (List Token)) : Prop where
  isItem : ∀ ts ∈ pieces, IsItem ts
  apart : (pieces.map ofItem).Pairwise Apart

/-- Items that declare nothing twice do so in any order. -/
lemma Compatible.perm (h : Compatible pieces) (hp : pieces'.Perm pieces) : Compatible pieces' where
  isItem ts hts := h.isItem ts (hp.mem_iff.mp hts)
  apart := ((hp.map ofItem).pairwise_iff Apart.symm).mpr h.apart

/-- What has been read is made of items that declare nothing twice. -/
lemma compatible_items (h : parseItems (c.left + 1) {} c = .ok d) :
    Compatible (items (c.left + 1) {} c) ∧ (items (c.left + 1) {} c).flatten = c.rest ∧
      d = gather ((items (c.left + 1) {} c).map ofItem) := by
  have hgather : parseItems (c.left + 1) (gather []) c = .ok d := h
  obtain ⟨hitems, hrest, hapart, hd⟩ := items_of_parseItems .nil (Nat.lt_succ_self _) hgather
  exact ⟨⟨hitems, hapart⟩, hrest.symm, hd⟩

/-- Items that declare nothing twice are read, and what they declare is gathered. -/
lemma Compatible.parseItems (h : Compatible pieces) (hc : c.rest = pieces.flatten) :
    parseItems (c.left + 1) {} c = .ok (gather (pieces.map ofItem)) := by
  obtain ⟨rest, stop⟩ := c
  cases hc
  have hapart : ([] ++ pieces.map ofItem).Pairwise Apart := h.apart
  exact parseItems_of_items h.isItem hapart (Nat.lt_succ_self _)

/-- An item declares one function at most. -/
lemma parseItem_functions {c' : Cursor} (h : parseItem {} c = .ok (d, c')) :
    d.functions.Pairwise fun f g => f.name ≠ g.name := by
  unfold parseItem at h
  split_ifs at h
  · obtain ⟨name, rfl⟩ := parseName_ok h
    exact .nil
  · obtain ⟨deck, rfl⟩ := parseDeck_ok h
    exact .nil
  · obtain ⟨players, rfl⟩ := parsePlayers_ok h
    exact .nil
  · obtain ⟨first, rfl⟩ := parseFirstPlayer_ok h
    exact .nil
  · obtain ⟨name, _, rfl | rfl⟩ := parseStack_ok h
    · exact .nil
    · exact .nil
  · obtain ⟨f, rfl⟩ := parseFunction_ok h
    exact List.pairwise_singleton _ _

/-- Items that declare nothing twice declare functions of different names. -/
lemma Compatible.functionNames_nodup (h : Compatible pieces) :
    ((gather (pieces.map ofItem)).functions.map (·.name)).Nodup := by
  refine List.pairwise_map.mpr (List.pairwise_flatMap.mpr ⟨?_, ?_⟩)
  · intro d hd
    obtain ⟨ts, hts, rfl⟩ := List.mem_map.mp hd
    exact parseItem_functions (h.isItem ts hts ⟨[], .start⟩ (.inl rfl))
  · exact h.apart.imp fun hd => hd.functions

end Compatible

/-- Drafts that are apart from each other make a program in any order, and only its stacks and functions stand in that
order. -/
lemma finish_gather {ds ds' : List Draft} {stop : Pos} {p : Program} (hds : ds.Pairwise Apart) (hp : ds.Perm ds')
    (h : (gather ds).finish stop = .ok p) (stop' : Pos) :
    (gather ds').finish stop' = .ok { p with
      tableStacks := (gather ds').tableStacks
      playerStacks := (gather ds').playerStacks
      functions := (gather ds').functions } := by
  have hname : (gather ds').name = (gather ds).name := findSome?_perm (hds.imp Apart.name) hp
  have hdeck : (gather ds').deck = (gather ds).deck := findSome?_perm (hds.imp Apart.deck) hp
  have hplayers : (gather ds').players = (gather ds).players := findSome?_perm (hds.imp Apart.players) hp
  have hfirst : (gather ds').firstPlayer = (gather ds).firstPlayer := findSome?_perm (hds.imp Apart.firstPlayer) hp
  obtain ⟨_, hn, h⟩ := bind_eq_ok.mp h
  obtain ⟨_, hd, h⟩ := bind_eq_ok.mp h
  obtain ⟨_, hpl, h⟩ := bind_eq_ok.mp h
  obtain ⟨name, hname', rfl⟩ := required_ok hn
  obtain ⟨deck, hdeck', rfl⟩ := required_ok hd
  obtain ⟨players, hplayers', rfl⟩ := required_ok hpl
  simp only at h
  split at h
  · cases h
  · next hle =>
    cases h
    unfold finish
    rw [hname, hdeck, hplayers, hfirst, hname', hdeck', hplayers']
    exact if_neg hle

end Draft

namespace Binding

/-- Whether an expression is bound depends on which names there are, and not on their order. -/
lemma Names.Binds.congr {n n' : Names} {e : Expr} (hs : ∀ name, name ∈ n'.playerStacks ↔ name ∈ n.playerStacks)
    (hf : ∀ name, name ∈ n'.functions ↔ name ∈ n.functions) (h : n.Binds e) : n'.Binds e := by
  cases e with
  | field base key pos =>
    simp only [Names.Binds, hs]
    exact h
  | call fn args pos =>
    simp only [Names.Binds, hf]
    exact h
  | _ => trivial

/-- Binding does not depend on the order of stacks and functions. -/
lemma check_perm {p p' : Program} {u : Unit} (hdeck : p'.deck = p.deck) (hs : p'.playerStacks.Perm p.playerStacks)
    (hf : p'.functions.Perm p.functions) (h : check p = .ok u) : check p' = .ok u := by
  have hstmts : p'.stmts.Perm p.stmts := hf.flatMap_right _
  have hexprs : p'.exprs.Perm p.exprs := by
    unfold Program.exprs
    rw [hdeck]
    exact (hstmts.flatMap_right _).append_left _
  obtain ⟨hbinds, hjoins⟩ := check_eq_ok_iff.mp h
  refine check_eq_ok_iff.mpr ⟨fun e he => ?_, fun s hs => hjoins s (hstmts.mem_iff.mp hs)⟩
  exact (hbinds e (hexprs.mem_iff.mp he)).congr (fun _ => hs.mem_iff) fun _ => (hf.map _).mem_iff

end Binding

namespace Program

variable {p p' : Program} {pieces : List (List Token)}

/-- The tokens of the items of a program, item by item. -/
def items (tokens : List Token) : List (List Token) :=
  Draft.items ((Cursor.ofTokens tokens).left + 1) {} (Cursor.ofTokens tokens)

/-- The stacks and functions of a program are those that the items declare, in the order of the items. -/
structure Lists (p : Program) (pieces : List (List Token)) : Prop where
  tableStacks : p.tableStacks = pieces.flatMap fun ts => (Draft.ofItem ts).tableStacks
  playerStacks : p.playerStacks = pieces.flatMap fun ts => (Draft.ofItem ts).playerStacks
  functions : p.functions = pieces.flatMap fun ts => (Draft.ofItem ts).functions

/-- What the items declare together is what they list. -/
lemma lists_gather (ht : p.tableStacks = (Draft.gather (pieces.map Draft.ofItem)).tableStacks)
    (hp : p.playerStacks = (Draft.gather (pieces.map Draft.ofItem)).playerStacks)
    (hf : p.functions = (Draft.gather (pieces.map Draft.ofItem)).functions) : p.Lists pieces where
  tableStacks := ht.trans (List.flatMap_map _ _ _)
  playerStacks := hp.trans (List.flatMap_map _ _ _)
  functions := hf.trans (List.flatMap_map _ _ _)

/-- The same program, but for the order of its stacks and functions. -/
structure Reordered (p p' : Program) : Prop where
  name : p'.name = p.name
  deck : p'.deck = p.deck
  players : p'.players = p.players
  firstPlayer : p'.firstPlayer = p.firstPlayer
  tableStacks : p'.tableStacks.Perm p.tableStacks
  playerStacks : p'.playerStacks.Perm p.playerStacks
  functions : p'.functions.Perm p.functions
  function? : ∀ name, p'.function? name = p.function? name

/-- A function is found by its name in any order, if the names are distinct. -/
lemma function?_perm (hn : p.functionNames.Nodup) (hf : p'.functions.Perm p.functions) (name : String) :
    p'.function? name = p.function? name := by
  have hn' : p'.functionNames.Nodup := (hf.map _).nodup_iff.mpr hn
  apply Option.ext
  intro f
  rw [function?_eq_some_iff hn', function?_eq_some_iff hn, hf.mem_iff]

/-- A program is read off tokens in three steps: its items are read, they are complete, and its names are bound. -/
lemma ofTokens_eq_ok_iff {tokens : List Token} : ofTokens tokens = .ok p ↔ ∃ d : Draft,
    Draft.parseItems ((Cursor.ofTokens tokens).left + 1) {} (Cursor.ofTokens tokens) = .ok d ∧
      d.finish (Cursor.ofTokens tokens).stop = .ok p ∧ Binding.check p = .ok () := by
  simp only [ofTokens, bind_eq_ok]
  constructor
  · rintro ⟨d, hd, _, hp, _, hcheck, heq⟩
    cases heq
    exact ⟨d, hd, hp, hcheck⟩
  · rintro ⟨d, hd, hp, hcheck⟩
    exact ⟨d, hd, p, hp, (), hcheck, rfl⟩

/-- The order of items does not matter. A program that is read is made of its items, each of which is read on its own,
and the items in any other order make the same program, with its stacks and functions in that order. -/
theorem ofTokens_perm {tokens : List Token} (h : ofTokens tokens = .ok p) :
    (items tokens).flatten = (Cursor.ofTokens tokens).rest ∧
    (∀ ts ∈ items tokens, ∀ stop, Draft.parseItem {} ⟨ts, stop⟩ = .ok (Draft.ofItem ts, ⟨[], stop⟩)) ∧
    p.Lists (items tokens) ∧
    ∀ pieces, pieces.Perm (items tokens) → ∀ tokens', (Cursor.ofTokens tokens').rest = pieces.flatten →
      ∃ p', ofTokens tokens' = .ok p' ∧ p.Reordered p' ∧ p'.Lists pieces := by
  obtain ⟨d, hd, hfinish, hcheck⟩ := ofTokens_eq_ok_iff.mp h
  obtain ⟨hitems, hrest, rfl⟩ := Draft.compatible_items hd
  obtain ⟨_, _, _, _, htable, hplayer, hfunctions⟩ := Draft.finish_ok hfinish
  refine ⟨hrest, fun ts hts stop => ?_, lists_gather htable hplayer hfunctions, fun pieces hp tokens' hrest' => ?_⟩
  · simpa [Cursor.before] using hitems.isItem ts hts ⟨[], stop⟩ (.inl rfl)
  · have hdrafts := hp.map Draft.ofItem
    have hfs : (Draft.gather (pieces.map Draft.ofItem)).functions.Perm p.functions :=
      hfunctions ▸ hdrafts.flatMap_right _
    have hps : (Draft.gather (pieces.map Draft.ofItem)).playerStacks.Perm p.playerStacks :=
      hplayer ▸ hdrafts.flatMap_right _
    have hts : (Draft.gather (pieces.map Draft.ofItem)).tableStacks.Perm p.tableStacks :=
      htable ▸ hdrafts.flatMap_right _
    have hnodup : p.functionNames.Nodup := by
      rw [functionNames, hfunctions]
      exact hitems.functionNames_nodup
    have hdraft := (hitems.perm hp).parseItems hrest'
    have hfinish' := Draft.finish_gather hitems.apart hdrafts.symm hfinish (Cursor.ofTokens tokens').stop
    have hread := ofTokens_eq_ok_iff.mpr ⟨_, hdraft, hfinish', Binding.check_perm (p := p) rfl hps hfs hcheck⟩
    exact ⟨_, hread, ⟨rfl, rfl, rfl, rfl, hts, hps, hfs, function?_perm hnodup hfs⟩, lists_gather rfl rfl rfl⟩

/-- A program that is read backwards, item by item, so that its predicate is defined after it is used. -/
theorem sweep_reversed : ∃ tokens p p', Token.ofSource sweep.toList = .ok tokens ∧ (items tokens).length = 9 ∧
    ofTokens tokens = .ok p ∧ ofTokens (items tokens).reverse.flatten = .ok p' ∧ p.Reordered p' ∧
    p'.functionNames = ["sweep", "low", "setup"] := by
  have hread : (Token.ofSource sweep.toList).toOption.any (fun tokens => (items tokens).length = 9 ∧
      (ofTokens tokens).toOption.isSome ∧
      (Cursor.ofTokens (items tokens).reverse.flatten).rest = (items tokens).reverse.flatten ∧
      ((items tokens).reverse.flatMap fun ts => (Draft.ofItem ts).functions).map (·.name) =
        ["sweep", "low", "setup"]) = true := by
    rw [sweep, String.toList_ofList]
    decide +kernel
  obtain ⟨tokens, htokens, hfacts⟩ := exists_of_any hread
  obtain ⟨hlength, hsome, hrest, hnames⟩ := of_decide_eq_true hfacts
  obtain ⟨p, hp⟩ := isSome_toOption.mp hsome
  obtain ⟨p', hp', hr, hlists⟩ := (ofTokens_perm hp).2.2.2 _ (List.reverse_perm _) _ hrest
  refine ⟨tokens, p, p', htokens, hlength, hp, hp', hr, ?_⟩
  rw [functionNames, hlists.functions]
  exact hnames

end Program

end Croupier
