import Croupier.Proofs.Program.Declarations

/-!
# Drafts add up

What an item declares is a draft of its own, and reading the item after others merges it with theirs, if nothing is
declared by both (`parseItem_adds`). Whether that is so does not depend on which of the two comes first
(`Apart.symm`), so it can be said of a list of drafts, pair by pair, and what they declare together is said of the list
(`gather`).
-/

namespace Croupier

namespace Draft

variable {d d' d'' : Draft} {c : Cursor}

/-- Nothing is declared by both drafts. -/
structure Apart (d d' : Draft) : Prop where
  name : d.name = none ∨ d'.name = none
  deck : d.deck = none ∨ d'.deck = none
  players : d.players = none ∨ d'.players = none
  firstPlayer : d.firstPlayer = none ∨ d'.firstPlayer = none
  stackNames : ∀ name ∈ d.tableStacks ++ d.playerStacks, name ∉ d'.tableStacks ++ d'.playerStacks
  functions : ∀ f ∈ d.functions, ∀ g ∈ d'.functions, f.name ≠ g.name

/-- Whether two drafts are apart does not depend on which comes first. -/
lemma Apart.symm (h : d.Apart d') : d'.Apart d where
  name := h.name.symm
  deck := h.deck.symm
  players := h.players.symm
  firstPlayer := h.firstPlayer.symm
  stackNames name hname hname' := h.stackNames name hname' hname
  functions f hf g hg := (h.functions g hg f hf).symm

/-- The declarations of one draft and then those of another. -/
def merge (d d' : Draft) : Draft where
  name := d.name.or d'.name
  deck := d.deck.or d'.deck
  players := d.players.or d'.players
  firstPlayer := d.firstPlayer.or d'.firstPlayer
  tableStacks := d.tableStacks ++ d'.tableStacks
  playerStacks := d.playerStacks ++ d'.playerStacks
  functions := d.functions ++ d'.functions

/-- A draft without declarations is apart from every other. -/
lemma empty_apart (d : Draft) : ({} : Draft).Apart d := ⟨.inl rfl, .inl rfl, .inl rfl, .inl rfl, nofun, nofun⟩

/-- A reader adds what it reads to a draft, if the two are apart, and what it reads does not depend on the draft. -/
def Adds (r : Draft → Except ParseError (Draft × Cursor)) : Prop :=
  ∀ d d' c', r d = .ok (d', c') ↔ ∃ d₁, r {} = .ok (d₁, c') ∧ d.Apart d₁ ∧ d' = d.merge d₁

section Adds

variable {α : Type} {r r' : Draft → Except ParseError (Draft × Cursor)}

/-- A reader that accepts nothing adds what it reads. -/
lemma adds_of_refuses (h : ∀ d b, r d ≠ .ok b) : Adds r := fun _ _ _ =>
  ⟨fun hr => absurd hr (h _ _), fun ⟨_, hr, _⟩ => absurd hr (h _ _)⟩

/-- An error adds nothing. -/
lemma adds_error {e : ParseError} : Adds fun _ => .error e := adds_of_refuses fun _ _ => nofun

/-- Readers that do the same add the same. -/
lemma Adds.congr (h : ∀ d, r d = r' d) (hr : Adds r') : Adds r := funext h ▸ hr

/-- What is read before, without a look at the draft, does not matter. -/
lemma Adds.bind {x : Except ParseError α} {f : Draft → α → Except ParseError (Draft × Cursor)}
    (hf : ∀ a, Adds fun d => f d a) : Adds fun d => x >>= f d := by
  cases x with
  | error e => exact adds_error
  | ok a => exact hf a

/-- A test that does not look at the draft chooses between readers that add what they read. -/
lemma Adds.ite {p : Prop} [Decidable p] (h : p → Adds r) (h' : ¬ p → Adds r') :
    Adds fun d => if p then r d else r' d := by
  by_cases hp : p
  · simp only [if_pos hp]
    exact h hp
  · simp only [if_neg hp]
    exact h' hp

/-- A reader that first makes sure that the draft is apart from what it reads adds that to the draft. -/
lemma adds_guard (g : Draft → Except ParseError Unit) (x : Except ParseError (α × Cursor)) (put : Draft → α → Draft)
    (hg : ∀ a c', x = .ok (a, c') → ∀ d, (g d = .ok () ↔ d.Apart (put {} a)) ∧
      (d.Apart (put {} a) → put d a = d.merge (put {} a))) :
    Adds fun d => g d >>= fun _ => x >>= fun r => .ok (put d r.1, r.2) := by
  have hread : ∀ d d' c', (g d >>= fun _ => x >>= fun r => .ok (put d r.1, r.2)) = .ok (d', c') ↔
      ∃ a, x = .ok (a, c') ∧ d.Apart (put {} a) ∧ d' = put d a := by
    intro d d' c'
    simp only [bind_eq_ok]
    constructor
    · rintro ⟨_, hok, ⟨a, _⟩, hx, h⟩
      cases h
      exact ⟨a, hx, ((hg a _ hx d).1).mp hok, rfl⟩
    · rintro ⟨a, hx, hapart, rfl⟩
      exact ⟨(), ((hg a _ hx d).1).mpr hapart, _, hx, rfl⟩
  intro d d' c'
  rw [hread]
  constructor
  · rintro ⟨a, hx, hapart, rfl⟩
    exact ⟨put {} a, (hread _ _ _).mpr ⟨a, hx, empty_apart _, rfl⟩, hapart, (hg a _ hx d).2 hapart⟩
  · rintro ⟨d₁, h, hapart, rfl⟩
    obtain ⟨a, hx, _, rfl⟩ := (hread _ _ _).mp h
    exact ⟨a, hx, hapart, ((hg a _ hx d).2 hapart).symm⟩

/-- Something may be declared if it has not been declared before. -/
lemma once_eq_ok_iff {key : String} {earlier : Option (Declared α)} {pos : Pos} :
    once key earlier pos = .ok () ↔ earlier = none := by
  cases earlier with
  | none => exact ⟨fun _ => rfl, fun _ => rfl⟩
  | some _ => exact ⟨nofun, nofun⟩

/-- A stack may be declared if no stack has its name. -/
lemma newStack_eq_ok_iff {name : Token} :
    newStack d name = .ok () ↔ name.text ∉ d.tableStacks ++ d.playerStacks := by
  simp [newStack]

/-- What may be declared once is added to a draft without it. -/
lemma adds_once {key : String} {pos : Pos} {x : Except ParseError (α × Cursor)} (field : Draft → Option (Declared α))
    (put : Draft → Declared α → Draft) (hapart : ∀ d a, field d = none ↔ d.Apart (put {} a))
    (hmerge : ∀ d a, field d = none → put d a = d.merge (put {} a)) :
    Adds fun d => once key (field d) pos >>= fun _ => x >>= fun r => .ok (put d ⟨r.1, pos⟩, r.2) :=
  adds_guard (fun d => once key (field d) pos) x (fun d a => put d ⟨a, pos⟩) fun a _ _ d =>
    ⟨once_eq_ok_iff.trans (hapart d ⟨a, pos⟩), fun h => hmerge d ⟨a, pos⟩ ((hapart d ⟨a, pos⟩).mpr h)⟩

end Adds

/-- A draft without a name is apart from one with nothing but a name. -/
lemma apart_name_iff {name : Declared String} : d.name = none ↔ d.Apart { name := some name } where
  mp h := ⟨.inl h, .inr rfl, .inr rfl, .inr rfl, by simp, by simp⟩
  mpr h := h.name.resolve_right (Option.some_ne_none _)

/-- A draft without a deck is apart from one with nothing but a deck. -/
lemma apart_deck_iff {deck : Declared Expr} : d.deck = none ↔ d.Apart { deck := some deck } where
  mp h := ⟨.inr rfl, .inl h, .inr rfl, .inr rfl, by simp, by simp⟩
  mpr h := h.deck.resolve_right (Option.some_ne_none _)

/-- A draft without a number of players is apart from one with nothing but that. -/
lemma apart_players_iff {players : Declared Int} : d.players = none ↔ d.Apart { players := some players } where
  mp h := ⟨.inr rfl, .inr rfl, .inl h, .inr rfl, by simp, by simp⟩
  mpr h := h.players.resolve_right (Option.some_ne_none _)

/-- A draft without a first player is apart from one with nothing but that. -/
lemma apart_firstPlayer_iff {first : Declared Int} : d.firstPlayer = none ↔ d.Apart { firstPlayer := some first } where
  mp h := ⟨.inr rfl, .inr rfl, .inr rfl, .inl h, by simp, by simp⟩
  mpr h := h.firstPlayer.resolve_right (Option.some_ne_none _)

/-- A draft is apart from a new stack on the table if it has no stack of that name. -/
lemma apart_tableStack_iff {name : String} :
    name ∉ d.tableStacks ++ d.playerStacks ↔ d.Apart { tableStacks := [name] } where
  mp h := ⟨.inr rfl, .inr rfl, .inr rfl, .inr rfl, fun _ hmem he => h (List.mem_singleton.mp he ▸ hmem), by simp⟩
  mpr h hmem := h.stackNames name hmem List.mem_cons_self

/-- A draft is apart from a new stack of every player if it has no stack of that name. -/
lemma apart_playerStack_iff {name : String} :
    name ∉ d.tableStacks ++ d.playerStacks ↔ d.Apart { playerStacks := [name] } where
  mp h := ⟨.inr rfl, .inr rfl, .inr rfl, .inr rfl, fun _ hmem he => h (List.mem_singleton.mp he ▸ hmem), by simp⟩
  mpr h hmem := h.stackNames name hmem List.mem_cons_self

/-- A draft is apart from a new function if it has no function of that name. -/
lemma apart_function_iff {f : Function} :
    d.functions.any (·.name = f.name) = false ↔ d.Apart { functions := [f] } := by
  rw [List.any_eq_false]
  constructor
  · intro h
    refine ⟨.inr rfl, .inr rfl, .inr rfl, .inr rfl, by simp, fun g hg f' hf' => ?_⟩
    rw [List.mem_singleton.mp hf']
    simpa using h g hg
  · intro h g hg
    simpa using h.functions g hg f List.mem_cons_self

/-- To read a name adds it. -/
lemma parseName_adds : Adds fun d => parseName d c := by
  have hword : Adds fun d => once "name" d.name c.peek.pos >>= fun _ =>
      (if c.advance.peek.kind = .ident ∨ c.advance.peek.kind = .int then
        .ok (c.advance.peek.text, c.advance.advance) else .error (c.advance.unexpected "game name")) >>= fun r =>
      .ok ({ d with name := some ⟨r.1, c.peek.pos⟩ }, r.2) :=
    adds_once (·.name) (fun d name => { d with name := some name }) (fun _ _ => apart_name_iff)
      fun _ _ h => by simp [merge, h]
  refine hword.congr fun d => ?_
  unfold parseName
  dsimp only
  split <;> rfl

/-- To read a deck adds it. -/
lemma parseDeck_adds : Adds fun d => parseDeck d c :=
  adds_once (·.deck) (fun d deck => { d with deck := some deck }) (fun _ _ => apart_deck_iff)
    fun _ _ h => by simp [merge, h]

/-- To read the number of players adds it. -/
lemma parsePlayers_adds : Adds fun d => parsePlayers d c :=
  adds_once (·.players) (fun d players => { d with players := some players }) (fun _ _ => apart_players_iff)
    fun _ _ h => by simp [merge, h]

/-- To read the first player adds that player. -/
lemma parseFirstPlayer_adds : Adds fun d => parseFirstPlayer d c :=
  adds_once (·.firstPlayer) (fun d first => { d with firstPlayer := some first }) (fun _ _ => apart_firstPlayer_iff)
    fun _ _ h => by simp [merge, h]

/-- To read a stack adds it. -/
lemma parseStack_adds : Adds fun d => parseStack d c := by
  refine .bind fun ⟨name, c⟩ => .ite (fun _ => .ite (fun _ => adds_error) fun _ => ?_) fun _ => ?_
  · refine .bind fun ⟨name, c⟩ => ?_
    by_cases hid : name.text = playerId
    · simp only [if_pos hid]
      refine adds_of_refuses fun d b h => ?_
      obtain ⟨_, _, h⟩ := bind_eq_ok.mp h
      cases h
    · simp only [if_neg hid]
      refine adds_guard (newStack · name) (.ok (name.text, c))
        (fun d name => { d with playerStacks := d.playerStacks ++ [name] }) ?_
      rintro _ _ ⟨⟩ d
      exact ⟨newStack_eq_ok_iff.trans apart_playerStack_iff, fun _ => by simp [merge]⟩
  · refine adds_guard (newStack · name) (.ok (name.text, c))
      (fun d name => { d with tableStacks := d.tableStacks ++ [name] }) ?_
    rintro _ _ ⟨⟩ d
    exact ⟨newStack_eq_ok_iff.trans apart_tableStack_iff, fun _ => by simp [merge]⟩

/-- The parameters and the body of a function after its name. -/
def parseSignature (name : String) (pos : Pos) (c : Cursor) : Except ParseError (Function × Cursor) := do
  let c ← c.punct "("
  let (params, c) ← parseParams (c.left + 1) [] c
  let (body, c) ← Stmt.parseBlock c
  .ok (⟨name, params, body, pos⟩, c)

/-- A function has the name in front of its parameters. -/
lemma name_of_parseSignature {name : String} {pos : Pos} {f : Function} {c' : Cursor}
    (h : parseSignature name pos c = .ok (f, c')) : f.name = name := by
  obtain ⟨_, _, h⟩ := bind_eq_ok.mp h
  obtain ⟨_, _, h⟩ := bind_eq_ok.mp h
  obtain ⟨_, _, h⟩ := bind_eq_ok.mp h
  cases h
  rfl

/-- To read a function adds it. -/
lemma parseFunction_adds : Adds fun d => parseFunction d c := by
  refine .bind fun ⟨name, c₁⟩ => ?_
  refine (adds_guard (fun d => if d.functions.any (·.name = name.text) then
    .error { pos := name.pos, expected := "a new function name", found := name.describe } else .ok ())
    (parseSignature name.text c.peek.pos c₁) (fun d f => { d with functions := d.functions ++ [f] }) ?_).congr ?_
  · intro f c' hf d
    rw [← name_of_parseSignature hf]
    refine ⟨Iff.trans ?_ apart_function_iff, fun _ => by simp [merge]⟩
    split
    · next hany => exact ⟨nofun, fun hno => absurd hany (Bool.eq_false_iff.mp hno)⟩
    · next hany => exact ⟨fun _ => eq_false_of_ne_true hany, fun _ => rfl⟩
  · intro d
    dsimp only
    split
    · rfl
    · simp only [parseSignature, bind_assoc]
      rfl

/-- Reading an item adds what it declares to what has been declared, if nothing is declared twice. -/
lemma parseItem_adds : Adds fun d => parseItem d c := by
  refine .ite (fun _ => parseName_adds) fun _ => ?_
  refine .ite (fun _ => parseDeck_adds) fun _ => ?_
  refine .ite (fun _ => parsePlayers_adds) fun _ => ?_
  refine .ite (fun _ => parseFirstPlayer_adds) fun _ => ?_
  refine .ite (fun _ => parseStack_adds) fun _ => ?_
  exact .ite (fun _ => parseFunction_adds) fun _ => adds_error

section Gather

variable {ds ds' : List Draft}

/-- The declarations of some drafts in their order. -/
def gather (ds : List Draft) : Draft where
  name := ds.findSome? (·.name)
  deck := ds.findSome? (·.deck)
  players := ds.findSome? (·.players)
  firstPlayer := ds.findSome? (·.firstPlayer)
  tableStacks := ds.flatMap (·.tableStacks)
  playerStacks := ds.flatMap (·.playerStacks)
  functions := ds.flatMap (·.functions)

/-- One more draft is merged with those before it. -/
lemma gather_concat (ds : List Draft) (d : Draft) : gather (ds ++ [d]) = (gather ds).merge d := by
  simp [gather, merge, List.findSome?_append]

/-- Nothing is found in a list, or else something holds, if and only if that is so for every member. -/
lemma findSome?_eq_none_or_iff {α β : Type} {f : α → Option β} {l : List α} {p : Prop} :
    l.findSome? f = none ∨ p ↔ ∀ a ∈ l, f a = none ∨ p := by
  by_cases hp : p
  · simp [hp]
  · simp [hp, List.findSome?_eq_none_iff]

/-- The stacks that some drafts declare together are those that one of them declares. -/
lemma mem_stackNames_gather {name : String} : name ∈ (gather ds).tableStacks ++ (gather ds).playerStacks ↔
    ∃ d ∈ ds, name ∈ d.tableStacks ++ d.playerStacks := by
  simp only [gather, List.mem_append, List.mem_flatMap, ← exists_or, ← and_or_left]

/-- Drafts together are apart from another if and only if each of them is. -/
lemma gather_apart_iff : (gather ds).Apart d ↔ ∀ d' ∈ ds, d'.Apart d := by
  constructor
  · intro h d' hd'
    constructor
    case name => exact findSome?_eq_none_or_iff.mp h.name d' hd'
    case deck => exact findSome?_eq_none_or_iff.mp h.deck d' hd'
    case players => exact findSome?_eq_none_or_iff.mp h.players d' hd'
    case firstPlayer => exact findSome?_eq_none_or_iff.mp h.firstPlayer d' hd'
    case stackNames => exact fun name hname => h.stackNames name (mem_stackNames_gather.mpr ⟨d', hd', hname⟩)
    case functions => exact fun f hf => h.functions f (List.mem_flatMap.mpr ⟨d', hd', hf⟩)
  · intro h
    constructor
    case name => exact findSome?_eq_none_or_iff.mpr fun d' hd' => (h d' hd').name
    case deck => exact findSome?_eq_none_or_iff.mpr fun d' hd' => (h d' hd').deck
    case players => exact findSome?_eq_none_or_iff.mpr fun d' hd' => (h d' hd').players
    case firstPlayer => exact findSome?_eq_none_or_iff.mpr fun d' hd' => (h d' hd').firstPlayer
    case stackNames =>
      intro name hname
      obtain ⟨d', hd', hname⟩ := mem_stackNames_gather.mp hname
      exact (h d' hd').stackNames name hname
    case functions =>
      intro f hf
      obtain ⟨d', hd', hf⟩ := List.mem_flatMap.mp hf
      exact (h d' hd').functions f hf

/-- What at most one member of a list has does not depend on the order of the list. -/
lemma findSome?_perm {α β : Type} {f : α → Option β} {l l' : List α}
    (hp : l.Pairwise fun a b => f a = none ∨ f b = none) (h : l.Perm l') : l'.findSome? f = l.findSome? f := by
  induction h with
  | nil => rfl
  | cons a _ ih => rw [List.findSome?_cons, List.findSome?_cons, ih (List.pairwise_cons.mp hp).2]
  | swap a b l =>
    rcases (List.pairwise_cons.mp hp).1 a List.mem_cons_self with hnone | hnone
    · simp [List.findSome?_cons, hnone]
    · simp [List.findSome?_cons, hnone]
  | trans h₁ _ ih₁ ih₂ => exact (ih₂ ((h₁.pairwise_iff Or.symm).mp hp)).trans (ih₁ hp)

end Gather

end Draft

end Croupier
