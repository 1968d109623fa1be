import Croupier.Proofs.Program.Bare
import Croupier.Proofs.Token.Position

/-!
# Spacing does not matter

The words of a source can be set apart by any gaps, as long as there is one between any two of them (`respaced`). The
tokens keep their kinds and texts (`lexes_respaced`), so that what is read is the same up to positions.
-/

namespace Croupier

namespace Token

/-- A gap, then words with a gap after each. -/
def respaced (gap : List Char) : List (String × List Char) → List Char
  | [] => gap
  | (word, next) :: parts => gap ++ (word.toList ++ respaced next parts)

/-- A gap starts with white space or with the dot of a comment. -/
lemma Gap.head {gap : List Char} (h : Gap gap) : ∀ c ∈ gap.head?, isSpace c = true ∨ c = '.' := by
  intro c hc
  cases h with
  | nil => cases hc
  | space hs _ =>
    cases hc
    exact .inl hs
  | comment _ _ =>
    cases hc
    exact .inr rfl

/-- A gap is a text without tokens. -/
lemma gap_iff {cs : List Char} : Gap cs ↔ ofSource cs = .ok [endAt (Pos.start.afterAll cs)] := by
  rw [ofSource_eq_ok_iff]
  refine ⟨fun h => .stop h, fun h => ?_⟩
  generalize htokens : [endAt (Pos.start.afterAll cs)] = tokens at h
  cases h with
  | stop hg => exact hg
  | @token _ kind gap word _ _ hg hl hm h =>
    -- a lexeme is never an end of input
    obtain rfl : TokenKind.endOfInput = kind := congrArg Token.kind (List.cons.inj htokens).1
    cases hl

/-- A gap in front of what comes next ends a lexeme of any kind. -/
lemma maximal_respaced {gap : List Char} {parts : List (String × List Char)} (kind : TokenKind) (hg : Gap gap)
    (hne : parts ≠ [] → gap ≠ []) : Maximal kind (respaced gap parts) := by
  intro c hc
  apply not_continues
  cases parts with
  | nil => exact hg.head c hc
  | cons part parts =>
    obtain ⟨x, xs, rfl⟩ := List.exists_cons_of_ne_nil (hne nofun)
    exact hg.head c hc

/-- Lexemes that are set apart by gaps are the lexemes of the text. -/
lemma lexes_respaced {front : List Token} {parts : List (String × List Char)} {gap : List Char} (pos : Pos)
    (hfront : ∀ t ∈ front, Lexeme t.kind t.text.toList) (hwords : parts.map (·.1) = front.map (·.text))
    (hg : Gap gap) (hgaps : ∀ part ∈ parts, Gap part.2) (hne : ∀ part ∈ parts.dropLast, part.2 ≠ []) (stop : Pos) :
    ∃ tokens, Lexes pos (respaced gap parts) tokens ∧
      tokens.map Token.bare = (front ++ [endAt stop]).map Token.bare := by
  induction front generalizing parts gap pos with
  | nil =>
    obtain rfl : parts = [] := List.map_eq_nil_iff.mp hwords
    exact ⟨_, .stop hg, rfl⟩
  | cons t front ih =>
    obtain ⟨⟨word, next⟩, parts, rfl, rfl, hrest⟩ := List.map_eq_cons_iff.mp hwords
    obtain ⟨hnext, hgaps⟩ := List.forall_mem_cons.mp hgaps
    obtain ⟨ht, hfront⟩ := List.forall_mem_cons.mp hfront
    have hapart : parts ≠ [] → next ≠ [] := by
      intro hparts
      apply hne (t.text, next)
      rw [List.dropLast_cons_of_ne_nil hparts]
      exact List.mem_cons_self
    have hne' : ∀ part ∈ parts.dropLast, part.2 ≠ [] := by
      intro part hpart
      have hparts : parts ≠ [] := by
        rintro rfl
        cases hpart
      apply hne part
      rw [List.dropLast_cons_of_ne_nil hparts]
      exact List.mem_cons_of_mem _ hpart
    obtain ⟨tokens, hlexes, htokens⟩ := ih (pos.afterAll (gap ++ t.text.toList)) hfront hrest hnext hgaps hne'
    refine ⟨_, .token hg ht (maximal_respaced t.kind hnext hapart) hlexes, ?_⟩
    rw [List.map_cons, htokens, String.ofList_toList]
    rfl

end Token

/-- Tokens that differ in positions only make programs that do, or errors that do. -/
lemma Program.ofTokens_congr {tokens tokens' : List Token} (h : tokens'.map Token.bare = tokens.map Token.bare) :
    (∃ p p', ofTokens tokens = .ok p ∧ ofTokens tokens' = .ok p' ∧ p'.bare = p.bare) ∨
      ∃ e e', ofTokens tokens = .error e ∧ ofTokens tokens' = .error e' ∧ e'.bare = e.bare := by
  have hbare := congrArg ofTokens h
  rw [ofTokens_bare, ofTokens_bare] at hbare
  cases hp : ofTokens tokens with
  | ok p =>
    cases hp' : ofTokens tokens' with
    | ok p' =>
      rw [hp, hp'] at hbare
      exact .inl ⟨p, p', rfl, rfl, Except.ok.inj hbare⟩
    | error e' =>
      rw [hp, hp'] at hbare
      cases hbare
  | error e =>
    cases hp' : ofTokens tokens' with
    | ok p' =>
      rw [hp, hp'] at hbare
      cases hbare
    | error e' =>
      rw [hp, hp'] at hbare
      exact .inr ⟨e, e', rfl, rfl, Except.error.inj hbare⟩

/-- How the words of a source are spaced does not matter: whatever gaps stand between them, before the first and after
the last, the tokens have the same kinds and texts, and reading gives the same program up to positions or the same error
up to positions. -/
theorem spacing_does_not_matter {source : List Char} {tokens : List Token} {before : List Char}
    {parts : List (String × List Char)} (htokens : Token.ofSource source = .ok tokens)
    (hwords : parts.map (·.1) = tokens.dropLast.map (·.text)) (hbefore : Token.Gap before)
    (hgaps : ∀ part ∈ parts, Token.Gap part.2) (hne : ∀ part ∈ parts.dropLast, part.2 ≠ []) :
    (∃ tokens', Token.ofSource (Token.respaced before parts) = .ok tokens' ∧
      tokens'.map (fun t => (t.kind, t.text)) = tokens.map fun t => (t.kind, t.text)) ∧
    ((∃ p p', Program.ofSource source = .ok p ∧ Program.ofSource (Token.respaced before parts) = .ok p' ∧
        p'.bare = p.bare) ∨
      ∃ e e', Program.ofSource source = .error (.parse e) ∧
        Program.ofSource (Token.respaced before parts) = .error (.parse e') ∧ e'.expected = e.expected ∧
        e'.found = e.found ∧ e'.hint.map Hint.bare = e.hint.map Hint.bare) := by
  obtain ⟨front, rfl, hfront⟩ := (Token.ofSource_eq_ok_iff.mp htokens).places
  rw [List.dropLast_concat] at hwords
  obtain ⟨tokens', hlexes, hbare⟩ := Token.lexes_respaced .start (fun t ht => (hfront t ht).1) hwords hbefore hgaps hne
    (Pos.start.afterAll source)
  have htokens' := Token.ofSource_eq_ok_iff.mpr hlexes
  refine ⟨⟨tokens', htokens', ?_⟩, ?_⟩
  · have hkinds := congrArg (List.map fun t : Token => (t.kind, t.text)) hbare
    rwa [List.map_map, List.map_map] at hkinds
  unfold Program.ofSource
  rw [htokens, htokens']
  rcases Program.ofTokens_congr hbare with ⟨p, p', hp, hp', hsame⟩ | ⟨e, e', he, he', hsame⟩
  · refine .inl ⟨p, p', ?_, ?_, hsame⟩
    · exact mapError_eq_ok.mpr hp
    · exact mapError_eq_ok.mpr hp'
  · have hexpected := congrArg ParseError.expected hsame
    have hfound := congrArg ParseError.found hsame
    have hhint := congrArg ParseError.hint hsame
    refine .inr ⟨e, e', ?_, ?_, hexpected, hfound, hhint⟩
    · exact mapError_eq_error.mpr ⟨e, he, rfl⟩
    · exact mapError_eq_error.mpr ⟨e', he', rfl⟩

/-- The rules of a game that draws two cards, on one line. -/
def draw : String := "name draw deck d players 1 stack s def setup() \x7b deck > s 2 check(s) \x7d"

/-- The words of the rules, spaced by comments, line breaks and tabs. -/
def drawApart : List (String × List Char) :=
  [("name", ".(x (y) z)"), ("draw", "\n"), ("deck", "\t \t"), ("d", ".()"), ("players", " .( é ) "), ("1", "\r\n"),
    ("stack", ".( .( ) )"), ("s", "\n\n"), ("def", " "), ("setup", "\n"), ("(", "\n"), (")", "\n"), ("\x7b", " "),
    ("deck", "\n"), (">", ".(to)"), ("s", "\n"), ("2", "\n"), ("check", " "), ("(", " "), ("s", "\n"), (")", " "),
    ("\x7d", "")].map fun part => (part.1, part.2.toList)

/-- The rules on one line and the rules spaced by comments are the same program. -/
theorem draw_spacing_does_not_matter : ∃ p p', Program.ofSource draw.toList = .ok p ∧
    Program.ofSource (Token.respaced [] drawApart) = .ok p' ∧ p'.bare = p.bare := by
  have htokens : (Token.ofSource draw.toList).toOption.map (fun tokens => tokens.dropLast.map (·.text)) =
      some (drawApart.map (·.1)) := by
    rw [draw, String.toList_ofList]
    decide +kernel
  have hgaps : ∀ part ∈ drawApart, Token.Gap part.2 := by
    simp only [Token.gap_iff]
    decide +kernel
  have hparsed : (Program.ofSource draw.toList).isOk = true := by
    rw [draw, String.toList_ofList]
    decide +kernel
  obtain ⟨tokens, htokens, hwords⟩ := Option.map_eq_some_iff.mp htokens
  have hread := spacing_does_not_matter (toOption_eq_some.mp htokens) hwords.symm .nil hgaps (by decide +kernel)
  rcases hread.2 with h | ⟨e, e', he, _⟩
  · exact h
  · rw [he] at hparsed
    cases hparsed

end Croupier
