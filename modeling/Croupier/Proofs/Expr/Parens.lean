import Croupier.Proofs.Expr.Printed
import Croupier.Proofs.Expr.Reading

/-!
# Parentheses around expressions

The tokens from which an expression is derived differ from those of its printed form by parentheses only. So there are
as many other tokens in both, and the parentheses opened in both exceed the closed ones by as many (`Derives.alike`).
Around the tokens of the rule that made the expression there may be pairs of parentheses (`Derives.wraps`); around a
comparison or a negation that stands as an operand there is at least one pair. Two ways to cut some tokens in front of a
token that is no parenthesis are one, if as many tokens are cut off that are none (`cut_unique`).
-/

namespace Croupier

namespace Token

/-- A token that is no parenthesis. -/
def isSolid (t : Token) : Bool := !(t.isPunct "(" || t.isPunct ")")

/-- The number of tokens that are no parentheses. -/
def solids (ts : List Token) : Nat := ts.countP isSolid

/-- How many more parentheses are opened than closed. -/
def depth (ts : List Token) : Int := ts.countP (·.isPunct "(") - ts.countP (·.isPunct ")")

variable {t : Token} {ts us : List Token}

/-- Tokens that are no parentheses are counted part by part. -/
@[simp]
lemma solids_append : solids (ts ++ us) = solids ts + solids us := List.countP_append

/-- One more token counts if it is no parenthesis. -/
lemma solids_cons : solids (t :: ts) = solids ts + if t.isSolid then 1 else 0 := List.countP_cons

/-- The depth of two parts is that of both together. -/
@[simp]
lemma depth_append : depth (ts ++ us) = depth ts + depth us := by
  unfold depth
  rw [List.countP_append, List.countP_append]
  omega

/-- The depth is found token by token. -/
lemma depth_cons (t : Token) (ts : List Token) : depth (t :: ts) = depth [t] + depth ts := by
  rw [← List.singleton_append, depth_append]

/-- Only signs are parentheses. -/
lemma isSolid_of_kind (h : t.kind ≠ .punct) : t.isSolid = true := by
  rw [isSolid, isPunct_of_kind h, isPunct_of_kind h]
  rfl

/-- No keyword is a parenthesis. -/
lemma isSolid_of_isKeyword {word : String} (h : t.isKeyword word = true) : t.isSolid = true := by
  rw [isSolid, isPunct_of_isKeyword h, isPunct_of_isKeyword h]
  rfl

/-- Any other sign is no parenthesis. -/
lemma isSolid_of_isPunct {sign : String} (h : t.isPunct sign = true) (hl : sign ≠ "(") (hr : sign ≠ ")") :
    t.isSolid = true := by
  rw [isSolid, isPunct_ne h hl, isPunct_ne h hr]
  rfl

/-- An opening parenthesis is a parenthesis. -/
lemma isSolid_opens (h : t.isPunct "(" = true) : t.isSolid = false := by
  rw [isSolid, h]
  rfl

/-- A closing parenthesis is a parenthesis. -/
lemma isSolid_closes (h : t.isPunct ")" = true) : t.isSolid = false := by
  rw [isSolid, h, Bool.or_true]
  rfl

/-- What is no parenthesis leaves the depth as it is. -/
lemma depth_solid (h : t.isSolid = true) : depth [t] = 0 := by
  rw [isSolid, Bool.not_eq_true', Bool.or_eq_false_iff] at h
  simp [depth, h.1, h.2]

/-- An opening parenthesis makes the depth greater by one. -/
lemma depth_opens (h : t.isPunct "(" = true) : depth [t] = 1 := by
  simp [depth, h, isPunct_ne h (by decide : "(" ≠ ")")]

/-- A closing parenthesis makes the depth less by one. -/
lemma depth_closes (h : t.isPunct ")" = true) : depth [t] = -1 := by
  simp [depth, h, isPunct_ne h (by decide : ")" ≠ "(")]

/-- Some tokens start with one that is no parenthesis, if there are any. -/
def StartsSolid (ts : List Token) : Prop := ∀ t ∈ ts.head?, t.isSolid = true

/-- What starts with a token that is no parenthesis starts so. -/
lemma startsSolid_cons (h : t.isSolid = true) : StartsSolid (t :: ts) := by
  intro u hu
  cases hu
  exact h

/-- Tokens are cut in one way only in front of a token that is no parenthesis. -/
lemma cut_unique {front front' : List Token} (h : front ++ ts = front' ++ us) (hs : solids front = solids front')
    (hts : StartsSolid ts) (hus : StartsSolid us) : front = front' ∧ ts = us := by
  rcases List.append_eq_append_iff.mp h with ⟨between, rfl, rfl⟩ | ⟨between, rfl, rfl⟩
  · cases between with
    | nil => simp
    | cons t between =>
      have ht : t.isSolid = true := hts t rfl
      rw [solids_append, solids_cons, if_pos ht] at hs
      omega
  · cases between with
    | nil => simp
    | cons t between =>
      have ht : t.isSolid = true := hus t rfl
      rw [solids_append, solids_cons, if_pos ht] at hs
      omega

/-- Two lists of tokens have as many tokens that are no parentheses, and are as deep at their end. -/
structure Alike (ts us : List Token) : Prop where
  solids : solids ts = solids us
  depth : depth ts = depth us

namespace Alike

variable {t t' : Token} {ts ts' us us' : List Token}

/-- Tokens are like themselves. -/
lemma refl (ts : List Token) : Alike ts ts := ⟨rfl, rfl⟩

/-- Likeness goes both ways. -/
lemma symm (h : Alike ts us) : Alike us ts := ⟨h.solids.symm, h.depth.symm⟩

/-- What is put together of like parts is alike. -/
lemma append (h : Alike ts us) (h' : Alike ts' us') : Alike (ts ++ ts') (us ++ us') where
  solids := by rw [solids_append, solids_append, h.solids, h'.solids]
  depth := by rw [depth_append, depth_append, h.depth, h'.depth]

/-- Like tokens in front of like tokens are alike. -/
lemma cons (h : Alike [t] [t']) (h' : Alike ts us) : Alike (t :: ts) (t' :: us) := append h h'

/-- Tokens that are no parentheses are alike. -/
lemma solid (h : t.isSolid = true) (h' : t'.isSolid = true) : Alike [t] [t'] where
  solids := by rw [solids_cons, solids_cons, if_pos h, if_pos h']
  depth := by rw [depth_solid h, depth_solid h']

/-- Opening parentheses are alike. -/
lemma opens (h : t.isPunct "(" = true) (h' : t'.isPunct "(" = true) : Alike [t] [t'] where
  solids := by rw [solids_cons, solids_cons, isSolid_opens h, isSolid_opens h']
  depth := by rw [depth_opens h, depth_opens h']

/-- Closing parentheses are alike. -/
lemma closes (h : t.isPunct ")" = true) (h' : t'.isPunct ")" = true) : Alike [t] [t'] where
  solids := by rw [solids_cons, solids_cons, isSolid_closes h, isSolid_closes h']
  depth := by rw [depth_closes h, depth_closes h']

/-- Parentheses around tokens do not count. -/
lemma parens (hl : t.isPunct "(" = true) (hr : t'.isPunct ")" = true) (h : Alike ts us) :
    Alike (t :: ts ++ [t']) us where
  solids := by
    rw [solids_append, solids_cons, solids_cons, isSolid_opens hl, isSolid_closes hr, h.solids]
    rfl
  depth := by
    rw [depth_append, depth_cons, depth_opens hl, depth_closes hr, h.depth]
    omega

end Alike

end Token

namespace Expr

open Token (Alike word number sign isSolid_of_kind isSolid_of_isKeyword isSolid_of_isPunct)

/-- The tokens of the expressions of a phrase as they are printed. -/
def Phrase.tokens : Phrase → List Token
  | .primary e | .head e | .operand e | .comparison e | .negation e | .conjunction e | .disjunction e => e.tokens
  | .arguments es => argTokens es
  | .furtherArguments es => furtherTokens es

/-- No word is a parenthesis. -/
lemma isSolid_word (s : String) : (word s).isSolid = true := by
  apply isSolid_of_kind
  unfold word
  cases isKeyword s <;> simp

/-- A junction is printed with parentheses around it. -/
lemma alike_join (op : Junction) {t : Token} {ts us : List Token} {left right : Expr} (hl : Alike ts left.tokens)
    (ht : t.isPunct op.sign = true) (hr : Alike us right.tokens) :
    Alike (ts ++ t :: us) (join op left right t.pos).tokens := by
  have hsign : Alike [t] [sign op.sign] := by
    cases op with
    | and => exact .solid (isSolid_of_isPunct ht (by decide) (by decide)) rfl
    | or => exact .solid (isSolid_of_isPunct ht (by decide) (by decide)) rfl
  have hjoin := (hl.append (hsign.cons hr)).symm
  have hprinted : Alike (sign "(" :: (left.tokens ++ sign op.sign :: right.tokens) ++ [sign ")"]) (ts ++ t :: us) :=
    hjoin.parens rfl rfl
  rw [List.cons_append, List.append_assoc] at hprinted
  exact hprinted.symm

/-- What is derived from some tokens is printed with tokens that differ from them by parentheses only. -/
lemma Derives.alike {ts : List Token} {ph : Phrase} (h : Derives ts ph) : Alike ts ph.tokens := by
  induction h with
  | ident hk => exact .solid (isSolid_of_kind (by rw [hk]; decide)) (isSolid_word _)
  | int hk _ _ => exact .solid (isSolid_of_kind (by rw [hk]; decide)) rfl
  | reserved hk _ => exact .solid (isSolid_of_kind (by rw [hk]; decide)) (isSolid_word _)
  | parens hl _ hr ih => exact ih.parens hl hr
  | plain _ ih | bare _ ih | single _ ih | positive _ ih | conjunct _ ih | disjunct _ ih => exact ih
  | call _ _ hl _ hr ihname ihargs =>
    rw [List.append_assoc]
    exact ihname.append ((Alike.opens hl rfl).cons (ihargs.append (.closes hr rfl)))
  | noArguments | lastArgument => exact .refl []
  | arguments _ _ ihe ihs => exact ihe.append ihs
  | furtherArgument ht _ _ ihe ihs =>
    exact (Alike.solid (isSolid_of_isPunct ht (by decide) (by decide)) rfl).cons (ihe.append ihs)
  | field _ ht hk ih =>
    have hcolon := isSolid_of_isPunct ht (by decide) (by decide)
    have hkey := isSolid_of_kind (by rw [hk]; decide)
    exact ih.append ((Alike.solid hcolon rfl).cons (.solid hkey (isSolid_word _)))
  | same _ ht _ ihl ihr => exact ihl.append ((Alike.solid (isSolid_of_isKeyword ht) rfl).cons ihr)
  | differ _ ht hno _ ihl ihr =>
    have his : Alike [_] [word "is"] := .solid (isSolid_of_isKeyword ht) rfl
    exact ihl.append (his.cons ((Alike.solid (isSolid_of_isKeyword hno) rfl).cons ihr))
  | not ht _ ih => exact (Alike.solid (isSolid_of_isKeyword ht) rfl).cons ih
  | and _ ht _ ihl ihr => exact alike_join .and ihl ht ihr
  | or _ ht _ ihl ihr => exact alike_join .or ihl ht ihr

/-- Pairs of parentheses stand around some tokens. -/
def Wrapped (pairs : Nat) (core ts : List Token) : Prop :=
  ∃ opens closes, ts = opens ++ (core ++ closes) ∧ opens.length = pairs ∧ closes.length = pairs ∧
    (∀ t ∈ opens, t.isPunct "(" = true) ∧ ∀ t ∈ closes, t.isPunct ")" = true

/-- The tokens are an expression by the rule of the grammar that makes it. -/
def Made : Expr → List Token → Prop
  | name _ _, ts => ts.length = 1
  | int _ _, ts => ts.length = 1
  | field base _ _, ts => ∃ us t key, ts = us ++ [t, key] ∧ t.isPunct ":" = true ∧ Derives us (.operand base)
  | call fn args pos, ts => ∃ us l vs r, ts = us ++ l :: (vs ++ [r]) ∧ Derives us (.primary (.name fn pos)) ∧
    Derives vs (.arguments args)
  | compare left right false _, ts => ∃ us t vs, ts = us ++ t :: vs ∧ t.isKeyword "is" = true ∧
    Derives us (.operand left) ∧ Derives vs (.operand right)
  | compare left right true _, ts => ∃ us t no vs, ts = us ++ t :: no :: vs ∧ t.isKeyword "is" = true ∧
    Derives us (.operand left) ∧ Derives vs (.operand right)
  | join op left right _, ts => ∃ us t vs, ts = us ++ t :: vs ∧ t.isPunct op.sign = true ∧
    Derives us (.disjunction left) ∧ Derives vs (.disjunction right)
  | not operand _, ts => ∃ t us, ts = t :: us ∧ t.isKeyword "not" = true ∧ Derives us (.disjunction operand)

/-- A comparison or a negation, which is printed without parentheses although it may need them. -/
def isLoose : Expr → Bool
  | compare _ _ _ _ => true
  | not _ _ => true
  | _ => false

/-- How parentheses stand around the tokens of the rule that made an expression. -/
def Phrase.Wraps (ts : List Token) : Phrase → Prop
  | .primary e | .head e | .operand e =>
    ∃ pairs core, Wrapped pairs core ts ∧ e.Made core ∧ (e.isLoose = true → 0 < pairs)
  | .comparison e | .negation e | .conjunction e | .disjunction e => ∃ pairs core, Wrapped pairs core ts ∧ e.Made core
  | .arguments _ | .furtherArguments _ => True

/-- Around tokens there may be no parentheses. -/
lemma Wrapped.none (ts : List Token) : Wrapped 0 ts ts :=
  ⟨[], [], (List.append_nil ts).symm, rfl, rfl, List.forall_mem_nil _, List.forall_mem_nil _⟩

/-- One more pair of parentheses stands around the others. -/
lemma Wrapped.parens {pairs : Nat} {core ts : List Token} {l r : Token} (hl : l.isPunct "(" = true)
    (hr : r.isPunct ")" = true) (h : Wrapped pairs core ts) : Wrapped (pairs + 1) core (l :: ts ++ [r]) := by
  obtain ⟨opens, closes, rfl, hopens, hcloses, ho, hc⟩ := h
  refine ⟨l :: opens, closes ++ [r], by simp, by simp [hopens], by simp [hcloses], ?_, ?_⟩
  · exact List.forall_mem_cons.mpr ⟨hl, ho⟩
  · exact List.forall_mem_append.mpr ⟨hc, List.forall_mem_singleton.mpr hr⟩

/-- The tokens of a phrase are those of the rule that made it, with parentheses around them. -/
lemma Derives.wraps {ts : List Token} {ph : Phrase} (h : Derives ts ph) : ph.Wraps ts := by
  induction h with
  | ident _ | int _ _ _ | reserved _ _ => exact ⟨0, _, .none _, rfl, fun h => Bool.noConfusion h⟩
  | parens hl _ hr ih =>
    obtain ⟨pairs, core, hw, hm⟩ := ih
    exact ⟨pairs + 1, core, hw.parens hl hr, hm, fun _ => Nat.succ_pos pairs⟩
  | plain _ ih | bare _ ih | positive _ ih | conjunct _ ih | disjunct _ ih => exact ih
  | single _ ih =>
    obtain ⟨pairs, core, hw, hm, _⟩ := ih
    exact ⟨pairs, core, hw, hm⟩
  | call hname _ _ hargs _ _ _ =>
    exact ⟨0, _, .none _, ⟨_, _, _, _, List.append_assoc .., hname, hargs⟩, fun h => Bool.noConfusion h⟩
  | noArguments | arguments _ _ _ _ | lastArgument | furtherArgument _ _ _ _ _ => trivial
  | field hbase ht _ _ => exact ⟨0, _, .none _, ⟨_, _, _, rfl, ht, hbase⟩, fun h => Bool.noConfusion h⟩
  | same hl ht hr _ _ => exact ⟨0, _, .none _, _, _, _, rfl, ht, hl, hr⟩
  | differ hl ht _ hr _ _ => exact ⟨0, _, .none _, _, _, _, _, rfl, ht, hl, hr⟩
  | not ht he _ => exact ⟨0, _, .none _, _, _, rfl, ht, .disjunct (.conjunct he)⟩
  | and hl ht hr _ _ => exact ⟨0, _, .none _, _, _, _, rfl, ht, .disjunct hl, .disjunct (.conjunct hr)⟩
  | or hl ht hr _ _ => exact ⟨0, _, .none _, _, _, _, rfl, ht, hl, .disjunct hr⟩

end Expr

end Croupier
