import Mathlib.Data.List.Basic

/-!
# Texts in parts

When can the parts of a text be told from the text? A part that ends at a separator can, if the separator is not in it
(`cut_inj`). A list of words with separators between them can, if no word is empty or holds the separator
(`listed_inj`). And a row of parts with something after them can, if every part can be told from a text that starts with
it, and what comes after the row does not start as a part does (`Row.items_inj`).
-/

namespace Croupier.Text

variable {sep : Char}

/-- Two texts that are the same up to their ends have the same part before the first separator. -/
lemma cut_inj {word word' rest rest' : List Char} (hw : sep ∉ word) (hw' : sep ∉ word')
    (h : word ++ sep :: rest = word' ++ sep :: rest') : word = word' ∧ rest = rest' := by
  induction word generalizing word' with
  | nil =>
    cases word' with
    | nil => exact ⟨rfl, (List.cons.inj h).2⟩
    | cons c word' => exact absurd (List.cons.inj h).1 (List.ne_of_not_mem_cons hw')
  | cons c word ih =>
    cases word' with
    | nil => exact absurd (List.cons.inj h).1.symm (List.ne_of_not_mem_cons hw)
    | cons c' word' =>
      obtain ⟨rfl, htail⟩ := List.cons.inj h
      obtain ⟨rfl, hrest⟩ := ih (List.not_mem_of_not_mem_cons hw) (List.not_mem_of_not_mem_cons hw') htail
      exact ⟨rfl, hrest⟩

/-- A word that can be an item of a list with separators. -/
structure Item (sep : Char) (word : String) : Prop where
  ne_empty : word ≠ ""
  notMem : sep ∉ word.toList

/-- The items of a list with separators between them. -/
def listed (sep : Char) (words : List String) : List Char := [sep].intercalate (words.map String.toList)

/-- Before the last item every item of a list is followed by a separator. -/
lemma listed_cons_cons (word word' : String) (words : List String) :
    listed sep (word :: word' :: words) = word.toList ++ sep :: listed sep (word' :: words) := by
  simp [listed, List.intercalate_cons_cons]

/-- A list of one item has no separator. -/
lemma listed_singleton (word : String) : listed sep [word] = word.toList := by
  simp [listed]

/-- A list is not empty if its first item is not. -/
lemma listed_ne_nil {word : String} {words : List String} (h : word ≠ "") : listed sep (word :: words) ≠ [] := by
  cases words with
  | nil =>
    rw [listed_singleton]
    simpa using h
  | cons word' words =>
    rw [listed_cons_cons]
    exact List.append_ne_nil_of_right_ne_nil _ (List.cons_ne_nil _ _)

/-- A character that is in no item and does not separate them is not in the list. -/
lemma notMem_listed {c : Char} {words : List String} (hsep : c ≠ sep) (h : ∀ word ∈ words, c ∉ word.toList) :
    c ∉ listed sep words := by
  induction words with
  | nil => exact List.not_mem_nil
  | cons word words ih =>
    obtain ⟨hword, hwords⟩ := List.forall_mem_cons.mp h
    cases words with
    | nil =>
      rw [listed_singleton]
      exact hword
    | cons word' words =>
      rw [listed_cons_cons, List.mem_append, List.mem_cons]
      rintro (hc | hc | hc)
      · exact hword hc
      · exact hsep hc
      · exact ih hwords hc

/-- The items of a list can be told from the list. -/
lemma listed_inj {words words' : List String} (hw : ∀ word ∈ words, Item sep word)
    (hw' : ∀ word ∈ words', Item sep word) (h : listed sep words = listed sep words') : words = words' := by
  cases words with
  | nil =>
    cases words' with
    | nil => rfl
    | cons word words' => exact absurd h.symm (listed_ne_nil (hw' word List.mem_cons_self).ne_empty)
  | cons word words =>
    cases words' with
    | nil => exact absurd h (listed_ne_nil (hw word List.mem_cons_self).ne_empty)
    | cons word' words' =>
      have hsplit := congrArg (List.splitOn sep) h
      have hfree : ∀ {ws : List String}, (∀ w ∈ ws, Item sep w) → ∀ cs ∈ ws.map String.toList, sep ∉ cs :=
        fun hws => List.forall_mem_map.mpr fun w hwmem => (hws w hwmem).notMem
      rw [listed, listed, List.splitOn_intercalate _ (hfree hw) (List.cons_ne_nil _ _),
        List.splitOn_intercalate _ (hfree hw') (List.cons_ne_nil _ _)] at hsplit
      exact List.map_injective_iff.mpr (fun _ _ => String.toList_injective) hsplit

/-- How items are written in a row: every one starts with the same character, and it can be told from a text that
starts with it if what follows it is fit to follow. -/
structure Row {α : Type} (write : α → List Char) (first : Char) (ok : α → Prop) (follows : List Char → Prop) :
    Prop where
  head : ∀ a, (write a).head? = some first
  next : ∀ cs, cs.head? = some first → follows cs
  inj : ∀ {a a' : α} {rest rest' : List Char}, ok a → ok a' → follows rest → follows rest' →
    write a ++ rest = write a' ++ rest' → a = a' ∧ rest = rest'

namespace Row

variable {α : Type} {write : α → List Char} {first : Char} {ok : α → Prop} {follows : List Char → Prop}
  {items items' : List α} {rest rest' : List Char}

/-- A row starts as its first item does. -/
lemma head?_append (hr : Row write first ok follows) (a : α) (cs : List Char) :
    (write a ++ cs).head? = some first := by
  rw [List.head?_append, hr.head]
  rfl

/-- With another character a row does not start, unless what comes after it does. -/
lemma head?_ne (hr : Row write first ok follows) (items : List α) {c : Char} (hc : c ≠ first)
    (hrest : rest.head? ≠ some c) : (items.flatMap write ++ rest).head? ≠ some c := by
  cases items with
  | nil => exact hrest
  | cons a items =>
    rw [List.flatMap_cons, List.append_assoc, hr.head?_append]
    exact fun h => hc (Option.some.inj h).symm

/-- More items are fit to follow an item, as what comes after the row is. -/
lemma follows_append (hr : Row write first ok follows) (items : List α) (hrest : follows rest) :
    follows (items.flatMap write ++ rest) := by
  cases items with
  | nil => exact hrest
  | cons a items =>
    apply hr.next
    rw [List.flatMap_cons, List.append_assoc]
    exact hr.head?_append a _

/-- The items of a row can be told from the row, and so can what comes after it. -/
lemma items_inj (hr : Row write first ok follows) (hi : ∀ a ∈ items, ok a) (hi' : ∀ a ∈ items', ok a)
    (hrest : follows rest) (hrest' : follows rest') (hend : rest.head? ≠ some first) (hend' : rest'.head? ≠ some first)
    (h : items.flatMap write ++ rest = items'.flatMap write ++ rest') : items = items' ∧ rest = rest' := by
  induction items generalizing items' with
  | nil =>
    cases items' with
    | nil => exact ⟨rfl, h⟩
    | cons a' items' =>
      have hhead := congrArg List.head? h
      rw [List.flatMap_cons, List.append_assoc, hr.head?_append] at hhead
      exact absurd hhead hend
  | cons a items ih =>
    cases items' with
    | nil =>
      have hhead := congrArg List.head? h
      rw [List.flatMap_cons, List.append_assoc, hr.head?_append] at hhead
      exact absurd hhead.symm hend'
    | cons a' items' =>
      obtain ⟨ha, hitems⟩ := List.forall_mem_cons.mp hi
      obtain ⟨ha', hitems'⟩ := List.forall_mem_cons.mp hi'
      rw [List.flatMap_cons, List.flatMap_cons, List.append_assoc, List.append_assoc] at h
      obtain ⟨rfl, htail⟩ := hr.inj ha ha' (hr.follows_append items hrest) (hr.follows_append items' hrest') h
      obtain ⟨rfl, hrests⟩ := ih hitems hitems' htail
      exact ⟨rfl, hrests⟩

end Row

end Croupier.Text
