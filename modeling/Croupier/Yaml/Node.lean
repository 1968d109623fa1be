import Croupier.Yaml.Scalar

/-!
# Documents

A document is a node: a scalar, a list of nodes, or a list of keys with nodes. The keys of one node differ, and a key
that means nothing is no key. Absent and null are the same to a reader of documents.
-/

namespace Croupier.Yaml

/-- A scalar as it is written. -/
structure Scalar where
  text : String
  /-- Whether it stands without quotation marks. -/
  plain : Bool
  deriving DecidableEq, Repr

/-- What a scalar stands for. -/
def Scalar.meaning (s : Scalar) : Meaning := if s.plain then Yaml.meaning s.text else .text s.text

/-- A node of a document. -/
inductive Node where
  | scalar (s : Scalar)
  | seq (items : List Node)
  | map (entries : List (Scalar × Node))
  deriving Repr

/-- Why a document does not have the form that is asked for. -/
inductive FormError where
  | unexpected (want : String)
  | unknownKey (key : String)
  | repeatedKey (key : String)
  deriving DecidableEq, Repr

/-- The text of an error. -/
def FormError.message : FormError → String
  | unexpected want => "yaml: cannot unmarshal into " ++ want
  | unknownKey key => "yaml: field " ++ key ++ " not found"
  | repeatedKey key => "yaml: mapping key \"" ++ key ++ "\" already defined"

namespace Node

/-- The node that means nothing. -/
def null : Node := .scalar ⟨"", true⟩

instance : Inhabited Node := ⟨null⟩

/-- Tells whether a node means nothing. -/
def isNull : Node → Bool
  | scalar s => s.meaning == .null
  | _ => false

/-- A node read as a text. Every scalar is one. -/
def text? (n : Node) : Except FormError (Option String) :=
  if n.isNull then .ok none
  else match n with
    | scalar s => .ok (some s.text)
    | _ => .error (.unexpected "string")

/-- A node read as a whole number. Fractions are cut, and fractions below all words count as the least word. -/
def int? (n : Node) : Except FormError (Option Int) :=
  if n.isNull then .ok none
  else
    let number := match n with
      | scalar s => match s.meaning with
        | .int n => Numeral.word? n
        | .real r => if r.isAtMost 0x8000000000000000 then some r.word else none
        | _ => none
      | _ => none
    match number with
    | some n => .ok (some n)
    | none => .error (.unexpected "int")

/-- A node read as a truth value. -/
def bool? (n : Node) : Except FormError (Option Bool) :=
  if n.isNull then .ok none
  else
    let value := match n with
      | scalar s => match s.meaning with
        | .bool b => some b
        | .text t =>
          if ["y", "Y", "yes", "on"].contains t then some true
          else if ["n", "N", "no", "off"].contains t then some false
          else none
        | _ => none
      | _ => none
    match value with
    | some b => .ok (some b)
    | none => .error (.unexpected "bool")

/-- A node read as a list. Items that mean nothing are left out if `read` gives nothing for them. -/
def list? {α : Type} (read : Node → Except FormError (Option α)) (n : Node) : Except FormError (Option (List α)) :=
  if n.isNull then .ok none
  else match n with
    | seq items => do
      let values ← items.mapM read
      .ok (some (values.filterMap id))
    | _ => .error (.unexpected "sequence")

/-- The first key that occurs twice. -/
def repeatedKey? : List String → Option String
  | [] => none
  | key :: keys => if keys.contains key then some key else repeatedKey? keys

/-- The entries of a node. Keys that mean nothing are left out. -/
def entries? (n : Node) : Except FormError (Option (List (String × Node))) :=
  if n.isNull then .ok none
  else match n with
    | map entries =>
      match repeatedKey? (entries.map (·.1.text)) with
      | some key => .error (.repeatedKey key)
      | none => .ok (some ((entries.filter fun e => e.1.meaning != .null).map fun e => (e.1.text, e.2)))
    | _ => .error (.unexpected "mapping")

/-- A node read as named values. A name without a value has the value `zero`. -/
def dictionary? {α : Type} (zero : α) (read : Node → Except FormError (Option α)) (n : Node) :
    Except FormError (Option (List (String × α))) := do
  match ← n.entries? with
  | none => .ok none
  | some entries => do
    let values ← entries.mapM fun (key, value) => do
      let v ← read value
      .ok (key, v.getD zero)
    .ok (some values)

/-- A node read as a record whose keys are among given ones. -/
def record? (keys : List String) (n : Node) : Except FormError (Option (List (String × Node))) := do
  match ← n.entries? with
  | none => .ok none
  | some entries =>
    match entries.find? fun e => !keys.contains e.1 with
    | some (key, _) => .error (.unknownKey key)
    | none => .ok (some entries)

/-- The value of a key of a record. -/
def valueOf (record : List (String × Node)) (key : String) : Node := (record.lookup key).getD null

end Node

end Croupier.Yaml
