import Croupier.Token

/-!
# Expressions

Expressions name things, select fields, call functions, compare, and join conditions. Every node knows where it stands:
an operator stands where its sign does. The printed form of an expression puts parentheses around conjunctions and
disjunctions only.
-/

namespace Croupier

/-- The two ways to join conditions. -/
inductive Junction where
  | and
  | or
  deriving DecidableEq, Repr

/-- The sign of a junction. -/
def Junction.sign : Junction → String
  | and => "&"
  | or => "|"

/-- An expression. -/
inductive Expr where
  | name (id : String) (pos : Pos)
  | int (value : Int) (pos : Pos)
  | field (base : Expr) (name : String) (pos : Pos)
  | call (fn : String) (args : List Expr) (pos : Pos)
  | compare (left right : Expr) (negate : Bool) (pos : Pos)
  | join (op : Junction) (left right : Expr) (pos : Pos)
  | not (operand : Expr) (pos : Pos)
  deriving Repr

namespace Expr

/-- Where an expression stands. -/
def pos : Expr → Pos
  | name _ p => p
  | int _ p => p
  | field _ _ p => p
  | call _ _ p => p
  | compare _ _ _ p => p
  | join _ _ _ p => p
  | not _ p => p

/-- The word of a comparison, with blanks around it. -/
def compareWord (negate : Bool) : String := if negate then " is not " else " is "

mutual

/-- The printed form of an expression. -/
def text : Expr → String
  | name id _ => id
  | int value _ => toString value
  | field base key _ => text base ++ ":" ++ key
  | call fn args _ => fn ++ "(" ++ ", ".intercalate (texts args) ++ ")"
  | compare left right negate _ => text left ++ compareWord negate ++ text right
  | join op left right _ => "(" ++ text left ++ " " ++ op.sign ++ " " ++ text right ++ ")"
  | not operand _ => "not " ++ text operand

/-- The printed forms of some expressions. -/
def texts : List Expr → List String
  | [] => []
  | e :: es => text e :: texts es

end

/-- The name that selects the stacks of every player at once. -/
def everyPlayer : String := "players"

/-- Tells whether the expression selects a stack of every player. -/
def isEveryPlayer : Expr → Bool
  | field (name id _) _ _ => id = everyPlayer
  | _ => false

/-- Tells whether the expression has the form of a place for cards: a name, or a field of anything but a call. -/
def isContainer : Expr → Bool
  | name _ _ => true
  | field (call _ _ _) _ _ => false
  | field _ _ _ => true
  | _ => false

end Expr

end Croupier
