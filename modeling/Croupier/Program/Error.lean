import Croupier.Token.Lexer
import Croupier.Text.Closest

/-!
# Errors in a program

A program that cannot be read says where, what could have stood there, and what stands there; sometimes it has a hint.
-/

namespace Croupier

/-- A hint that goes with an error. -/
inductive Hint where
  | declaredAt (pos : Pos)
  | meant (name : String)
  | standAlone
  deriving DecidableEq, Repr

/-- The text of a hint. -/
def Hint.text : Hint → String
  | declaredAt pos => "first declared at " ++ pos.text
  | meant name => Text.didYouMean (Text.quote name)
  | standAlone => "only calls, transfers, check, return and if may stand alone"

/-- A place where a program breaks the grammar or names something that is not there. -/
structure ParseError where
  pos : Pos
  expected : String
  found : String
  hint : Option Hint := none
  deriving DecidableEq, Repr

/-- The text of an error. -/
def ParseError.message (e : ParseError) : String :=
  let hint := match e.hint with
    | none => ""
    | some h => " (" ++ h.text ++ ")"
  "parse error at " ++ e.pos.text ++ ": expected " ++ e.expected ++ ", found " ++ e.found ++ hint

/-- Why a text is no program. -/
inductive SourceError where
  | lex (error : LexError)
  | parse (error : ParseError)
  deriving DecidableEq, Repr

/-- The text of an error. -/
def SourceError.message : SourceError → String
  | lex e => e.message
  | parse e => e.message

end Croupier
