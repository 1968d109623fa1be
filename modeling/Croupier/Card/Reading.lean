import Croupier.Card
import Croupier.Number
import Croupier.Text.Blank
import Croupier.Text.Case
import Croupier.Text.Quoted

/-!
# Reading cards

A card is written as a rank and a suit with blanks between them, in any case. The ace and the courts may be written by
a letter or in full, a suit by its name or its first letter.
-/

namespace Croupier

/-- Why a text is no card. -/
inductive CardError where
  | rank (text : String)
  | suit (text : String)
  | shape (text : String)
  | within (text : String) (cause : CardError)
  deriving DecidableEq, Repr

/-- The text of an error. -/
def CardError.message : CardError → String
  | rank text => "invalid rank " ++ Text.quote text
  | suit text => "invalid suit " ++ Text.quote text
  | shape text => "invalid card " ++ Text.quote text ++ ": want \"<rank> <suit>\""
  | within text cause => "invalid card " ++ Text.quote text ++ ": " ++ cause.message

/-- Reads a rank. The error shows the text in upper case. -/
def Rank.read (s : String) : Except CardError Rank :=
  let text := Text.upper (Text.trim s)
  if text = "A" ∨ text = "ACE" then .ok ⟨1⟩
  else if text = "J" ∨ text = "JACK" then .ok ⟨11⟩
  else if text = "Q" ∨ text = "QUEEN" then .ok ⟨12⟩
  else if text = "K" ∨ text = "KING" then .ok ⟨13⟩
  else match Numeral.readInt? text with
    | some n => if 2 ≤ n ∧ n ≤ 10 then .ok ⟨n⟩ else .error (.rank text)
    | none => .error (.rank text)

/-- Reads a suit. The error shows the text as given. -/
def Suit.read (s : String) : Except CardError Suit :=
  let text := Text.lower (Text.trim s)
  if text = "spades" ∨ text = "s" then .ok .spades
  else if text = "hearts" ∨ text = "h" then .ok .hearts
  else if text = "diamonds" ∨ text = "d" then .ok .diamonds
  else if text = "clubs" ∨ text = "c" then .ok .clubs
  else .error (.suit s)

namespace Card

/-- Reads a card. -/
def read (s : String) : Except CardError Card :=
  match Text.words s with
  | [rank, suit] => do
    let rank ← (Rank.read rank).mapError (.within s)
    let suit ← (Suit.read suit).mapError (.within s)
    .ok ⟨rank, suit⟩
  | _ => .error (.shape s)

/-- Reads cards from left to right; the first that cannot be read is the error. -/
def readAll (texts : List String) : Except CardError (List Card) := texts.mapM read

end Card

end Croupier
