import Croupier.Text.Quoted

/-!
# Bundled programs

The programs that come with the library, by their names.
-/

namespace Croupier.Bundled

/-- A small scopa for two players. -/
def simpleScopa : String := String.join [
  ".(A cut-down scopa: capture a middle card of equal value or drop a card.)\n",
  "name simple_scopa\n",
  "deck filter(StandardDeck, not_royal)\n",
  "players 2\n",
  "current_player 1\n",
  "\n",
  "stack middle\n",
  "stack player:hand\n",
  "stack player:collection\n",
  "\n",
  "def setup()\x7b\n",
  "    deck > middle 4\n",
  "    deck > players:hand 3\n",
  "\x7d\n",
  "\n",
  "def player_move(player, move)\x7b\n",
  "    check(player:id is current_player)\n",
  "    valid_moves(take, drop)\n",
  "\x7d\n",
  "\n",
  "def take(player, move)\x7b\n",
  "    check(count(move:cards) is 1)\n",
  "    check(cards_in_stack(move:cards, player:hand))\n",
  "    check(cards_in_stack(move:target, middle))\n",
  "    check(get_value(move:cards) is get_value(move:target))\n",
  "    player:hand > player:collection - move:cards\n",
  "    middle > player:collection - move:target\n",
  "\x7d\n",
  "\n",
  "def drop(player, move)\x7b\n",
  "    check(count(move:cards) is 1)\n",
  "    player:hand > middle - move:cards\n",
  "\x7d\n",
  "\n",
  ".(left empty: the builtin rank value applies until a game overrides it)\n",
  "def get_value(cards)\x7b\n",
  "\x7d\n",
  "\n",
  "def not_royal(card)\x7b\n",
  "    return(card:rank is not K & card:rank is not Q & card:rank is not J)\n",
  "\x7d\n"]

/-- The bundled programs. -/
def programs : List (String × String) := [("simple_scopa", simpleScopa)]

/-- The names of the bundled programs. -/
def names : List String := programs.map (·.1)

/-- The text of a bundled program. -/
def source? (name : String) : Option String := programs.lookup name

/-- The text for a name that no bundled program has. -/
def missingMessage (name : String) : String :=
  "bundled game " ++ Text.quote name ++ ": open " ++ name ++ ".card: file does not exist"

end Croupier.Bundled
