import Croupier.Files
import Croupier.Settings.Load

/-!
# Settings files

Settings are loaded from a file with a known extension. A file that is not there is no error, and an empty path stands
for no file.
-/

namespace Croupier.Settings

/-- The extension of the last name of a path. -/
def extensionOf (path : String) : String :=
  let last := (path.splitOn "/").getLast?.getD ""
  match last.splitOn "." with
  | [] | [_] => ""
  | parts => parts.getLast?.getD ""

/-- The extensions of settings files. -/
def extensions : List String := ["yaml", "yml", "json"]

/-- Loads settings from a path and what reading it gives. -/
def loadFile (env : Env) (path : String) (file : Except FileError String) : Except LoadError Settings :=
  if path.isEmpty then load env none
  else match file with
    | .error .missing => load env none
    | .error _ => .error .unreadable
    | .ok text => if extensions.contains (extensionOf path) then load env (some text) else .error .unreadable

end Croupier.Settings
