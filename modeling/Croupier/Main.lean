import Croupier.Command
import Croupier.Text.Utf8

/-!
# The program

Reads files and environment variables, prints the answer and exits.
-/

namespace Croupier.Main

/-- Reads a file. Bytes that are no text count as replacement characters. -/
def readFile (path : String) : IO (Except FileError String) := do
  try
    let bytes ← IO.FS.readBinFile path
    pure (.ok (String.ofList (Text.decode bytes.toList)))
  catch e =>
    pure <| .error <| match e with
      | .noFileOrDirectory .. => .missing
      | .permissionDenied .. => .denied
      | .inappropriateType .. => .directory
      | _ => .notDirectory

/-- The environment variables with given names. -/
def readEnv (names : List String) : IO Env := do
  let values ← names.mapM fun name => do
    let value ← IO.getEnv name
    pure (name, value)
  pure fun name => (values.lookup name).join

/-- A random name for a game. -/
def randomId : IO String := do
  let n ← IO.rand 0 (1 <<< 122 - 1)
  let digits := (Text.hex 31 n).toList
  let part := fun (start count : Nat) => String.ofList ((digits.drop start).take count)
  pure (part 1 8 ++ "-" ++ part 9 4 ++ "-4" ++ part 13 3 ++ "-a" ++ part 16 3 ++ "-" ++ part 19 12)

end Croupier.Main

/-- Runs the program. -/
def main (args : List String) : IO UInt32 := do
  let id ← Croupier.Main.randomId
  let env ← Croupier.Main.readEnv Croupier.Settings.variableNames
  let response ← Croupier.Command.launch Croupier.Main.readFile id env args
  if response.showsUsage then IO.eprint Croupier.usage
  IO.print response.out
  pure response.code.toUInt32
