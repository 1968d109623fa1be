/-!
# Files

Files are read by their paths. The files of a directory can be given as a list of paths and texts, in which a path leads
from directory to directory; what lies outside is not there to be read.
-/

namespace Croupier

/-- Why a file cannot be read. -/
inductive FileError where
  | missing
  | directory
  | notDirectory
  | tooLong
  | denied
  deriving DecidableEq, Repr

/-- What is wrong with a path. -/
def FileError.reason : FileError → String
  | missing => "no such file or directory"
  | directory => "is a directory"
  | notDirectory => "not a directory"
  | tooLong => "file name too long"
  | denied => "permission denied"

/-- The text of an error with a path. A directory can be opened, but not read. -/
def FileError.message (e : FileError) (path : String) : String :=
  (if e = .directory then "read " else "open ") ++ path ++ ": " ++ e.reason

/-- The files of a directory, by their paths. -/
abbrev Files := List (String × String)

namespace Files

/-- The names on a path that leads downwards. -/
def names (path : String) : List String := (path.splitOn "/").filter fun s => s ≠ "" ∧ s ≠ "."

/-- The file at the end of some names. -/
def file? (fs : Files) (place : List String) : Option String := (fs.find? fun f => names f.1 = place).map (·.2)

/-- Tells whether names lead to a directory. -/
def isDirectory (fs : Files) (place : List String) : Bool :=
  fs.any fun f => place.isPrefixOf (names f.1) && decide (place.length < (names f.1).length)

/-- The greatest length of a name, in bytes. -/
def nameBound : Nat := 255

/-- The length that paths must stay below, in bytes. -/
def pathBound : Nat := 4096

/-- The directory above a place. Above the given files nothing is known. -/
def above : Option (List String) → Option (List String)
  | some [] => none
  | place => place.map List.dropLast

/-- Reads the file at the end of a path that starts at a place. -/
def readFrom (fs : Files) : Option (List String) → List String → Except FileError String
  | _, [] => .error .directory
  | place, s :: rest =>
    if s = "" ∨ s = "." then fs.readFrom place rest
    else if s = ".." then fs.readFrom (above place) rest
    else if nameBound < s.utf8ByteSize then .error .tooLong
    else match place with
      | none => .error .missing
      | some names =>
        let next := names ++ [s]
        match fs.file? next with
        | some text => if rest.isEmpty then .ok text else .error .notDirectory
        | none => if fs.isDirectory next then fs.readFrom (some next) rest else .error .missing

/-- Reads the file with a given path. -/
def read (fs : Files) (path : String) : Except FileError String :=
  if path.isEmpty then .error .missing
  else if pathBound ≤ path.utf8ByteSize then .error .tooLong
  else fs.readFrom (if path.startsWith "/" then none else some []) (path.splitOn "/")

end Files

end Croupier
