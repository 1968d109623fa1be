/-!
# Launching the program

The arguments of the program start with options: the path of the settings file, or a request for help. The other
arguments say what to do.
-/

namespace Croupier

/-- What the arguments of the program ask for. -/
inductive Launch where
  | help
  | misuse
  | run (config : String) (args : List String)
  deriving DecidableEq, Repr

/-- What an argument is. -/
inductive Argument where
  | operand
  | lastOption
  | malformed
  | flag (name : String) (value : Option String)
  deriving DecidableEq, Repr

namespace Argument

/-- Reads an option after its dashes: a name, and a value after an equals sign. -/
def ofFlag : List Char → Argument
  | [] => lastOption
  | c :: cs =>
    if c == '-' || c == '=' then malformed
    else match cs.span (· != '=') with
      | (name, []) => flag (String.ofList (c :: name)) none
      | (name, _ :: value) => flag (String.ofList (c :: name)) (some (String.ofList value))

/-- Tells what an argument is. An option starts with one dash or two. -/
def ofString (s : String) : Argument :=
  match s.toList with
  | '-' :: '-' :: cs => ofFlag cs
  | '-' :: c :: cs => ofFlag (c :: cs)
  | _ => operand

end Argument

namespace Launch

/-- The path of the settings file if no other is given. -/
def defaultConfig : String := "config/config.yaml"

/-- Reads arguments after options that gave the path of a settings file. -/
def ofArgsFrom : String → List String → Launch
  | config, [] => run config []
  | config, arg :: rest =>
    match Argument.ofString arg with
    | .operand => run config (arg :: rest)
    | .lastOption => run config rest
    | .malformed => misuse
    | .flag name value =>
      if name = "config" then
        match value, rest with
        | some path, rest => ofArgsFrom path rest
        | none, path :: rest => ofArgsFrom path rest
        | none, [] => misuse
      else if name = "help" ∨ name = "h" then help
      else misuse

/-- Reads the arguments of the program. -/
def ofArgs (args : List String) : Launch := ofArgsFrom defaultConfig args

end Launch

end Croupier
