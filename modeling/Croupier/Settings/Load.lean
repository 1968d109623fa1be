import Croupier.Settings
import Croupier.Settings.Value
import Croupier.Yaml.Reader

/-!
# Loading settings

Every setting has a section and a key. Its value is that of its environment variable if there is one, or else that of
the settings file, or else a default. A variable that is named like a section hides what the file and the defaults say
about the section. A section that the file leaves empty has its defaults whatever the environment says.
-/

namespace Croupier

open Yaml

/-- The environment variables. -/
abbrev Env := String → Option String

/-- Why there are no settings. -/
inductive LoadError where
  | unreadable
  | invalid (error : SettingsError)
  deriving DecidableEq, Repr

namespace Settings

/-- The name of the environment variable for a key, or for a section. -/
def variableName (path : List String) : String := "CARDLANG_" ++ Text.upper ("_".intercalate path)

/-- The sections with their keys. -/
def sections : List (String × List String) :=
  [("logging", ["level", "format"]), ("engine", ["seed", "max_call_depth", "history_limit", "record_history"]),
    ("spectest", ["fail_fast"])]

/-- The environment variables that settings are taken from. -/
def variableNames : List String :=
  sections.flatMap fun (s, keys) => variableName [s] :: keys.map fun k => variableName [s, k]

/-- The value of an environment variable. An empty one counts as unset. -/
def fromEnv? (env : Env) (path : List String) : Option String := (env (variableName path)).filter (!·.isEmpty)

/-- An entry of a settings file that is not null. -/
def present? (entries : List (String × RawSetting)) (key : String) : Option RawSetting :=
  match entries.lookup key with
  | some .null => none
  | other => other

/-- What a settings file says about a key. -/
def fileValue? (file : List (String × RawSetting)) (group key : String) : Option RawSetting :=
  (present? file (group ++ "." ++ key)).or <|
    match file.lookup group with
    | some (.group entries) => present? entries key
    | _ => none

/-- The value of a key: a raw value, the default, or nothing. -/
inductive Found where
  | raw (value : RawSetting)
  | default
  | hidden

/-- Finds the value of a key. -/
def find (env : Env) (file : List (String × RawSetting)) (group key : String) : Except LoadError Found :=
  match file.lookup group with
  | none | some (.group _) =>
    match fromEnv? env [group, key] with
    | some s => .ok (.raw (.text s))
    | none =>
      if (fromEnv? env [group]).isSome then .ok .hidden
      else match fileValue? file group key with
        | some v => .ok (.raw v)
        | none => .ok .default
  | some .null => if (fromEnv? env [group]).isSome then .error .unreadable else .ok .default
  | some _ => .error .unreadable

/-- The value of a key, read in a certain way. A hidden value is `zero`. -/
def get {α : Type} (env : Env) (file : List (String × RawSetting)) (read : RawSetting → Option α) (fallback zero : α)
    (group key : String) : Except LoadError α := do
  match ← find env file group key with
  | .default => .ok fallback
  | .hidden => .ok zero
  | .raw v => match read v with
    | some x => .ok x
    | none => .error .unreadable

/-- The entries of a settings file. -/
def entriesOf (text : String) : Except LoadError (List (String × RawSetting)) := do
  match ← (readDocument text).mapError fun _ => .unreadable with
  | none => .ok []
  | some n => match ← (RawSetting.ofNode n).mapError fun _ => .unreadable with
    | .null => .ok []
    | .group entries => .ok entries
    | _ => .error .unreadable

/-- The settings that the environment and the entries of a file give. -/
def ofEntries (env : Env) (file : List (String × RawSetting)) : Except LoadError Settings := do
  let d : Settings := {}
  let level ← get env file RawSetting.text? d.level "" "logging" "level"
  let format ← get env file RawSetting.text? d.format "" "logging" "format"
  let seed ← get env file RawSetting.word? d.seed 0 "engine" "seed"
  let maxDepth ← get env file RawSetting.int? d.maxDepth 0 "engine" "max_call_depth"
  let historyLimit ← get env file RawSetting.int? d.historyLimit 0 "engine" "history_limit"
  let recordHistory ← get env file RawSetting.bool? d.recordHistory false "engine" "record_history"
  let failFast ← get env file RawSetting.bool? d.failFast false "spectest" "fail_fast"
  .ok ⟨level, format, seed, maxDepth, historyLimit, recordHistory, failFast⟩

/-- Loads settings from the environment and the text of a file, if there is one. -/
def load (env : Env) (text : Option String) : Except LoadError Settings := do
  let file ← match text with
    | none => .ok []
    | some t => entriesOf t
  let s ← ofEntries env file
  s.check.mapError .invalid
  .ok s

end Settings

end Croupier
