import BootConfig.Options.Grammar
import BootConfig.Options.Truth

/-!
# Locating the startup options

Two options are needed before all others are known: the path of the settings file and whether
placeholders in it are expanded. They are looked for in every suffix of the argument list, so that
other arguments cannot hide them; what is found in a later suffix replaces what was found before.
-/

namespace BootConfig

/-- The options that are needed before the settings are known. -/
structure StartupOptions where
  /-- Path of the settings file; empty if none is given. -/
  configFile : String
  expandEnv : Bool
deriving DecidableEq, Inhabited

namespace Locator

def fileOption : String := "config.file"
def expandOption : String := "config.expand-env"

/-- Which of the two options it is. -/
inductive StartupOption where
  | configFile
  | expandEnv
deriving DecidableEq, Inhabited

open Options (Arity OptionForm Occurrence Table)

/-- The two options, with one hyphen or two. -/
def table : Table StartupOption := [
  ⟨["-" ++ fileOption, "--" ++ fileOption], .one, .configFile⟩,
  ⟨["-" ++ expandOption, "--" ++ expandOption], .optional, .expandEnv⟩]

/-- What an occurrence of an option says. A switch with a value that is no truth word is on. -/
def apply (found : StartupOptions) (o : Occurrence StartupOption) : StartupOptions :=
  match o.option.meaning with
  | .configFile => { found with configFile := o.values.headD "" }
  | .expandEnv =>
    let on := match o.values with
      | [] => true
      | v :: _ => (Truth.ofWord? v).getD true
    { found with expandEnv := on }

/-- Takes in what one list of arguments says. A list with an ambiguous argument says nothing, and
one with another fault says what stands before it. -/
def pass (found : StartupOptions) (args : List String) : StartupOptions :=
  match Options.scan table false args with
  | .error _ => found
  | .ok s => s.occurrences.foldl apply found

/-- Takes in what every suffix of a list of arguments says, the longest one first. -/
def passes (found : StartupOptions) : List String → StartupOptions
  | [] => found
  | arg :: rest => passes (pass found (arg :: rest)) rest

/-- The startup options that a list of arguments gives. -/
def locate (args : List String) : StartupOptions := passes ⟨"", false⟩ args

end Locator

end BootConfig
