import Postbox.Config.File
import Postbox.Config.Layer
import Postbox.Path.Ancestors
import Postbox.Procedure

/-!
# Resolution of settings

The settings in force come, from the lowest layer to the highest, from the defaults, a settings
file, the environment, and whoever asks.  The file is looked for in a directory and those above it,
as far as its path tells, but not above a directory that holds a repository.
-/

namespace Postbox.Settings

/-- The name of a settings file. -/
def fileName : String := ".maildrop.toml"

/-- The name of the entry that makes a directory a repository. -/
def repositoryMark : String := ".git"

/-- The settings file in the first of the directories that has one.  A directory that is a
repository is the last one looked at. -/
def findIn : List Path → Procedure (Option Path)
  | [] => return none
  | directory :: rest => do
    let file := directory.child (Bytes.ofText fileName)
    if ← Procedure.request (.isFile file) then return some file
    else if ← Procedure.request (.holds (directory.child (Bytes.ofText repositoryMark))) then
      return none
    else findIn rest

/-- The settings file for a directory. -/
def find (directory : Path) : Procedure (Option Path) :=
  findIn directory.ancestors

/-- The settings in the file at a path. -/
def load (path : Path) : Procedure (Except SettingsError Settings) := do
  return ofContent path (← Procedure.request (.read path))

/-- Report warnings. -/
def warn : List SettingsWarning → Procedure Unit
  | [] => return ()
  | warning :: rest => do
    Procedure.request (.report (.warning warning.message))
    warn rest

/-- The settings at the lowest layers.  Errors in a file that was asked for are errors; a file that
was found and is no good counts for nothing. -/
def base (file? : Option Path) (directory : Path) : Procedure (Except SettingsError Settings) := do
  match file? with
  | some file => load file
  | none => match ← find directory with
    | none => return .ok {}
    | some file => match ← load file with
      | .ok settings => return .ok settings
      | .error error =>
        warn [.fileIgnored file error]
        return .ok {}

/-- The values of some environment variables. -/
def readVariables : List String → Procedure Environment
  | [] => return fun _ => none
  | name :: rest => do
    let value ← Procedure.request (.variable name)
    let others ← readVariables rest
    return fun key => if key = name then value else others key

/-- The settings in force for a directory. -/
def resolve (overrides : Overrides) (directory : Path) :
    Procedure (Except SettingsError Settings) := do
  match ← base overrides.file? directory with
  | .error error => return .error error
  | .ok settings =>
    let (environment, ignored) := (← readVariables Environment.names).layer
    warn ignored
    let (top, ignored) := overrides.layer
    warn ignored
    return .ok ((settings.under environment).overridden top)

end Postbox.Settings
