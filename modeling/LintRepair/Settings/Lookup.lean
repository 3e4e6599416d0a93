import LintRepair.Script
import LintRepair.Settings

/-!
Settings files.

Where the settings of a project are looked up, and how they are loaded. A file that is named
explicitly is taken as it is. Otherwise the first file that is there counts: those of the project
folder in order, then the one of the global folder. Without any the defaults hold.
-/

namespace LintRepair

/-- Why a settings file could not be loaded. -/
inductive SettingsError where
  | io (path : Path) (cause : IoError)
  | malformed
deriving DecidableEq

/-- The text of a settings error. -/
def SettingsError.message : SettingsError → String
  | io path cause => s!"Failed to read config file {path.text}: {cause.message}"
  | malformed => "Failed to parse config"

/-- Loads the settings of a file. -/
def loadSettings (path : Path) : Script (Except SettingsError Settings) :=
  .read path fun content =>
    match content with
    | .error e => .done (.error (.io path e))
    | .ok bytes =>
        match decodeText bytes with
        | .error e => .done (.error (.io path e))
        | .ok text =>
            match Settings.parse? text with
            | some settings => .done (.ok settings)
            | none => .done (.error .malformed)

/-- The names of the settings files of a project. -/
def projectSettingsNames : List Path := [⟨"stylepatch.toml"⟩, ⟨".stylepatch.toml"⟩]

/-- The name of the settings file of the global folder. -/
def globalSettingsName : Path := ⟨"config.toml"⟩

/-- The first path that names a file. -/
def firstFile : List Path → Script (Option Path)
  | [] => .done none
  | path :: rest =>
      .kind path fun found =>
        if found = some .file then .done (some path) else firstFile rest

/-- The settings file of a project. -/
def locateSettings (project : Path) (explicit globalFolder : Option Path) :
    Script (Option Path) :=
  match explicit with
  | some path => .done (some path)
  | none =>
      firstFile (projectSettingsNames.map project.join ++
        (globalFolder.map (·.join globalSettingsName)).toList)

end LintRepair
