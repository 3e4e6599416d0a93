import LintRepair.Batch
import LintRepair.Command.Output
import LintRepair.Report.Reader
import LintRepair.Settings.Lookup

/-!
The command.

`Command.run` is what the command does with its arguments and its environment, as a script.

* A report is repaired with the settings of the project, over which the options win. Its relative
  paths begin in the project folder.
* The exit status is one if a file fails or an input cannot be read, and two if the arguments or a
  pattern make no sense.
-/

namespace LintRepair

namespace Command

/-- The variables that the command looks at. -/
structure Environment where
  /-- The settings file to use. -/
  settings : Option String
  /-- The global settings folder. -/
  settingsFolder : Option String
  /-- The home folder. -/
  home : Option String

/-- How a run of the command ends. -/
structure Result where
  exit : Nat
  stdout : String
  /-- The text of the error that ended it. -/
  error : Option String
deriving DecidableEq

/-- A run that prints some lines. -/
def printed (lines : List String) : Result := ⟨0, unlines lines, none⟩

/-- A run that an error ends. -/
def failed (message : String) : Result := ⟨1, "", some message⟩

/-- A run whose arguments make no sense. -/
def misused : Result := ⟨2, "", none⟩

/-- The folder of the global settings. An empty home folder counts as none. -/
def globalFolder (environment : Environment) : Option Path :=
  (environment.settingsFolder.map Path.mk).or
    ((environment.home.filter (!·.isEmpty)).map fun home => (Path.mk home).join ⟨".stylepatch"⟩)

/-- The settings with the options that win over them. -/
def overridden (settings : Settings) (options : ApplyOptions) : Settings :=
  { settings with
    lineEnding := options.lineEnding.or settings.lineEnding
    parallel := options.parallel || settings.parallel
    exclude := settings.exclude ++ options.exclude }

/-- The report with its relative paths below the project folder. -/
def anchored (project : Path) (report : Report) : Report :=
  if project.same ⟨"."⟩ then report
  else ⟨report.files.map fun entry => { entry with path := project.join entry.path }⟩

/-- The bytes of the report. -/
def readReport (source : Option Path) : Script (Except IoError ByteArray) :=
  match source with
  | some path => .read path .done
  | none => .input fun bytes => .done (.ok bytes)

/-- The error of a report that cannot be read. -/
def unreadable : Option Path → String
  | some path => s!"Failed to read report: {path.text}"
  | none => "Failed to read report from stdin"

/-- The settings of a project, or the text of an error. -/
def projectSettings (file : Option Path) : Script (Except String Settings) :=
  match file with
  | none => .done (.ok Settings.default)
  | some path =>
      (loadSettings path).bind fun loaded =>
        match loaded with
        | .ok settings => .done (.ok settings)
        | .error _ => .done (.error s!"Failed to load config: {path.text}")

/-- Repairs the files of a report that was read. -/
def repair (settings : Settings) (options : ApplyOptions) (report : Report) : Script Result :=
  match applyReport settings (anchored options.project report) with
  | .error _ => .done misused
  | .ok script =>
      script.bind fun summary =>
        .done ⟨if summary.hasFailures then 1 else 0,
          unlines (summaryLines summary options.format), none⟩

/-- Reads a report and repairs its files. -/
def apply (settings : Settings) (options : ApplyOptions) : Script Result :=
  (readReport options.report).bind fun content =>
    match content.bind decodeText with
    | .error _ => .done (failed (unreadable options.report))
    | .ok text =>
        match Report.parse? text with
        | none => .done (failed "Invalid violation report")
        | some report => repair (overridden settings options) options report

/-- The path of the first settings file. -/
def firstSettingsPath : Path := ⟨"stylepatch.toml"⟩

/-- Writes the first settings file. -/
def writeFirstSettings : Script Result :=
  .write firstSettingsPath (unlines firstSettings).toUTF8 fun written =>
    match written with
    | .ok () => .done (printed initLines)
    | .error e => .done (failed e.message)

/-- Writes the first settings file, unless there is something at its path already. -/
def init (force : Bool) : Script Result :=
  .kind firstSettingsPath fun found =>
    if found.isSome && !force then
      .done (failed (s!"Configuration file already exists at {firstSettingsPath.text}. " ++
        "Use --force to overwrite."))
    else writeFirstSettings

/-- Does what an invocation asks for. -/
def perform (environment : Environment) (invocation : Invocation) : Script Result :=
  match invocation.task with
  | .listRules => .done (printed ruleLines)
  | .init force => init force
  | .apply options =>
      (locateSettings options.project invocation.settings (globalFolder environment)).bind
        fun file =>
          (projectSettings file).bind fun loaded =>
            match loaded with
            | .error message => .done (failed message)
            | .ok settings => apply settings options

/-- What the command does with its arguments. -/
def run (arguments : List String) (environment : Environment) : Script Result :=
  match readArguments arguments environment.settings with
  | .error .usage => .done misused
  | .error .help => .done (printed helpLines)
  | .error .version => .done (printed versionLines)
  | .ok invocation => perform environment invocation

end Command

end LintRepair
