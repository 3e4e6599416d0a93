import LintRepair.Path

/-!
Command arguments.

How the arguments of the command are read. There are two levels of options, before and after the
name of the subcommand. An option that takes a value finds it after an equals sign, attached to its
letter, or in the next argument, which may not look like an option itself. Only some options may be
given more than once on a level.

* `Invocation`: what the arguments ask for.
* `Command.readArguments`: the invocation of some arguments.
-/

namespace LintRepair

/-- The form in which results are printed. -/
inductive Format where
  | text
  | json
  | compact
deriving DecidableEq

/-- The form with a name. -/
def Format.ofName? (name : String) : Option Format :=
  if name = "text" then some text
  else if name = "json" then some json
  else if name = "compact" then some compact
  else none

/-- What the repair of a report is asked to do. -/
structure ApplyOptions where
  /-- The file of the report, or the standard input. -/
  report : Option Path
  /-- The folder that paths of the report begin in. -/
  project : Path
  format : Format
  lineEnding : Option String
  parallel : Bool
  exclude : List String

/-- What the command is asked to do. -/
inductive Task where
  /-- To repair the files of a report. -/
  | apply (options : ApplyOptions)
  /-- To list the known keys. -/
  | listRules
  /-- To write a first settings file, over an existing one if forced. -/
  | init (force : Bool)

/-- A task with the settings file that is named for it. -/
structure Invocation where
  settings : Option Path
  task : Task

/-- Why reading the arguments stops before there is a task. -/
inductive Stop where
  /-- The arguments do not make sense. -/
  | usage
  | help
  | version
deriving DecidableEq

namespace Command

/-! ### Options -/

/-- An option of the command. -/
inductive Flag where
  | verbose
  | config
  | help
  | version
  | report
  | project
  | format
  | lineEnding
  | parallel
  | exclude
  | force
deriving DecidableEq

namespace Flag

/-- The long name of an option. -/
def long : Flag → String
  | verbose => "verbose"
  | config => "config"
  | help => "help"
  | version => "version"
  | report => "report"
  | project => "project"
  | format => "format"
  | lineEnding => "line-ending"
  | parallel => "parallel"
  | exclude => "exclude"
  | force => "force"

/-- The letter of an option. -/
def letter : Flag → Option Char
  | verbose => some 'v'
  | config => some 'c'
  | help => some 'h'
  | version => some 'V'
  | report => some 'r'
  | format => some 'f'
  | exclude => some 'e'
  | _ => none

/-- Whether an option takes a value. -/
def takesValue : Flag → Bool
  | config | report | project | format | lineEnding | exclude => true
  | _ => false

/-- Whether an option may be given more than once. -/
def repeats (flag : Flag) : Bool := flag == exclude

/-- Whether an option takes this value. Paths may not be empty, and a format needs a known name. -/
def takes : Flag → String → Bool
  | config, value => !value.isEmpty
  | report, value => !value.isEmpty
  | project, value => !value.isEmpty
  | format, value => (Format.ofName? value).isSome
  | _, _ => true

end Flag

/-- The options before the subcommand. -/
def topLevel : List Flag := [.verbose, .config, .help, .version]

/-- The options after any subcommand. -/
def everyLevel : List Flag := [.verbose, .config, .help]

/-- The options of the subcommand that repairs a report. -/
def applyLevel : List Flag :=
  [.report, .project, .format, .lineEnding, .parallel, .exclude] ++ everyLevel

/-- The options of the subcommand that writes a settings file. -/
def initLevel : List Flag := .force :: everyLevel

/-- The names of the subcommands. -/
def subcommands : List String := ["apply", "list-formatters", "init", "help"]

/-! ### Reading one level -/

/-- The options that were given, in order, with their values. -/
abbrev Given := List (Flag × String)

/-- Adds an option with its value; a switch has an empty one. -/
def give (given : Given) (flag : Flag) (value : String) : Except Stop Given :=
  if flag = .help then .error .help
  else if flag = .version then .error .version
  else if !flag.repeats && given.any (·.1 == flag) then .error .usage
  else if flag.takes value then .ok (given ++ [(flag, value)])
  else .error .usage

/-- Reads the letters of one argument. The last letter may belong to an option that still waits for
its value. -/
def readLetters (level : List Flag) : List Char → Given → Except Stop (Given × Option Flag)
  | [], given => .ok (given, none)
  | c :: rest, given =>
      match level.find? (·.letter == some c) with
      | none => .error .usage
      | some flag =>
          if flag.takesValue then
            match rest with
            | [] => .ok (given, some flag)
            | '=' :: value => (give given flag (String.ofList value)).map (·, none)
            | value => (give given flag (String.ofList value)).map (·, none)
          else
            match give given flag "" with
            | .error stop => .error stop
            | .ok given' => readLetters level rest given'

/-- Cuts a text at its first equals sign. -/
def cutAtEquals : List Char → List Char × Option (List Char)
  | [] => ([], none)
  | c :: rest =>
      if c = '=' then ([], some rest) else (c :: (cutAtEquals rest).1, (cutAtEquals rest).2)

/-- Reads an argument that is a long name, after its two dashes. -/
def readLong (level : List Flag) (text : List Char) (given : Given) :
    Except Stop (Given × Option Flag) :=
  match level.find? (·.long.toList == (cutAtEquals text).1) with
  | none => .error .usage
  | some flag =>
      match (cutAtEquals text).2 with
      | some value =>
          if flag.takesValue then (give given flag (String.ofList value)).map (·, none)
          else .error .usage
      | none =>
          if flag.takesValue then .ok (given, some flag) else (give given flag "").map (·, none)

/-- Whether an argument looks like an option. -/
def looksLikeFlag (argument : String) : Bool :=
  argument.toList.head? == some '-' && argument != "-"

/-- Reads the arguments of one level, up to a subcommand. An option may wait for its value. -/
def readLevel (level : List Flag) (commands : List String) :
    Option Flag → List String → Given → Except Stop (Given × Option (String × List String))
  | none, [], given => .ok (given, none)
  | some _, [], _ => .error .usage
  | some flag, argument :: rest, given =>
      if looksLikeFlag argument then .error .usage
      else
        match give given flag argument with
        | .error stop => .error stop
        | .ok given' => readLevel level commands none rest given'
  | none, argument :: rest, given =>
      if argument = "--" then
        if rest.isEmpty then .ok (given, none) else .error .usage
      else if !looksLikeFlag argument then
        if commands.contains argument then .ok (given, some (argument, rest)) else .error .usage
      else
        let read := match argument.toList with
          | '-' :: '-' :: text => readLong level text given
          | text => readLetters level (text.drop 1) given
        match read with
        | .error stop => .error stop
        | .ok (given', waiting) => readLevel level commands waiting rest given'

/-! ### The invocation -/

/-- The value that was given for an option. -/
def valueOf (given : Given) (flag : Flag) : Option String := given.lookup flag

/-- Whether a switch was given. -/
def isGiven (given : Given) (flag : Flag) : Bool := given.any (·.1 == flag)

/-- All values that were given for an option. -/
def valuesOf (given : Given) (flag : Flag) : List String :=
  (given.filter (·.1 == flag)).map Prod.snd

/-- The settings file that is named. The subcommand's option wins over the one before it, and both
over the environment, which is looked at for either level and may not hold an empty name. -/
def settingsFile (top sub : Given) (environment : Option String) : Except Stop (Option Path) :=
  let fromTop := valueOf top .config
  let fromSub := valueOf sub .config
  if environment = some "" ∧ !(fromTop.isSome && fromSub.isSome) then .error .usage
  else .ok (((fromSub.or fromTop).or environment).map Path.mk)

/-- The options of the repair of a report. -/
def applyOptions (given : Given) : ApplyOptions where
  report := (valueOf given .report).map Path.mk
  project := ⟨(valueOf given .project).getD "."⟩
  format := ((valueOf given .format).bind Format.ofName?).getD .text
  lineEnding := valueOf given .lineEnding
  parallel := isGiven given .parallel
  exclude := valuesOf given .exclude

/-- The options that a subcommand has, and the task that they make. The subcommand for help may name
another one. -/
def taskOf (name : String) (rest : List String) : Except Stop (List Flag × (Given → Task)) :=
  if name = "apply" then .ok (applyLevel, fun given => .apply (applyOptions given))
  else if name = "list-formatters" then .ok (everyLevel, fun _ => .listRules)
  else if name = "init" then .ok (initLevel, fun given => .init (isGiven given .force))
  else if rest.length ≤ 1 ∧ rest.all subcommands.contains then .error .help
  else .error .usage

/-- What some arguments ask for, the environment possibly naming a settings file. -/
def readArguments (arguments : List String) (environment : Option String) :
    Except Stop Invocation := do
  let (top, command) ← readLevel topLevel subcommands none arguments []
  match command with
  | none => .error .usage
  | some (name, rest) =>
      let (level, task) ← taskOf name rest
      let (sub, _) ← readLevel level [] none rest []
      let settings ← settingsFile top sub environment
      return ⟨settings, task sub⟩

end Command

end LintRepair
