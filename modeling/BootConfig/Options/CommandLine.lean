import BootConfig.Environment
import BootConfig.Options.Conversion
import BootConfig.Options.Overview

/-!
# Command line

The command line of a program: its options with what they are for, the reading of an argument list,
and the texts that the program answers with.

* `CommandLine.declare`: one more option, unless a spelling is taken.
* `CommandLine.read`: what an argument list asks for.
* `CommandLine.usageText`, `CommandLine.overviewText`, `CommandLine.versionText`,
  `CommandLine.complaint`: the answers.
-/

namespace BootConfig.Options

/-- What an option is for. -/
inductive Purpose where
  /-- Shows the overview of the options. -/
  | help
  /-- Shows the version of the program. -/
  | version (text : String)
  /-- Sets the setting at a dotted path. -/
  | setting (path : String)
  /-- Is read and has no effect. -/
  | ignored
deriving DecidableEq, Inhabited

/-- What is known about an option besides its grammar. -/
structure OptionMeaning where
  purpose : Purpose
  conversion : Conversion
  /-- What stands for a value in the overview, unless it is derived from the option. -/
  placeholder? : Option String
  help : Option String
deriving Inhabited

abbrev CommandOption := OptionForm OptionMeaning

/-- Values given for dotted paths, in the order in which the paths were first given. -/
abbrev Assignments := List (String × Value)

/-- Gives a value for a path, in place of an older one. -/
def Assignments.put (as : Assignments) (path : String) (v : Value) : Assignments :=
  match as with
  | [] => [(path, v)]
  | a :: rest => if a.1 == path then (path, v) :: rest else a :: Assignments.put rest path v

/-- Why an argument list is refused. -/
inductive Refusal where
  | grammar (f : GrammarFault)
  | value (spellings : List String) (f : ConversionFault)
  | unrecognized (args : List String)

def Refusal.message : Refusal → String
  | .grammar f => f.message
  | .value spellings f => s!"{optionName spellings}: {f.message}"
  | .unrecognized args =>
    let listed := " ".intercalate args
    s!"unrecognized arguments: {listed}"

/-- What an argument list asks for. -/
inductive Request where
  | settings (as : Assignments)
  | overview
  | version (text : String)
  | refused (r : Refusal)

/-- An option that cannot be declared because some of its spellings are taken. -/
structure Conflict where
  spellings : List String
  taken : List String
deriving DecidableEq

def Conflict.message (c : Conflict) : String :=
  let plural := if c.taken.length == 1 then "" else "s"
  let listed := ", ".intercalate c.taken
  s!"{optionName c.spellings}: conflicting option string{plural}: {listed}"

/-- A program with its options. -/
structure CommandLine where
  program : String
  description : Option String
  options : Table OptionMeaning

/-- The option that shows the overview. -/
def helpOption : CommandOption :=
  ⟨["-h", "--help"], .none, ⟨.help, .text, none, some "show this help message and exit"⟩⟩

def versionOption (text : String) : CommandOption :=
  ⟨["--version"], .none,
    ⟨.version text, .text, none, some "show program's version number and exit"⟩⟩

namespace CommandOption

/-- What stands for a value of the option: the choices if there are some, and else its path in upper
case. -/
def placeholder (o : CommandOption) : String :=
  match o.meaning.placeholder?, o.meaning.conversion, o.meaning.purpose with
  | some p, _, _ => p
  | none, .member e, _ =>
    let choices := ",".intercalate (e.members.map fun m => m.plain.lossy)
    "\x7b" ++ choices ++ "\x7d"
  | none, _, .setting path => (Text.ofString path).toUpper.lossy
  | none, _, _ => ""

def entry (o : CommandOption) : Entry :=
  ⟨o.spellings, o.arity, placeholder o, o.meaning.help⟩

end CommandOption

namespace CommandLine

/-- A program that has but the option for help. -/
def new (program : String) (description : Option String) : CommandLine :=
  ⟨program, description, [helpOption]⟩

/-- Declares one more option, unless a spelling of it is taken. -/
def declare (c : CommandLine) (o : CommandOption) : Except Conflict CommandLine :=
  let taken := o.spellings.filter fun s => (find? c.options s).isSome
  if taken.isEmpty then .ok { c with options := c.options ++ [o] }
  else .error ⟨o.spellings, taken⟩

def declareAll (c : CommandLine) (os : List CommandOption) : Except Conflict CommandLine :=
  os.foldlM declare c

/-! ## Reading -/

/-- Does what options ask for, one after the other; the first request other than a setting ends
it. -/
def follow (as : Assignments) : List (Occurrence OptionMeaning) → Except Request Assignments
  | [] => .ok as
  | o :: rest =>
    match o.option.meaning.purpose with
    | .help => .error .overview
    | .version text => .error (.version text)
    | .setting path =>
      match o.option.meaning.conversion.readAll o.option.arity o.values with
      | .ok v => follow (as.put path v) rest
      | .error f => .error (.refused (.value o.option.spellings f))
    | .ignored =>
      match o.option.meaning.conversion.readAll o.option.arity o.values with
      | .ok _ => follow as rest
      | .error f => .error (.refused (.value o.option.spellings f))

/-- What an argument list asks for. A fault in it counts only if nothing before it ends the
reading. -/
def read (c : CommandLine) (args : List String) : Request :=
  match scan c.options true args with
  | .error f => .refused (.grammar f)
  | .ok s =>
    match follow [] s.occurrences with
    | .error r => r
    | .ok as =>
      match s.fault with
      | some f => .refused (.grammar f)
      | none => if s.leftover.isEmpty then .settings as else .refused (.unrecognized s.leftover)

/-! ## Texts -/

def entries (c : CommandLine) : List Entry := c.options.map CommandOption.entry

def usageText (c : CommandLine) (width : Int) : String :=
  Overview.usage c.program width c.entries ++ "\n"

/-- The overview of the options. -/
def overviewText (c : CommandLine) (width : Int) : String :=
  Overview.text c.program c.description width c.entries

/-- The answer to a request for the version. -/
def versionText (width : Int) (version : String) : String :=
  Overview.paragraph width version ++ "\n"

/-- The answer to arguments that are refused. -/
def complaint (c : CommandLine) (width : Int) (message : String) : String :=
  c.usageText width ++ s!"{c.program}: error: {message}\n"

end CommandLine

/-- Lines are this wide if nothing else is known. -/
def defaultColumns : Int := 80

/-- The width of lines in an environment: what its variable for the number of columns says, less a
margin. -/
def lineWidth (env : Environment) : Int :=
  let told := (env.get? (Text.ofString "COLUMNS")).bind fun t => (Numeral.int 10 t).toOption
  let columns := match told with
    | some n => if 0 < n then n else defaultColumns
    | none => defaultColumns
  columns - 2

end BootConfig.Options
