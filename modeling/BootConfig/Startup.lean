import BootConfig.Flags
import BootConfig.Load.File

/-!
# Startup

The first steps of a program: the startup options are located, the settings file that they name is
loaded, and the startup options are declared among the others, so that they are accepted when the
whole command line is read.

* `Startup.run`: these steps, and what they come to.
-/

namespace BootConfig.Startup

open Options (CommandLine Conflict)

/-- How the startup ends. -/
inductive State where
  | defaultsOnly
  | defaultsMerged
  | failed
deriving DecidableEq, Inhabited

namespace State

def word : State → String
  | .defaultsOnly => "defaults_only"
  | .defaultsMerged => "defaults_merged"
  | .failed => "failed"

end State

/-- What a startup that comes to its end reports. -/
structure Report where
  state : State
  options : StartupOptions
  /-- The fingerprint of the settings file. -/
  fingerprint : Option String
  failure : Option (LoadError LoadCause)

/-- The ways in which a startup ends. -/
inductive Ending where
  | reported (r : Report)
  /-- The program exits because of a failed load. -/
  | exit (code : Nat) (why : LoadError LoadCause)
  | escaped (e : LoadEscape)
  | conflict (c : Conflict)

/-- The state of things that a startup works on. -/
structure Context where
  config : Setting
  metric : Metric
  commandLine : CommandLine

/-- What a startup comes to. -/
structure Outcome where
  context : Context
  tellings : List Telling
  ending : Ending

def loadFailureCode : Nat := 1

def truthName (b : Bool) : String := if b then "True" else "False"

/-- What is told about the options that were located. -/
def locatedNotice (o : StartupOptions) : Notice :=
  let path := Quoted.ofString o.configFile
  let expand := truthName o.expandEnv
  ⟨Severity.debug, Origin.within "config." "locator" "parse_config_file_parameter",
    s!"Located bootstrap options: BootstrapOptions(config_file={path}, expand_env={expand})"⟩

def noFileNotice : Notice :=
  ⟨Severity.debug, Origin.within "core." "bootstrap" "bootstrap",
    "No config file specified, using defaults"⟩

def failureNotice (message : String) : Notice :=
  ⟨Severity.error, Origin.within "core." "bootstrap" "_handle_failure", message⟩

/-- The line about a failed load. -/
def failureLine (o : StartupOptions) (e : LoadError LoadCause) : String :=
  s!"error loading config from {o.configFile}: {e.message LoadCause.describe}"

/-- Declares the startup options at the end of a startup that has not failed. -/
def declare (c : Context) (r : Report) : Context × Ending :=
  match c.commandLine.declareAll Flags.startupOptions with
  | .ok commandLine => ({ c with commandLine }, .reported r)
  | .error conflict => (c, .conflict conflict)

/-- How a failed load ends the startup: with a report in test mode, and else with an exit. The
fingerprint is reported if the file could be read. -/
def onFailure (testMode : Bool) (o : StartupOptions) (metric : Metric) (e : LoadError LoadCause) :
    Ending :=
  if testMode then
    let fingerprint := if e.stage == .reading then none else metric.current
    .reported ⟨.failed, o, fingerprint, some e⟩
  else .exit loadFailureCode e

/-- A startup. -/
def run (s : Schema) (files : FileTree) (env : Environment) (args : List String) (testMode : Bool)
    (c : Context) : Outcome :=
  let o := Locator.locate args
  let located := locatedNotice o
  if o.configFile.isEmpty then
    let (c, ending) := declare c ⟨.defaultsOnly, o, none, none⟩
    ⟨c, [.notice located, .notice noFileNotice], ending⟩
  else
    let load := Load.run s files env ⟨o.configFile, o.expandEnv⟩ c.config c.metric
    let c := { c with config := load.config, metric := load.metric }
    let told := (located :: load.notices).map Telling.notice
    match load.result with
    | .ok fingerprint =>
      let (c, ending) := declare c ⟨.defaultsMerged, o, some fingerprint, none⟩
      ⟨c, told, ending⟩
    | .error (.reported e) =>
      let line := failureLine o e
      ⟨c, told ++ [.line line, .notice (failureNotice line)], onFailure testMode o c.metric e⟩
    | .error (.escaped e) => ⟨c, told, .escaped e⟩

end BootConfig.Startup
