import BootConfig.Environment.File
import BootConfig.Fingerprint.Registry
import BootConfig.Journal.Setup
import BootConfig.Program
import BootConfig.Startup

/-!
# A run of the program

A run takes the variables of the environment file, starts up, reads the command line, sets up the
journal and serves its metrics. What it leaves behind is the state of its host, on which further
runs may follow.

* `Program.configure`: the settings in effect, or how the run ends without them.
* `Program.launch`: what is done with the settings.
* `Program.run`: both.

Some things are not described. Arguments are strings, so they hold no lone surrogates. No recursion
ends for lack of a stack. A file or a directory is open to the program or it is closed, and links
from one to another there are none. A server starts on every port.
-/

namespace BootConfig.Program

open Options (CommandLine)

/-- What outlives a run. -/
structure Host where
  environment : Environment
  files : FileTree
  /-- The names that lead to the directory where the program is. Its environment file is searched from
  there on. -/
  directory : List FileName
  journal : Journal
  registries : Registries

/-- How the program is invoked. -/
structure Invocation where
  args : List String
  /-- The registry that exports the fingerprint metric. -/
  registry : String
  /-- Whether a failed load is reported instead of ending the program. -/
  testMode : Bool
deriving DecidableEq, Inhabited

/-- Why the program exits. -/
inductive Reason where
  | load (e : LoadError LoadCause)
  | settings (issues : List Issue)

/-- Faults for which the program has no answer. -/
inductive Fault where
  | environmentFile (f : EnvironmentFile.Fault)
  | defaults (issues : List Issue)
  | metric (f : MetricFault)
  | load (e : LoadEscape)
  | options (c : Options.Conflict)
  | noFields (kind : String)
  | journal (f : Journal.SetupFault)

def Fault.message : Fault → String
  | .environmentFile f => f.message
  | .defaults _ => LoadCause.mark
  | .metric f => f.message
  | .load e => e.message
  | .options c => c.message
  | .noFields kind => Flags.noFieldsMessage kind
  | .journal f => f.message

/-- How a run ends. -/
inductive Ending where
  | returned (code : Nat)
  | exited (code : Nat) (reason : Option Reason)
  | failed (f : Fault)

/-- The host in the course of a run, and what has been written to the standard streams. -/
structure Progress where
  host : Host
  output : String
  diagnostics : String

namespace Progress

/-- The begin of a run. -/
def begin (host : Host) : Progress := ⟨host, "", ""⟩

def write (p : Progress) (s : String) : Progress := { p with output := p.output ++ s }

def complain (p : Progress) (s : String) : Progress := { p with diagnostics := p.diagnostics ++ s }

/-- Takes what the journal has written. All streams that it writes to are the diagnostic one. -/
def take (p : Progress) (d : Delivery) : Progress :=
  let written := d.texts.map fun t => t.2.shown
  { p with host := { p.host with files := d.files } }.complain (String.join written)

/-- Tells something. -/
def tell (m : Moment) (p : Progress) : Telling → Progress
  | .line s => p.complain (s ++ "\n")
  | .notice n => p.take (p.host.journal.deliver m p.host.files n)

def tellAll (m : Moment) (p : Progress) (ts : List Telling) : Progress := ts.foldl (tell m) p

/-- The width of lines on the standard streams. -/
def width (p : Progress) : Int := Options.lineWidth p.host.environment

end Progress

/-! ## Configuration -/

/-- The settings in effect, and the report of the startup. -/
structure Configured where
  config : Setting
  report : Startup.Report

/-- The environment with the variables of the environment file, if there is one. -/
def loadEnvironment (host : Host) : Environment × Option EnvironmentFile.Fault :=
  EnvironmentFile.loadNearest host.environment host.files host.directory

/-- The exit code for arguments that are refused. -/
def usageCode : Nat := 2

/-- Ends a run because arguments are refused. -/
def refuse {α : Type} (p : Progress) (c : CommandLine) (message : String)
    (reason : Option Reason) : Progress × Except Ending α :=
  (p.complain (c.complaint p.width message), .error (.exited usageCode reason))

/-- Reads the command line and applies its flags to the settings. -/
def applyCommandLine (p : Progress) (c : CommandLine) (config : Setting) (args : List String) :
    Progress × Except Ending Setting :=
  match c.read args with
  | .overview => (p.write (c.overviewText p.width), .error (.exited 0 none))
  | .version text => (p.write (CommandLine.versionText p.width text), .error (.exited 0 none))
  | .refused r => refuse p c r.message none
  | .settings as =>
    let a := Ingester.schema.applyFlags config as
    match a.stop with
    | none => (p, .ok a.config)
    | some (.refused issues) => refuse p c LoadCause.mark (some (.settings issues))
    | some (.noFields kind) => (p, .error (.failed (.noFields kind)))

/-- Tells which startup options have been located. Nothing else is told before the settings file is
read, which may be the very file that this is written to. -/
def announce (m : Moment) (p : Progress) (args : List String) : Progress :=
  p.tell m (.notice (Startup.locatedNotice (Locator.locate args)))

/-- The startup with the default settings and the metric of the registry. -/
def startUp (m : Moment) (p : Progress) (i : Invocation) (config : Setting) :
    Progress × Except Ending (Startup.Context × Startup.Report) :=
  match p.host.registries.share i.registry with
  | .error f => (p, .error (.failed (.metric f)))
  | .ok (registries, id) =>
    let p := announce m p i.args
    let c : Startup.Context := ⟨config, registries.metric id, commandLine⟩
    let o := Startup.run Ingester.schema p.host.files p.host.environment i.args i.testMode c
    let registries := registries.update id fun _ => o.context.metric
    -- the first that a startup tells has been told
    let p := { p with host := { p.host with registries } }.tellAll m o.tellings.tail
    match o.ending with
    | .reported r =>
      if r.state == .failed then (p, .error (.returned Startup.loadFailureCode))
      else (p, .ok (o.context, r))
    | .exit code why => (p, .error (.exited code (some (.load why))))
    | .escaped e => (p, .error (.failed (.load e)))
    | .conflict c => (p, .error (.failed (.options c)))

/-- The settings in effect, or how the run ends without them. -/
def configure (m : Moment) (host : Host) (i : Invocation) : Progress × Except Ending Configured :=
  let (environment, fault) := loadEnvironment host
  let p := Progress.begin { host with environment }
  match fault, Ingester.schema.defaults with
  | some f, _ => (p, .error (.failed (.environmentFile f)))
  | none, .error issues => (p, .error (.failed (.defaults issues)))
  | none, .ok defaults =>
    match startUp m p i defaults with
    | (p, .error e) => (p, .error e)
    | (p, .ok (c, report)) =>
      match applyCommandLine p c.commandLine c.config i.args with
      | (p, .error e) => (p, .error e)
      | (p, .ok config) => (p, .ok ⟨config, report⟩)

/-! ## Launch -/

/-- The value of a setting. -/
def scalarAt? (config : Setting) (group name : String) : Option Scalar :=
  ((config.get? group).bind fun g => g.get? name).bind Setting.scalar?

def textAt? (config : Setting) (group name : String) : Option Text :=
  match scalarAt? config group name with
  | some (.text t) => some t
  | _ => none

/-- The value of a setting whose values are words. -/
def wordAt (config : Setting) (group name : String) : String :=
  ((textAt? config group name).bind Text.toString?).getD ""

def intAt (config : Setting) (group name : String) : Int :=
  ((scalarAt? config group name).bind Scalar.asInt?).getD 0

def journalSettings (config : Setting) : Journal.Settings :=
  ⟨wordAt config "log" "level", wordAt config "log" "format", textAt? config "log" "file",
    ⟨intAt config "log" "rotation_size", intAt config "log" "retention_count"⟩, .diagnostics⟩

/-- The port where metrics are served; none if it is zero. -/
def metricsPort? (config : Setting) : Option Int :=
  let port := intAt config "server" "metrics_port"
  if port == 0 then none else some port

def mainOrigin : Origin := Origin.within "" "__main__" "main"

def mainNotice (message : String) : Telling := .notice ⟨Severity.info, mainOrigin, message⟩

/-- What is told about the settings file. -/
def fileNotice (r : Startup.Report) : Telling :=
  match r.fingerprint with
  | some fingerprint =>
    mainNotice s!"Using config file {r.options.configFile} (sha256={fingerprint})"
  | none => mainNotice "No config file given, using defaults"

def portNotice (port : Int) : Telling := mainNotice s!"Serving metrics on port {port}"

def launchNotice : Telling := mainNotice s!"Starting blockstore ingester {version}"

/-- What a run comes to. -/
structure Outcome where
  progress : Progress
  /-- The ports where the metrics of the registry are served from now on. -/
  served : List Int
  ending : Ending

/-- Sets up the journal and serves the metrics. -/
def launch (m : Moment) (p : Progress) (c : Configured) : Outcome :=
  let s := p.host.journal.setUp m p.host.files (journalSettings c.config)
  let p := { p with host := { p.host with journal := s.journal } }.take s.delivery
  match s.fault with
  | some f => ⟨p, [], .failed (.journal f)⟩
  | none =>
    let served := (metricsPort? c.config).toList
    let p := p.tellAll m (fileNotice c.report :: served.map portNotice ++ [launchNotice])
    ⟨p, served, .returned 0⟩

/-- A run. -/
def run (m : Moment) (host : Host) (i : Invocation) : Outcome :=
  match configure m host i with
  | (p, .error e) => ⟨p, [], e⟩
  | (p, .ok c) => launch m p c

end BootConfig.Program
