import BootConfig.Startup

/-!
# Sessions

Settings in effect in the course of time: they are loaded from files, assigned and given by flags,
while files and variables change around them.

* `Session.Step`: what happens in a session.
* `Session.step`: the session after a step, what was told, and what came of the step.
* `Session.after`: the session after several steps.
-/

namespace BootConfig

open Options (Assignments CommandLine)

/-- Settings in effect, the fingerprint of the file that was read last, and what surrounds them. -/
structure Session where
  schema : Schema
  config : Setting
  metric : Metric
  files : FileTree
  environment : Environment

namespace Session

/-- A session with the default settings and no fingerprint. -/
def begin (schema : Schema) (files : FileTree) (environment : Environment) : Checked Session :=
  schema.defaults.map fun config => ⟨schema, config, Metric.new, files, environment⟩

/-- What happens in a session. -/
inductive Step where
  | load (r : Load.Request)
  /-- A file or a directory takes the place at a path below the working directory. -/
  | write (path : Pathname) (node : FileNode)
  /-- A variable gets a value, or is removed. -/
  | setVariable (name : Text) (value : Option Text)
  /-- A value is assigned to the field that names lead to. Values are data: to a section a mapping is
  assigned, and no section that has been made before, checked or unchecked. -/
  | assign (names : List String) (v : Value)
  /-- Values are assigned to fields by their paths. They are data as well. -/
  | applyFlags (as : Assignments)
  | record (fingerprint : String)
  | reset
  /-- A startup with some arguments, whose options are declared on a command line. -/
  | start (args : List String) (testMode : Bool) (c : CommandLine)

/-- What comes of a step. -/
inductive Result where
  | done
  | loaded (r : Except LoadFailure String)
  | notAssigned (f : Schema.AssignFault)
  | applied (as : Assignments) (stop : Option Flags.Stop)
  | started (c : CommandLine) (e : Startup.Ending)

/-- What a step comes to. -/
structure Outcome where
  session : Session
  tellings : List Telling
  result : Result

/-- The environment with a variable set or removed. -/
def changeVariable (env : Environment) (name : Text) : Option Text → Environment
  | some value => env.insert name value
  | none => env.erase name

def step (s : Session) : Step → Outcome
  | .load r =>
    let o := Load.run s.schema s.files s.environment r s.config s.metric
    ⟨{ s with config := o.config, metric := o.metric }, o.notices.map Telling.notice,
      .loaded o.result⟩
  | .write path node =>
    ⟨{ s with files := s.files.put (s.files.home ++ path.names) node }, [], .done⟩
  | .setVariable name value =>
    ⟨{ s with environment := changeVariable s.environment name value }, [], .done⟩
  | .assign names v =>
    match s.schema.assignAt s.config v names with
    | .ok config => ⟨{ s with config }, [], .done⟩
    | .error f => ⟨s, [], .notAssigned f⟩
  | .applyFlags as =>
    let a := s.schema.applyFlags s.config as
    ⟨{ s with config := a.config }, [], .applied a.applied a.stop⟩
  | .record fingerprint =>
    ⟨{ s with metric := s.metric.record fingerprint }, [.notice (Metric.recorded fingerprint)],
      .done⟩
  | .reset => ⟨{ s with metric := s.metric.reset }, [], .done⟩
  | .start args testMode c =>
    let o := Startup.run s.schema s.files s.environment args testMode ⟨s.config, s.metric, c⟩
    ⟨{ s with config := o.context.config, metric := o.context.metric }, o.tellings,
      .started o.context.commandLine o.ending⟩

/-- The session after several steps. -/
def after (s : Session) (steps : List Step) : Session :=
  steps.foldl (fun s e => (s.step e).session) s

end Session

end BootConfig
