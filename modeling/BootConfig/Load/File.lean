import BootConfig.Data.Overlay
import BootConfig.Files
import BootConfig.Fingerprint.Metric
import BootConfig.Fingerprint.Sha256
import BootConfig.Load.Error
import BootConfig.Placeholder
import BootConfig.Schema.Check
import BootConfig.Yaml.Document

/-!
# Loading a settings file

A load reads a file, records its fingerprint, replaces placeholders if asked to, and lays the
document over the settings. The settings change only if everything that the document and the old
settings make together fits the schema.

* `Schema.absorb`: a document laid over settings.
* `Load.run`: a whole load, with the fingerprint and what is told about it.
-/

namespace BootConfig

/-- Why a load is reported as failed. -/
inductive LoadCause where
  | file (fault : FileFault) (path : Text)
  | document (e : Yaml.Error)
  | notMapping (kind : String)
  | mismatch (issues : List Issue)

namespace LoadCause

/-- What stands for a cause that has a report of its own. -/
def mark : String := "<cause>"

/-- A cause in a message of one line. -/
def describe : LoadCause → String
  | .file fault path => fault.message path
  | .document _ | .mismatch _ => mark
  | .notMapping kind => s!"top-level document must be a mapping, got {kind}"

end LoadCause

/-- Faults that are not reported as failed loads. -/
inductive LoadEscape where
  /-- A path with a NUL character. -/
  | nulInPath
  /-- A variable that cannot be written as bytes. -/
  | unwritable (u : Unwritable)
  /-- A scalar of the document whose text has no value of its kind. -/
  | scalar (f : Yaml.ScalarFault)
  /-- Settings that contain themselves. -/
  | endless
  /-- A setting that is refused although the whole was accepted. -/
  | refused (issues : List Issue)

namespace LoadEscape

/-- What is said of a value that contains itself where only a tree can be used. -/
def endlessMessage : String := "Circular reference detected (id repeated)"

def message : LoadEscape → String
  | .nulInPath => "embedded null byte"
  | .unwritable u => u.message
  | .scalar f => f.message
  | .endless => endlessMessage
  | .refused _ => LoadCause.mark

end LoadEscape

/-- Why a load fails. -/
inductive LoadFailure where
  | reported (e : LoadError LoadCause)
  | escaped (e : LoadEscape)

namespace LoadFailure

def unreadable (path : String) (fault : FileFault) : LoadFailure :=
  .reported ⟨.reading, path, some (.file fault (Pathname.ofString path).text), none⟩

/-- A file whose content is not acceptable. -/
def unacceptable (path : String) (cause : LoadCause) : LoadFailure :=
  .reported ⟨.parsing, path, some cause, none⟩

end LoadFailure

namespace Schema

/-- Gives each field what checked settings hold for it. Every field is checked once more; one that
is refused leaves it and the fields after it as they are. -/
def commitFields (s : Schema) (target checked : Setting) :
    List Field → Setting × Option (List Issue)
  | [] => (target, none)
  | f :: fs =>
    match checked.get? f.1.name with
    | none => commitFields s target checked fs
    | some v =>
      match s.assign target f.1.name v with
      | .ok target => commitFields s target checked fs
      | .error issues => (target, some issues)

/-- Gives all fields what checked settings hold for them. -/
def commit (s : Schema) (target checked : Setting) : Setting × Option (List Issue) :=
  commitFields s target checked s.fields

/-- Lays the entries of a document over settings. -/
def absorb (s : Schema) (path : String) (config : Setting) (upper : Entries) :
    Setting × Option LoadFailure :=
  match config.toValue?.bind Value.entries? with
  | none => (config, some (.escaped .endless))
  | some base =>
    match s.check (.map (Entries.overlay base upper)) with
    | .error issues => (config, some (.unacceptable path (.mismatch issues)))
    | .ok checked =>
      let (config, issues) := s.commit config checked
      (config, issues.map fun is => .escaped (.refused is))

end Schema

namespace Load

/-- A request to load. -/
structure Request where
  path : String
  /-- Whether placeholders are replaced. -/
  expand : Bool
deriving DecidableEq, Inhabited

/-- What a load comes to. -/
structure Outcome where
  config : Setting
  metric : Metric
  notices : List Notice
  /-- The fingerprint of the file, or why the load failed. -/
  result : Except LoadFailure String

def loadOrigin : Origin := Origin.within "config." "config_loader" "load"
def applyOrigin : Origin := Origin.within "config." "config_loader" "_apply"

def emptyNotice (path : String) : Notice :=
  ⟨Severity.debug, applyOrigin, s!"Config file {path} is empty, keeping current values"⟩

def loadedNotice (path fingerprint : String) : Notice :=
  ⟨Severity.info, loadOrigin, s!"Loaded config from {path} (sha256={fingerprint})"⟩

/-- Lays the content of a file over settings. -/
def apply (s : Schema) (path : String) (config : Setting) (content : Bytes) :
    Setting × List Notice × Option LoadFailure :=
  match Yaml.Document.ofBytes .unique content with
  | .error (.refused e) => (config, [], some (.unacceptable path (.document e)))
  | .error (.fault f) => (config, [], some (.escaped (.scalar f)))
  | .ok v =>
    match v.view with
    | .scalar .null => (config, [emptyNotice path], none)
    | .map upper =>
      let (config, failure) := s.absorb path config upper
      (config, [], failure)
    | _ => (config, [], some (.unacceptable path (.notMapping v.kindName)))

def readFile (files : FileTree) (path : String) : Except LoadFailure Bytes :=
  if path.toList.contains '\x00' then .error (.escaped .nulInPath)
  else match files.read (Pathname.ofString path) with
    | .ok content => .ok content
    | .error fault => .error (.unreadable path fault)

/-- A whole load. The fingerprint is that of the file as it was read, and is recorded before
anything is made of the content. -/
def run (s : Schema) (files : FileTree) (env : Environment) (r : Request) (config : Setting)
    (metric : Metric) : Outcome :=
  match readFile files r.path with
  | .error f => ⟨config, metric, [], .error f⟩
  | .ok content =>
    let fingerprint := Sha256.hex content
    let metric := metric.record fingerprint
    let recorded := Metric.recorded fingerprint
    let expanded := if r.expand then Placeholder.expand env content else .ok content
    match expanded with
    | .error u => ⟨config, metric, [recorded], .error (.escaped (.unwritable u))⟩
    | .ok content =>
      match apply s r.path config content with
      | (config, notices, some f) => ⟨config, metric, recorded :: notices, .error f⟩
      | (config, notices, none) =>
        ⟨config, metric, recorded :: notices ++ [loadedNotice r.path fingerprint],
          .ok fingerprint⟩

end Load

end BootConfig
