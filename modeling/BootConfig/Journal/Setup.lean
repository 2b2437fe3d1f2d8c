import BootConfig.Environment
import BootConfig.Journal.Layout
import BootConfig.Journal.Rotation
import BootConfig.Text.Case
import BootConfig.Text.Unwritable

/-!
# Journal

Where notices go: to the console and, if asked for, to a file. Until the journal is set up, grave
notices are shown as they are.

* `Journal.setUp`: the journal for some settings.
* `Journal.deliver`: what becomes of a notice.
-/

namespace BootConfig

/-- The streams that are written to besides files. The stream for diagnostics is always there; others
are opened for the purpose. -/
inductive Stream where
  | diagnostics
  | opened (number : Nat)
deriving DecidableEq, Inhabited

/-- Where a handler writes. -/
inductive Sink where
  | console (s : Stream)
  | file (names : List FileName) (policy : Rotation.Policy)
deriving DecidableEq, Inhabited

/-- A place where notices of some severity and above are written. -/
structure Handler where
  sink : Sink
  layout : Layout
  threshold : Severity
deriving DecidableEq, Inhabited

/-- The least severity that is of interest, and the places where notices are written. -/
structure Journal where
  threshold : Severity
  handlers : List Handler
deriving DecidableEq, Inhabited

/-- What has been written: the files afterwards, and texts on streams. -/
structure Delivery where
  files : FileTree
  texts : List (Stream × Text)

namespace Journal

/-- A journal that has not been set up. -/
def initial : Journal := ⟨0, []⟩

/-- The least severity that counts. Without one of its own the journal has that of warnings. -/
def effective (j : Journal) : Severity :=
  if j.threshold = 0 then Severity.warning else j.threshold

/-- Whether notices of a severity are of interest. -/
def enabled (j : Journal) (s : Severity) : Bool := 0 < s && j.effective ≤ s

/-! ## Delivery -/

/-- The bytes of a line in a file. A line with a surrogate cannot be written, and leaves nothing. What
is complained about it, with the calls that have led there, is left out. -/
def lineBytes (line : Text) : Bytes := (Utf8.encode? line).getD []

theorem lineBytes_ofString (line : String) : lineBytes line = Utf8.ofString line := by
  rw [lineBytes, Utf8.encode?_ofString, Option.getD_some]

/-- Writes a line to a file, which is rotated before if it is time. -/
def writeFile (t : FileTree) (names : List FileName) (p : Rotation.Policy) (line : Text) :
    FileTree :=
  let t := if Rotation.isDue p (t.content names).length line.length then Rotation.rotate p t names
    else t
  t.append names (lineBytes line)

def handle (m : Moment) (n : Notice) (d : Delivery) (h : Handler) : Delivery :=
  if n.severity < h.threshold then d
  else match h.sink with
    | .console s => { d with texts := d.texts ++ [(s, h.layout.consoleLine m n)] }
    | .file names policy => { d with files := writeFile d.files names policy (h.layout.fileLine m n) }

/-- Hands a notice to all handlers. Without handlers the message of a grave one is shown as it is. -/
def publish (j : Journal) (m : Moment) (files : FileTree) (n : Notice) : Delivery :=
  if j.handlers.isEmpty then
    if n.severity < Severity.warning then ⟨files, []⟩
    else ⟨files, [(.diagnostics, n.message ++ "\n")]⟩
  else j.handlers.foldl (handle m n) ⟨files, []⟩

/-- What becomes of a notice. -/
def deliver (j : Journal) (m : Moment) (files : FileTree) (n : Notice) : Delivery :=
  if j.enabled n.severity then j.publish m files n else ⟨files, []⟩

/-- What becomes of several notices. -/
def deliverAll (j : Journal) (m : Moment) (files : FileTree) (ns : List Notice) : Delivery :=
  ns.foldl (fun d n =>
    let next := j.deliver m d.files n
    ⟨next.files, d.texts ++ next.texts⟩) ⟨files, []⟩

/-! ## Setting up -/

/-- What a journal is set up with. -/
structure Settings where
  level : String
  format : String
  /-- The path of a log file. -/
  file : Option Text
  policy : Rotation.Policy
  /-- The stream that serves as the console. -/
  console : Stream
deriving DecidableEq, Inhabited

/-- What is in effect if nothing else is said. -/
def Settings.default : Settings := ⟨"INFO", "text", none, ⟨10485760, 5⟩, .diagnostics⟩

/-- Why a journal cannot be set up. -/
inductive SetupFault where
  /-- A name that stands for nothing. -/
  | unknownName (name : String)
  /-- A name that stands for a text other than that of a level. -/
  | notALevel (value : String)
  /-- A name that stands for neither a level nor a text. -/
  | notALevelName (shown : String)
  | file (f : FileTree.PathFault)
  /-- A path that cannot be written. -/
  | unwritablePath (u : Unwritable)
  /-- A path with a NUL character. -/
  | nulInPath
deriving DecidableEq, Inhabited

def SetupFault.message : SetupFault → String
  | .unknownName name => "module 'logging' has no attribute '" ++ name ++ "'"
  | .notALevel value => s!"Unknown level: {Quoted.ofString value}"
  | .notALevelName shown => s!"Level not an integer or a valid string: {shown}"
  | .file f => f.message
  | .unwritablePath u => u.message
  | .nulInPath => "embedded null byte"

def levels : List (String × Severity) := [
  ("CRITICAL", 50), ("FATAL", 50), ("ERROR", 40), ("WARNING", 30), ("WARN", 30), ("INFO", 20),
  ("DEBUG", 10), ("NOTSET", 0)]

/-- A name that stands for a pattern instead of a level. -/
def patternName : String := "BASIC_FORMAT"

def pattern : String := "%(levelname)s:%(name)s:%(message)s"

/-- A name that stands for a table of patterns instead of a level. -/
def patternTableName : String := "_STYLES"

/-- An entry of the table: the mark of a style, the kind of its patterns, and its first pattern. -/
def patternEntry (mark kind start : String) : String :=
  s!"{Quoted.ofString mark}: (<class 'logging.{kind}'>, {Quoted.ofString start})"

/-- The table as messages show it. -/
def patternTable : String :=
  "\x7b" ++ ", ".intercalate [
    patternEntry "%" "PercentStyle" pattern,
    patternEntry "\x7b" "StrFormatStyle" "\x7blevelname\x7d:\x7bname\x7d:\x7bmessage\x7d",
    patternEntry "$" "StringTemplateStyle" "$\x7blevelname\x7d:$\x7bname\x7d:$\x7bmessage\x7d"] ++
    "\x7d"

/-- The level that a name stands for, in any case. -/
def level (name : String) : Except SetupFault Severity :=
  let upper := (Text.ofString name).toUpper.lossy
  match levels.lookup upper with
  | some s => .ok s
  | none =>
    if upper == patternName then .error (.notALevel pattern)
    else if upper == patternTableName then .error (.notALevelName patternTable)
    else .error (.unknownName upper)

def layoutOf (format : String) : Layout := if format == "json" then .object else .text

def setupOrigin : Origin := ⟨Channel.root, "logger", "setup_logging"⟩

/-- What is told of a journal that has been set up. -/
def setupNotices (s : Settings) : List Notice :=
  let begun := Notice.mk Severity.debug setupOrigin s!"Logging initialized at {s.level} level"
  match s.file with
  | some path =>
    if path.isEmpty then [begun]
    else [begun, ⟨Severity.debug, setupOrigin, "File logging enabled: " ++ path⟩]
  | none => [begun]

/-- Why a path is refused before it is followed. -/
def pathFault? (path : Text) : Option SetupFault :=
  if path.isUnwritable then some (.unwritablePath ⟨path⟩)
  else if path.points.any (·.val == 0) then some .nulInPath
  else none

/-- Opens a log file after its directory has been made. What has been made stays, also if the file
cannot be opened. -/
def openLog (files : FileTree) (path : Text) : FileTree × Except SetupFault (List FileName) :=
  let p := Pathname.ofText path
  match pathFault? p.parent.text with
  | some f => (files, .error f)
  | none =>
    match files.makeDirectories p.parent with
    | (files, some f) => (files, .error (.file f))
    | (files, none) =>
      match pathFault? (files.absolute p).text with
      | some f => (files, .error f)
      | none =>
        match files.openFile p with
        | .ok (files, names) => (files, .ok names)
        | .error f => (files, .error (.file f))

/-- What setting up a journal comes to. -/
structure Setup where
  journal : Journal
  delivery : Delivery
  fault : Option SetupFault

/-- Sets up a journal. A level without meaning leaves the old journal; a file that cannot be opened
leaves a journal that writes to the console alone. -/
def setUp (j : Journal) (m : Moment) (files : FileTree) (s : Settings) : Setup :=
  match level s.level with
  | .error f => ⟨j, ⟨files, []⟩, some f⟩
  | .ok threshold =>
    let layout := layoutOf s.format
    let consoleOnly : Journal := ⟨threshold, [⟨.console s.console, layout, threshold⟩]⟩
    match s.file with
    | none => ⟨consoleOnly, consoleOnly.deliverAll m files (setupNotices s), none⟩
    | some path =>
      if path.isEmpty then
        ⟨consoleOnly, consoleOnly.deliverAll m files (setupNotices s), none⟩
      else match openLog files path with
        | (files, .error f) => ⟨consoleOnly, ⟨files, []⟩, some f⟩
        | (files, .ok names) =>
          let j : Journal := ⟨threshold,
            [⟨.console s.console, layout, threshold⟩, ⟨.file names s.policy, layout, threshold⟩]⟩
          ⟨j, j.deliverAll m files (setupNotices s), none⟩

end Journal

end BootConfig
