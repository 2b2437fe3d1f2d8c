import BootConfig.Program.Run
import Std.Time

/-!
# Command line

The program on a machine. The environment, the time and the files that a run may touch are read, the
run is computed, and what it has written is written out.

* `main`: one run, with the exit code.
-/

namespace BootConfig.Program

/-- The names that a path of the machine consists of. -/
def namesOf (path : String) : List FileName := (Pathname.ofString path).names

/-- A path of the machine that names from the root on lead along, if it is a string. -/
def pathOf? (names : List FileName) : Option String := (FileTree.pathTo names).text.toString?

/-- The environment of the process; an empty one if it cannot be read. -/
def readEnvironment : IO Environment := do
  try return Environment.ofBlock (← IO.FS.readBinFile "/proc/self/environ").toList
  catch _ => return Environment.empty

/-- Adds what names lead to, if it is a directory or a file. Below a file there is nothing. What
cannot be read is left out unless it is taken for a closed file. -/
def addNames (closed : Bool) (t : FileTree) (names : List FileName) : IO FileTree := do
  if names.foldlM t.follow [] matches .error .notDirectory then return t
  let some path := pathOf? names | return t
  try return t.put names (.file (← IO.FS.readBinFile path).toList)
  catch
    | .inappropriateType .. => return t.put names .directory
    | .permissionDenied .. => return if closed then t.put names .closedFile else t
    | _ => return t

/-- Adds what names lead to and what stands on the way there. -/
def addPath (t : FileTree) (names : List FileName) : IO FileTree := do
  let above := (List.range (names.length - 1)).map fun k => names.take (k + 1)
  addNames true (← above.foldlM (addNames false) t) names

/-- Adds a log file and the ones that were put aside for it. -/
def addLog (t : FileTree) (s : Journal.Settings) : IO FileTree := do
  match s.file with
  | none => return t
  | some path =>
    let names := t.absoluteNames (Pathname.ofText path)
    let aside := (List.range s.policy.keep.toNat).map fun i =>
      names.dropLast ++ [Rotation.aside (names.getLastD "") (i + 1)]
    (names :: aside).foldlM addPath t

def makeDirectories (names : List FileName) : IO Unit := do
  if let some path := pathOf? names then IO.FS.createDirAll path

/-- Writes a file, after the directories before it have been made. -/
def writeNames (names : List FileName) (content : Bytes) : IO Unit := do
  makeDirectories names.dropLast
  if let some path := pathOf? names then IO.FS.writeBinFile path ⟨content.toArray⟩

def writeChanges (before after : FileTree) : IO Unit :=
  after.entries.forM fun (names, node) => do
    if before.node? names != some node then
      match node with
      | .file content => writeNames names content
      | .directory => makeDirectories names
      | .closedFile | .closedDirectory => pure ()

def currentMoment : IO Moment := do
  let now ← Std.Time.PlainDateTime.now
  return ⟨now.format "uuuu-MM-dd", now.format "HH:mm:ss", now.format "SSS"⟩

/-- The exit code, and what is said about a fault. -/
def Ending.summary : Ending → UInt32 × String
  | .returned code | .exited code _ => (UInt32.ofNat code, "")
  | .failed f => (1, f.message ++ "\n")

end BootConfig.Program

open BootConfig Program in
/-- Runs the program. The ports where metrics are to be served are announced, and not opened. -/
def main (args : List String) : IO UInt32 := do
  let moment ← currentMoment
  let located := (Locator.locate args).configFile
  let home := FileTree.empty (namesOf (toString (← IO.currentDir)))
  let directory := namesOf (toString (← IO.appDir))
  let touched := home.absoluteNames (Pathname.ofString located) ::
    (EnvironmentFile.directories directory).map (· ++ [EnvironmentFile.fileName])
  let host : Host := ⟨← readEnvironment, (← touched.foldlM addPath home).put directory .directory,
    directory, Journal.initial, Registries.empty⟩
  let invocation : Invocation := ⟨args, "", false⟩
  let files ← match (configure moment host invocation).2 with
    | .ok c => addLog host.files (journalSettings c.config)
    | .error _ => pure host.files
  let o := Program.run moment { host with files } invocation
  writeChanges files o.progress.host.files
  let (code, complaint) := o.ending.summary
  (← IO.getStdout).putStr o.progress.output
  (← IO.getStderr).putStr (o.progress.diagnostics ++ complaint)
  return code
