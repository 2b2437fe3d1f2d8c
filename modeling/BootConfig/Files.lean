import BootConfig.Text.Quoted

/-!
# Files

Files and directories as a value: the names that lead to them from the root, and those that lead to
the working directory. A path is followed name by name, so that every name before the last has to
lead to a directory. Names are bytes and paths are texts. Permission is there or not: what is closed
can neither be read, nor written to, nor passed through, and any other file or directory can.

* `Pathname.ofText`: a path with its empty parts and single dots removed.
* `FileTree.read`: the content of the file at a path, or why there is none.
* `FileTree.makeDirectories`: directories are made as far as they are missing.
* `FileTree.openFile`, `FileTree.append`: a file is made if it is missing, and written to its end.
-/

namespace BootConfig

/-- A name in a directory. -/
structure FileName where
  bytes : Bytes
deriving DecidableEq, Inhabited

namespace FileName

/-- The name that is written for a text. One that cannot be written is refused before it comes to a
name. -/
def ofText (t : Text) : FileName := ⟨(Utf8.encodeEscaped t).getD []⟩

instance : Coe String FileName := ⟨fun s => ofText (Text.ofString s)⟩

/-- The name of the directory above. -/
def up : FileName := ".."

/-- The text that a name is read as. -/
def text (n : FileName) : Text := Utf8.decodeEscaped n.bytes

/-- The number of bytes. -/
def size (n : FileName) : Nat := n.bytes.length

end FileName

/-- A path: its root, which is empty for a relative path, and its parts. -/
structure Pathname where
  root : String
  parts : List Text
deriving DecidableEq, Inhabited

namespace Pathname

/-- The parts of a text between slashes. -/
def cutAtSlashes : List CodePoint → List (List CodePoint)
  | [] => [[]]
  | c :: cs =>
    if c == CodePoint.ofChar '/' then [] :: cutAtSlashes cs
    else match cutAtSlashes cs with
      | [] => [[c]]
      | s :: ss => (c :: s) :: ss

/-- The root of a path. Two slashes in front, and no more, are a root of their own. -/
def rootOf (t : Text) : String :=
  match (t.points.takeWhile (· == CodePoint.ofChar '/')).length with
  | 0 => ""
  | 2 => "//"
  | _ => "/"

/-- A path without empty parts and single dots. -/
def ofText (t : Text) : Pathname :=
  let parts := (cutAtSlashes t.points).map Text.mk
  ⟨rootOf t, parts.filter fun p => p != "" && p != "."⟩

def ofString (s : String) : Pathname := ofText s

/-- The path as it is written; one without parts is a dot. -/
def text (p : Pathname) : Text :=
  match p.root, p.parts with
  | "", [] => "."
  | root, parts => root ++ Text.intercalate "/" parts

def parent (p : Pathname) : Pathname := { p with parts := p.parts.dropLast }

def names (p : Pathname) : List FileName := p.parts.map FileName.ofText

end Pathname

/-- Why a path does not lead to a file. -/
inductive FileFault where
  | missing
  | denied
  | exists
  | notDirectory
  | isDirectory
  | nameTooLong
deriving DecidableEq, Inhabited

namespace FileFault

def code : FileFault → Nat
  | .missing => 2
  | .denied => 13
  | .exists => 17
  | .notDirectory => 20
  | .isDirectory => 21
  | .nameTooLong => 36

def reason : FileFault → String
  | .missing => "No such file or directory"
  | .denied => "Permission denied"
  | .exists => "File exists"
  | .notDirectory => "Not a directory"
  | .isDirectory => "Is a directory"
  | .nameTooLong => "File name too long"

def message (f : FileFault) (path : Text) : String :=
  s!"[Errno {f.code}] {f.reason}: {Quoted.ofText path}"

end FileFault

/-- What names lead to. -/
inductive FileNode where
  | file (content : Bytes)
  | directory
  /-- A file without permission. -/
  | closedFile
  /-- A directory without permission. -/
  | closedDirectory
deriving DecidableEq, Inhabited

namespace FileNode

def isDirectory : FileNode → Bool
  | .directory | .closedDirectory => true
  | .file _ | .closedFile => false

end FileNode

/-- Files and directories by the names that lead to them from the root. -/
structure FileTree where
  /-- The names that lead to the working directory. -/
  home : List FileName
  entries : List (List FileName × FileNode)
deriving DecidableEq, Inhabited

namespace FileTree

/-- A working directory with nothing in it. -/
def empty (home : List FileName) : FileTree := ⟨home, []⟩

/-- What names lead to. The working directory and the directories above it are always there. -/
def node? (t : FileTree) (names : List FileName) : Option FileNode :=
  if names.isPrefixOf t.home then some .directory else t.entries.lookup names

def start (t : FileTree) (p : Pathname) : List FileName := if p.root == "" then t.home else []

/-- Longest names and paths, in bytes. -/
def maxName : Nat := 255
def maxPath : Nat := 4095

/-- Follows one more name. What the names before lead to has to be a directory. -/
def follow (t : FileTree) (names : List FileName) (name : FileName) :
    Except FileFault (List FileName) :=
  match t.node? names with
  | none => .error .missing
  | some .closedDirectory => .error .denied
  | some .directory =>
    if name == .up then .ok names.dropLast
    else if maxName < name.size then .error .nameTooLong
    else .ok (names ++ [name])
  | some (.file _) | some .closedFile => .error .notDirectory

/-- Where a path leads. -/
def locate (t : FileTree) (p : Pathname) : Except FileFault (List FileName) :=
  if maxPath < (FileName.ofText p.text).size then .error .nameTooLong
  else p.names.foldlM t.follow (t.start p)

/-- The content of the file that names lead to. -/
def readNames (t : FileTree) (names : List FileName) : Except FileFault Bytes :=
  match t.node? names with
  | none => .error .missing
  | some (.file content) => .ok content
  | some .directory => .error .isDirectory
  | some .closedFile | some .closedDirectory => .error .denied

def read (t : FileTree) (p : Pathname) : Except FileFault Bytes := t.locate p >>= t.readNames

/-- What names from the root on lead to, as far as they can be followed. -/
def reached? (t : FileTree) (names : List FileName) : Option FileNode :=
  match names.foldlM t.follow [] with
  | .ok names => t.node? names
  | .error _ => none

/-- Whether names from the root on lead to a file. -/
def isFile (t : FileTree) (names : List FileName) : Bool :=
  (t.reached? names).any fun n => !n.isDirectory

/-- Binds names, in place of an older binding. -/
def bind (t : FileTree) (names : List FileName) (n : FileNode) : FileTree :=
  { t with entries := (t.entries.filter fun e => e.1 != names) ++ [(names, n)] }

/-- Makes the directory that names lead to, unless something is there. -/
def ensure (t : FileTree) (names : List FileName) : FileTree :=
  if (t.node? names).isSome then t else t.bind names .directory

/-- Binds names after the directories before them have been made. -/
def put (t : FileTree) (names : List FileName) (n : FileNode) : FileTree :=
  ((List.range names.length).foldl (fun t k => t.ensure (names.take k)) t).bind names n

/-! ## Writing -/

structure PathFault where
  fault : FileFault
  path : Text
deriving DecidableEq, Inhabited

def PathFault.message (f : PathFault) : String := f.fault.message f.path

/-- Whether a path leads to a directory. -/
def isDirectory (t : FileTree) (p : Pathname) : Bool :=
  match t.locate p with
  | .ok names => (t.node? names).any FileNode.isDirectory
  | .error _ => false

def makeDirectory (t : FileTree) (p : Pathname) : Except FileFault FileTree := do
  let names ← t.locate p
  if (t.node? names).isSome then .error .exists else .ok (t.bind names .directory)

/-- Makes one directory, unless it is there. -/
def ensureDirectory (t : FileTree) (p : Pathname) : FileTree × Option PathFault :=
  match t.makeDirectory p with
  | .ok t => (t, none)
  | .error f => (t, if t.isDirectory p then none else some ⟨f, p.text⟩)

/-- Makes the directory at a path with `depth` parts and, if one of those before it is missing, the
directories before it. Those that have been made stay, also if the next one cannot be made. -/
def makeDirectoriesFrom (t : FileTree) (p : Pathname) : Nat → FileTree × Option PathFault
  | 0 => t.ensureDirectory p
  | depth + 1 =>
    match t.makeDirectory p with
    | .error .missing =>
      match makeDirectoriesFrom t p.parent depth with
      | (t, none) => t.ensureDirectory p
      | (t, some f) => (t, some f)
    | _ => t.ensureDirectory p

/-- Makes the directories of a path as far as they are missing. -/
def makeDirectories (t : FileTree) (p : Pathname) : FileTree × Option PathFault :=
  t.makeDirectoriesFrom p p.parts.length

/-- Takes a step along names, or along the texts of names, without looking where it leads. -/
def step {α : Type} [BEq α] (up : α) (names : List α) (name : α) : List α :=
  if name == up then names.dropLast else names ++ [name]

/-- The names from the root on that a path stands for, with the steps up taken. -/
def absoluteNames (t : FileTree) (p : Pathname) : List FileName :=
  (t.start p ++ p.names).foldl (step .up) []

/-- A path from the root on, with the steps up taken. -/
def absolute (t : FileTree) (p : Pathname) : Pathname :=
  ⟨if p.root == "" then "/" else p.root,
    ((t.start p).map FileName.text ++ p.parts).foldl (step "..") []⟩

/-- Names from the root on as a path. -/
def pathTo (names : List FileName) : Pathname := ⟨"/", names.map FileName.text⟩

/-- Opens the file that names lead to, and makes it if it is missing. -/
def openNames (t : FileTree) (names : List FileName) : Except FileFault FileTree := do
  let names ← names.foldlM t.follow []
  match t.node? names with
  | none => .ok (t.bind names (.file []))
  | some (.file _) => .ok t
  | some .closedFile => .error .denied
  | some .directory | some .closedDirectory => .error .isDirectory

/-- Opens the file at a path. Steps up are removed from the path before it is followed. -/
def openFile (t : FileTree) (p : Pathname) : Except PathFault (FileTree × List FileName) :=
  let path := (t.absolute p).text
  let names := t.absoluteNames p
  if maxPath < (FileName.ofText path).size then .error ⟨.nameTooLong, path⟩
  else match t.openNames names with
    | .ok t => .ok (t, names)
    | .error f => .error ⟨f, path⟩

/-- The content of the file that names lead to; nothing if there is none. -/
def content (t : FileTree) (names : List FileName) : Bytes := (t.readNames names).toOption.getD []

def append (t : FileTree) (names : List FileName) (bytes : Bytes) : FileTree :=
  t.bind names (.file (t.content names ++ bytes))

end FileTree

end BootConfig
