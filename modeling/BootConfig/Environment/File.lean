import BootConfig.Environment
import BootConfig.Files
import BootConfig.Text.Blank

/-!
# Environment files

A file with assignments `NAME=value`, one on a line, for variables that the environment lacks. A
value may stand in quotes, may refer to other variables as `${NAME}`, and may be followed by a
comment.

* `EnvironmentFile.assignments`: the assignments of a file. A line that is none is passed over.
* `EnvironmentFile.resolve`: the values with the variables that they refer to.
* `EnvironmentFile.load`: the environment with the variables that it lacked.
* `EnvironmentFile.nearest?`: the file that belongs to a directory.
-/

namespace BootConfig.EnvironmentFile

open Blank (isBlankChar)

/-- A name and its value. A name that stands alone has none. -/
structure Assignment where
  name : String
  value : Option String
deriving DecidableEq, Inhabited

/-! ## Parts of a line

Each part is read from the rest of the file. -/

/-- All kinds of line breaks become one. -/
def unifyBreaks : List Char → List Char
  | [] => []
  | '\r' :: '\n' :: cs => '\n' :: unifyBreaks cs
  | c :: cs => (if c == '\r' then '\n' else c) :: unifyBreaks cs

/-- Blanks other than a line break. -/
def isInlineBlank (c : Char) : Bool := isBlankChar c && c != '\n'

def skipInline (cs : List Char) : List Char := cs.dropWhile isInlineBlank

/-- What comes after the line. -/
def nextLine (cs : List Char) : List Char := (cs.dropWhile (· != '\n')).drop 1

/-- A word that may stand before a name. -/
def exportWord : List Char := "export".toList

/-- What comes after the word before a name, if it is there. -/
def skipExport (cs : List Char) : List Char :=
  let rest := cs.drop exportWord.length
  if exportWord.isPrefixOf cs && (rest.head?.map isInlineBlank).getD false then skipInline rest
  else cs

/-- A character of a name without quotes. -/
def isNameChar (c : Char) : Bool := !isBlankChar c && c != '=' && c != '#'

/-- A name, and what comes after it. A comment stands for no name. -/
def name? (cs : List Char) : Option (Option String × List Char) :=
  match cs with
  | '#' :: _ => some (none, cs)
  | '\x27' :: cs =>
    let name := cs.takeWhile (· != '\x27')
    match cs.drop name.length with
    | _ :: rest => if name.isEmpty then none else some (some (String.ofList name), rest)
    | [] => none
  | _ =>
    let name := cs.takeWhile isNameChar
    if name.isEmpty then none else some (some (String.ofList name), cs.drop name.length)

/-- How many characters stand before the first quote that has no backslash before it. -/
def plainQuote? (quote : Char) (escaped : Bool) : List Char → Option Nat
  | [] => none
  | c :: cs =>
    if c == quote && !escaped then some 0
    else (plainQuote? quote (c == '\\') cs).map (· + 1)

/-- How many characters stand before the last quote. -/
def lastQuote? (quote : Char) : List Char → Option Nat
  | [] => none
  | c :: cs =>
    match lastQuote? quote cs with
    | some n => some (n + 1)
    | none => if c == quote then some 0 else none

/-- How many characters stand before the closing quote: the first one that has no backslash before
it, and if all have one, the last. -/
def closingQuote? (quote : Char) (cs : List Char) : Option Nat :=
  (plainQuote? quote false cs).or (lastQuote? quote cs)

/-- Replaces escapes. A backslash before any other character stands for itself. -/
def unescape (escapes : List (Char × Char)) : List Char → List Char
  | [] => []
  | ['\\'] => ['\\']
  | '\\' :: c :: cs =>
    match escapes.lookup c with
    | some d => d :: unescape escapes cs
    | none => '\\' :: unescape escapes (c :: cs)
  | c :: cs => c :: unescape escapes cs

/-- The escapes between single quotes. -/
def singleEscapes : List (Char × Char) := [('\\', '\\'), ('\x27', '\x27')]

/-- The escapes between double quotes. -/
def doubleEscapes : List (Char × Char) := singleEscapes ++ [
  ('\x22', '\x22'), ('a', '\x07'), ('b', '\x08'), ('f', '\x0c'), ('n', '\n'), ('r', '\r'),
  ('t', '\t'), ('v', '\x0b')]

/-- A value up to its closing quote, and what comes after that. -/
def quoted? (quote : Char) (escapes : List (Char × Char)) (cs : List Char) :
    Option (String × List Char) :=
  (closingQuote? quote cs).map fun n =>
    (String.ofList (unescape escapes (cs.take n)), cs.drop (n + 1))

/-- What stands before a comment. A comment has a blank before it. -/
def beforeComment : List Char → List Char
  | [] => []
  | c :: cs =>
    if isBlankChar c && (cs.dropWhile isBlankChar).head? == some '#' then []
    else c :: beforeComment cs

/-- A value without quotes: the line without its comment and without blanks at its end. -/
def unquoted (line : List Char) : String :=
  String.ofList (((beforeComment line).reverse.dropWhile isBlankChar).reverse)

/-- A value, and what comes after it. -/
def value? (cs : List Char) : Option (String × List Char) :=
  match cs with
  | '\x27' :: cs => quoted? '\x27' singleEscapes cs
  | '\x22' :: cs => quoted? '\x22' doubleEscapes cs
  | _ =>
    let line := cs.takeWhile (· != '\n')
    some (unquoted line, cs.drop line.length)

/-- What comes after a line, of which only blanks and a comment are left. -/
def lineEnd? (cs : List Char) : Option (List Char) :=
  match skipInline cs with
  | [] => some []
  | '\n' :: rest => some rest
  | '#' :: rest => some (nextLine rest)
  | _ => none

/-! ## Assignments -/

/-- The line after a name, if it ends as it should. -/
def afterName (name : Option String) (cs : List Char) : Option Assignment × List Char :=
  let ended := fun (value : Option String) (rest : List Char) => match lineEnd? rest with
    | some rest => (name.map fun n => Assignment.mk n value, rest)
    | none => (none, nextLine rest)
  match skipInline cs with
  | '=' :: cs =>
    let cs := skipInline cs
    match value? cs with
    | some (value, rest) => ended (some value) rest
    | none => (none, nextLine cs)
  | cs => ended none cs

/-- The next assignment, if the next line that is not blank is one, and what comes after it. -/
def statement (cs : List Char) : Option Assignment × List Char :=
  match cs.dropWhile isBlankChar with
  | [] => (none, [])
  | cs =>
    let cs := skipExport cs
    match name? cs with
    | some (name, cs) => afterName name cs
    | none => (none, nextLine cs)

/-- The assignments of a file with unified line breaks. -/
def assignments (cs : List Char) : List Assignment :=
  let (found, rest) := statement cs
  if rest.length < cs.length then found.toList ++ assignments rest else found.toList
termination_by cs.length

/-! ## Values -/

/-- A part of a value. -/
inductive Piece where
  | char (c : Char)
  /-- A variable, and what stands for it if there is none of its name. -/
  | reference (name : String) (fallback : String)
deriving DecidableEq

/-- The reference whose name starts here, and what comes after it. -/
def reference? (cs : List Char) : Option (Piece × List Char) :=
  let name := cs.takeWhile fun c => c != '\x7d' && c != ':'
  match cs.drop name.length with
  | '\x7d' :: rest => some (.reference (String.ofList name) "", rest)
  | ':' :: '-' :: rest =>
    let fallback := rest.takeWhile (· != '\x7d')
    match rest.drop fallback.length with
    | _ :: rest => some (.reference (String.ofList name) (String.ofList fallback), rest)
    | [] => none
  | _ => none

theorem reference?_length {cs rest : List Char} {p : Piece} (h : reference? cs = some (p, rest)) :
    rest.length < cs.length := by
  simp only [reference?] at h
  have shorter : ∀ n : Nat, (cs.drop n).length ≤ cs.length := fun n => by simp
  split at h
  next r hr =>
    have := shorter (cs.takeWhile fun c => c != '\x7d' && c != ':').length
    grind
  next r hr =>
    have := shorter (cs.takeWhile fun c => c != '\x7d' && c != ':').length
    split at h
    next a s hs =>
      have : (r.drop (r.takeWhile (· != '\x7d')).length).length ≤ r.length := by simp
      grind
    next => cases h
  next => cases h

/-- The parts of a value. -/
def pieces (cs : List Char) : List Piece :=
  match cs with
  | [] => []
  | '$' :: '\x7b' :: rest =>
    match h : reference? rest with
    | some (p, rest') =>
      have := reference?_length h
      p :: pieces rest'
    | none => .char '$' :: pieces ('\x7b' :: rest)
  | c :: rest => .char c :: pieces rest
termination_by cs.length
decreasing_by all_goals simp only [List.length_cons]; omega

/-- The variables of a file with their values. -/
abbrev Variables := List (String × Option Text)

/-- What a part of a value stands for. The environment comes before the file. -/
def Piece.replacement (env : Environment) (earlier : Variables) : Piece → Text
  | .char c => Text.ofChars [c]
  | .reference name fallback =>
    match env.get? (Text.ofString name), earlier.lookup name with
    | some t, _ => t
    | none, some held => held.getD Text.empty
    | none, none => Text.ofString fallback

/-- Gives a variable its value, in place of an older one. -/
def Variables.put (vs : Variables) (name : String) (value : Option Text) : Variables :=
  match vs with
  | [] => [(name, value)]
  | v :: rest => if v.1 == name then (name, value) :: rest else v :: Variables.put rest name value

/-- The value of an assignment, with the variables that it refers to. -/
def resolveValue (env : Environment) (earlier : Variables) (value : String) : Text :=
  ⟨(pieces value.toList).flatMap fun p => (p.replacement env earlier).points⟩

/-- The variables that assignments give. A value may refer to those before it. -/
def resolve (env : Environment) (as : List Assignment) : Variables :=
  as.foldl (fun vs a => vs.put a.name (a.value.map (resolveValue env vs))) []

/-! ## Loading -/

/-- Why a file is not loaded. -/
inductive Fault where
  | malformed (e : Utf8.DecodeError)
  /-- A name or a value with a NUL character. -/
  | nulCharacter
  /-- A name with an equals sign. -/
  | illegalName
  | unreadable (f : FileTree.PathFault)
  /-- A directory that is not there. -/
  | noDirectory

def Fault.message : Fault → String
  | .malformed e => e.message
  | .nulCharacter => "embedded null byte"
  | .illegalName => "illegal environment variable name"
  | .unreadable f => f.message
  | .noDirectory => "Starting path not found"

/-- Why a variable cannot be set. -/
def settingFault? (name : String) (value : Text) : Option Fault :=
  if name.toList.contains '\x00' || value.points.any (·.val == 0) then some .nulCharacter
  else if name.toList.contains '=' then some .illegalName
  else none

/-- Sets the variables that the environment lacks, up to the first that cannot be set. -/
def supply (env : Environment) : Variables → Environment × Option Fault
  | [] => (env, none)
  | (name, value) :: rest =>
    match env.get? (Text.ofString name), value with
    | none, some value =>
      match settingFault? name value with
      | some f => (env, some f)
      | none => supply (env.insert (Text.ofString name) value) rest
    | _, _ => supply env rest

/-- The environment with the variables of a file that it lacks. -/
def load (env : Environment) (content : Bytes) : Environment × Option Fault :=
  match Utf8.decode content with
  | .error e => (env, some (.malformed e))
  | .ok t => supply env (resolve env (assignments (unifyBreaks (t.toChars?.getD []))))

/-! ## The switch -/

/-- The variable that keeps environment files from being loaded. -/
def switchName : String := "PYTHON_DOTENV_DISABLED"

/-- The words that it has then, in any case. -/
def switchWords : List String := ["1", "true", "t", "yes", "y"]

/-- A character without its case, as far as those words go. A long s is an s. -/
def foldChar (c : Char) : Char := if c == '\u017f' then 's' else c.toLower

/-- Whether an environment keeps environment files from being loaded. -/
def isSwitchedOff (env : Environment) : Bool :=
  ((env.get? switchName).bind Text.toString?).any fun word =>
    switchWords.contains (String.ofList (word.toList.map foldChar))

/-! ## The file of a directory -/

/-- The name of environment files. -/
def fileName : FileName := ".env"

/-- The directory that names lead to, and then those above it. -/
def directories : List FileName → List (List FileName)
  | [] => [[]]
  | name :: rest => (directories rest).map (name :: ·) ++ [[]]

/-- The environment file of a directory, or else the nearest one above it. -/
def nearest? (t : FileTree) (directory : List FileName) : Option (List FileName) :=
  ((directories directory).map (· ++ [fileName])).find? t.isFile

/-- The environment with the variables that it lacks of the file that belongs to a directory, if
there is one. An environment with the switch stays as it is. -/
def loadNearest (env : Environment) (t : FileTree) (directory : List FileName) :
    Environment × Option Fault :=
  if isSwitchedOff env then (env, none)
  else if (t.reached? directory).isNone then (env, some .noDirectory)
  else match nearest? t directory with
    | none => (env, none)
    | some names =>
      match t.readNames names with
      | .ok content => load env content
      | .error f => (env, some (.unreadable ⟨f, (FileTree.pathTo names).text⟩))

end BootConfig.EnvironmentFile
