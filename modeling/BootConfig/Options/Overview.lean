import BootConfig.Options.Grammar
import BootConfig.Text.Paragraph

/-!
# Overview of options

The text that shows which options a program has: a usage line, and a list of the options with what
they do. Both are laid out for lines of a given width.

* `Overview.usage`: the usage line, broken between options.
* `Overview.paragraph`: a text that stands on its own.
* `Overview.text`: the usage line, the description of the program and the list of options.
-/

namespace BootConfig.Options

/-- An option as the overview shows it. -/
structure Entry where
  spellings : List String
  arity : Arity
  /-- What stands for a value of the option. -/
  placeholder : String
  help : Option String

namespace Overview

/-! ## Usage -/

/-- The values of an option after its spelling. -/
def arguments (e : Entry) : String :=
  let name := e.placeholder
  match e.arity with
  | .none => ""
  | .one => s!" {name}"
  | .optional => s!" [{name}]"
  | .many => s!" {name} [{name} ...]"

/-- An option in the usage line. -/
def brief (e : Entry) : String :=
  let spelling := e.spellings.headD ""
  s!"[{spelling}{arguments e}]"

/-- Fills lines with parts. A line that starts at `start` is full if the next part would end after
`limit`; the first line starts at `first`. -/
def packParts (limit start first : Int) (line : List String) : List String → List (List String)
  | [] => if line.isEmpty then [] else [line]
  | part :: parts =>
    let size : Int := part.length
    if limit < first + 1 + size && !line.isEmpty then
      line :: packParts limit start (start + size + 1) [part] parts
    else packParts limit start (first + size + 1) (line ++ [part]) parts

def spaces (n : Nat) : String := String.ofList (List.replicate n ' ')

def hangingLines (limit : Int) (indent first : Nat) (parts : List String) : String :=
  let start : Int := indent - 1
  let lines := packParts limit start ((first : Int) - 1) [] parts
  ("\n" ++ spaces indent).intercalate (lines.map fun line => " ".intercalate line)

def usageMark : String := "usage: "

/-- The usage line for lines of a given width. A short program name is followed by the options; a
long one has a line of its own. -/
def usage (program : String) (width : Int) (entries : List Entry) : String :=
  let parts := entries.map brief
  let whole := " ".intercalate (program :: parts)
  let head := usageMark.length + program.length
  if (usageMark.length + whole.length : Int) ≤ width then usageMark ++ whole
  else if 4 * (head : Int) ≤ 3 * width then
    usageMark ++ hangingLines width (head + 1) usageMark.length (program :: parts)
  else
    let indent := usageMark.length
    let lines := hangingLines width indent indent parts
    usageMark ++ program ++ "\n" ++ spaces indent ++ lines

/-! ## List of options -/

/-- All spellings of an option with its values. -/
def invocation (e : Entry) : String :=
  ", ".intercalate (e.spellings.map fun s => s ++ arguments e)

/-- Entries are indented by this much. -/
def entryIndent : Nat := 2

/-- The column where the help of options starts: two columns after the longest entry, but not too
far to the right. -/
def helpColumn (width : Int) (entries : List Entry) : Nat :=
  let longest := (entries.map fun e => (invocation e).length + entryIndent).foldl max 0
  min (longest + 2) (min 24 (max (width - 20) 4)).toNat

/-- Texts are not broken into lines shorter than this. -/
def leastWidth : Int := 11

/-- A text that stands on its own. -/
def paragraph (width : Int) (s : String) : String := Paragraph.fill (max width leastWidth).toNat s

/-- The head of an entry and the start of what follows on its line. An entry that reaches into the
column of the help stands on a line of its own; one without help has nothing after it. -/
def entryHead (column : Nat) (e : Entry) : String × String :=
  let head := spaces entryIndent ++ invocation e
  match e.help with
  | none | some "" => (head ++ "\n", "")
  | some _ =>
    if head.length + 2 ≤ column then (head ++ spaces (column - head.length), "")
    else (head ++ "\n", spaces column)

/-- An option with its help. Help that is blank leaves the rest of the line empty. -/
def entryText (width : Int) (column : Nat) (e : Entry) : String :=
  let (head, start) := entryHead column e
  match Paragraph.wrap (max (width - column) leastWidth).toNat (e.help.getD "") with
  | [] => if head.endsWith "\n" then head else head ++ "\n"
  | first :: rest =>
    head ++ start ++ first ++ "\n" ++ String.join (rest.map fun l => spaces column ++ l ++ "\n")

/-- The whole overview. -/
def text (program : String) (description : Option String) (width : Int) (entries : List Entry) :
    String :=
  let column := helpColumn width entries
  let about := match description with
    | some d => paragraph width d ++ "\n\n"
    | none => ""
  let listed := String.join (entries.map (entryText width column))
  usage program width entries ++ "\n\n" ++ about ++ "options:\n" ++ listed

end Overview

end BootConfig.Options
