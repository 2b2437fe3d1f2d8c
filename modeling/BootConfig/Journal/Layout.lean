import BootConfig.Journal.Notice
import BootConfig.Text.Quoted

/-!
# Layout of notices

How a notice is written: as a line of text, coloured for the console and plain for a file, or as a
line with an object.

* `Layout.consoleLine`, `Layout.fileLine`: the two forms of a notice.
-/

namespace BootConfig

/-- A moment as notices show it. -/
structure Moment where
  /-- Year, month and day. -/
  date : String
  /-- Hours, minutes and seconds. -/
  clock : String
  /-- The three digits of the milliseconds. -/
  millis : String
deriving DecidableEq, Inhabited

/-- The form in which notices are written. -/
inductive Layout where
  | text
  | object
deriving DecidableEq, Inhabited

namespace Layout

/-! ## Objects -/

/-- A code unit as a number in an object. -/
def unitEscape (n : Nat) : List Char := '\\' :: 'u' :: Quoted.hexDigits 4 n

/-- A character in a text of an object; only printable ASCII stands for itself. -/
def escapeChar (c : Char) : List Char :=
  if c == '\x22' then ['\\', '\x22']
  else if c == '\\' then ['\\', '\\']
  else if c == '\n' then ['\\', 'n']
  else if c == '\r' then ['\\', 'r']
  else if c == '\t' then ['\\', 't']
  else if c == '\x08' then ['\\', 'b']
  else if c == '\x0c' then ['\\', 'f']
  else if ' ' ≤ c && c ≤ '~' then [c]
  else if c.toNat < 0x10000 then unitEscape c.toNat
  else
    let n := c.toNat - 0x10000
    unitEscape (0xD800 + n / 0x400) ++ unitEscape (0xDC00 + n % 0x400)

/-- A code point in a text of an object. A surrogate is a code unit. -/
def escapePoint (c : CodePoint) : List Char := (c.toChar?.map escapeChar).getD (unitEscape c.val)

def objectText (t : Text) : String :=
  String.ofList ('\x22' :: t.points.flatMap escapePoint ++ ['\x22'])

def objectEntry (key value : String) : String := objectText key ++ ": " ++ value

def objectLine (entries : List String) : String := "\x7b" ++ ", ".intercalate entries ++ "\x7d"

/-- A moment in an object. -/
def momentText (m : Moment) : String := m.date ++ " " ++ m.clock ++ "," ++ m.millis

def commonEntries (m : Moment) (n : Notice) : List String := [
  objectEntry "asctime" (objectText (momentText m)),
  objectEntry "name" (objectText n.origin.channel),
  objectEntry "levelname" (objectText n.severity.name)]

/-- Lines of the program are not told apart. -/
def lineNumber : String := "0"

def originEntries (n : Notice) : List String := [
  objectEntry "module" (objectText n.origin.module),
  objectEntry "funcName" (objectText n.origin.function),
  objectEntry "lineno" lineNumber]

def messageEntry (n : Notice) : String := objectEntry "message" (objectText n.message)

/-! ## Lines of text -/

/-- The mark that sets the colour of what follows. -/
def colour (code : String) : String := "\x1b[" ++ code ++ "m"

def plainColour : String := colour "0"

/-- The colour of a severity; those without a name have none. -/
def colourOf (s : Severity) : String :=
  match s with
  | 10 => colour "36"
  | 20 => colour "32"
  | 30 => colour "33"
  | 40 => colour "31"
  | 50 => colour "35"
  | _ => plainColour

/-- What stands before the message in a line for the console, and in one for a file. -/
def consoleStart (m : Moment) (n : Notice) : String :=
  "level=" ++ colourOf n.severity ++ n.severity.name ++ plainColour ++ " ts=" ++ m.date ++ "T" ++
    m.clock ++ " caller=" ++ n.origin.channel ++ " msg=\x22"

def fileStart (m : Moment) (n : Notice) : String :=
  "[" ++ m.date ++ " " ++ m.clock ++ "] " ++ n.severity.name ++ " - " ++ n.origin.channel ++ " - " ++
    n.origin.module ++ ":" ++ n.origin.function ++ ":" ++ lineNumber ++ " - "

def consoleLine (l : Layout) (m : Moment) (n : Notice) : Text :=
  match l with
  | .text => consoleStart m n ++ n.message ++ "\x22\n"
  | .object => objectLine (commonEntries m n ++ [messageEntry n]) ++ "\n"

def fileLine (l : Layout) (m : Moment) (n : Notice) : Text :=
  match l with
  | .text => fileStart m n ++ n.message ++ "\n"
  | .object => objectLine (commonEntries m n ++ originEntries n ++ [messageEntry n]) ++ "\n"

end Layout

end BootConfig
