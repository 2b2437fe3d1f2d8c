import BootConfig.Text.Basic

/-!
# Notices

What a program tells about its doings: messages with a severity and an origin.
-/

namespace BootConfig

/-- How grave a message is. Greater numbers are graver; those up to zero are never of interest. -/
abbrev Severity := Int

namespace Severity

def debug : Severity := 10
def info : Severity := 20
def warning : Severity := 30
def error : Severity := 40
def critical : Severity := 50

def name (s : Severity) : String :=
  match s with
  | 0 => "NOTSET"
  | 10 => "DEBUG"
  | 20 => "INFO"
  | 30 => "WARNING"
  | 40 => "ERROR"
  | 50 => "CRITICAL"
  | n => s!"Level {n}"

end Severity

/-- Where a message comes from: the channel it is sent on, and the place in the program. -/
structure Origin where
  channel : String
  module : String
  function : String
deriving DecidableEq, Inhabited

/-- A message with its severity and its origin. -/
structure Notice where
  severity : Severity
  origin : Origin
  message : Text
deriving DecidableEq, Inhabited

/-- What is told in the course of some work: a notice, or a line for the diagnostic stream. -/
inductive Telling where
  | notice (n : Notice)
  | line (s : String)
deriving DecidableEq, Inhabited

namespace Telling

/-- The notice that is told. -/
def notice? : Telling → Option Notice
  | .notice n => some n
  | .line _ => none

/-- The line that is told. -/
def line? : Telling → Option String
  | .notice _ => none
  | .line s => some s

end Telling

namespace Channel

/-- The channel that all others are below. -/
def root : String := "blockstore_ingester"

/-- The channel for a name. Names outside of the root are put below it. -/
def ofName (name : String) : String :=
  if name == root || (root ++ ".").toList.isPrefixOf name.toList then name else root ++ "." ++ name

end Channel

namespace Origin

/-- A place in a part of the program, whose channel is named for it. -/
def within (part module function : String) : Origin :=
  ⟨Channel.ofName (part ++ module), module, function⟩

end Origin

end BootConfig
