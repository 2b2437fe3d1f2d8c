import BootConfig.Options.Grammar
import BootConfig.Options.Truth
import BootConfig.Schema.FieldType
import BootConfig.Text.Case

/-!
# Values of options

How the text of a value on the command line is read, and the complaint if it cannot be.

* `Enumeration.named?`: the member of an enumeration that a word names, in any case.
* `Conversion.read`: the value of one text.
* `Conversion.readAll`: the value of an option, from all the texts that belong to it.
-/

namespace BootConfig

namespace Scalar

/-- A scalar written without quotes. -/
def plain : Scalar → Text
  | .text t => t
  | s => Text.ofString (s.quoted?.getD "")

end Scalar

namespace Enumeration

/-- The member that a word names. Of members that differ in case only the last one is named. -/
def named? (e : Enumeration) (word : Text) : Option Scalar :=
  e.members.reverse.find? fun m => m.plain.toLower == word.toLower

end Enumeration

namespace Options

/-- What the text of a value is read as. -/
inductive Conversion where
  | int
  | float
  | text
  /-- Whether there is any text. -/
  | presence
  | truth
  | member (e : Enumeration)
deriving DecidableEq, Inhabited

/-- Why the text of a value is refused. -/
inductive ConversionFault where
  | malformed (kind : String) (source : String)
  | noTruth (source : String)
  | noMember (e : Enumeration) (source : String)
deriving DecidableEq, Inhabited

def ConversionFault.message : ConversionFault → String
  | .malformed kind source => s!"invalid {kind} value: {Quoted.ofString source}"
  | .noTruth source => Truth.complaint source
  | .noMember e source =>
    let choices := ", ".intercalate (e.members.map fun m => m.quoted?.getD "")
    s!"invalid choice: {Quoted.ofString source} (choose from {choices})"

namespace Conversion

def name : Conversion → String
  | .int => "int"
  | .float => "float"
  | .text => "str"
  | .presence => "bool"
  | .truth => "parse_bool"
  | .member e => e.name

def read (c : Conversion) (source : String) : Except ConversionFault Scalar :=
  let t := Text.ofString source
  match c with
  | .int => match Numeral.int 10 t with
    | .ok n => .ok (.int n)
    | .error _ => .error (.malformed c.name source)
  | .float => match Numeral.double? 0 t with
    | some d => .ok (.double d)
    | none => .error (.malformed c.name source)
  | .text => .ok (.text t)
  | .presence => .ok (.bool !t.isEmpty)
  | .truth => match Truth.ofWord? source with
    | some b => .ok (.bool b)
    | none => .error (.noTruth source)
  | .member e => match e.named? t with
    | some m => .ok m
    | none => .error (.noMember e source)

/-- The value of an option from the texts that belong to it. An option that may stand alone is then
true. A single text gives a single value unless the option takes many. -/
def readAll (c : Conversion) (arity : Arity) (sources : List String) :
    Except ConversionFault Value :=
  match arity, sources with
  | .optional, [] => .ok (.bool true)
  | .optional, [s] | .one, [s] => (c.read s).map .scalar
  | _, ss => (ss.mapM c.read).map fun vs => .list (vs.map Value.scalar)

end Conversion

end Options

end BootConfig
