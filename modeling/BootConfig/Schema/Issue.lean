import BootConfig.Schema.FieldType

/-!
# Issues

What is wrong with values that do not fit their schema: the place of each fault, its kind, and the
sentence that describes it.
-/

namespace BootConfig

/-- A step on the way to the place of a fault. -/
inductive PathStep where
  | key (t : Text)
  | index (n : Int)
deriving DecidableEq, Inhabited

namespace PathStep

def ofString (s : String) : PathStep := .key (Text.ofString s)

/-- Integers below this bound in size are written as numbers. -/
def indexBound : Int := 0x8000000000000000

/-- The step that a key of a mapping is. Truth values count as integers; what is neither an integer
of ordinary size nor a text is written as messages quote it. -/
def ofKey (key : Scalar) : PathStep :=
  match key with
  | .text t => .key t
  | _ =>
    match key.asInt? with
    | some n =>
      if -indexBound ≤ n && n < indexBound then .index n
      else ofString ((Numeral.intText? n).getD "")
    | none => ofString (key.quoted?.getD "")

end PathStep

/-- What is wrong with a value. -/
inductive IssueKind where
  | notInt
  | unparsedInt
  | fractionalInt
  | oversizedInt
  | notFinite
  | notFloat
  | unparsedFloat
  | notBool
  | unparsedBool
  | notText
  | notUnicode
  | notList
  | notMapping
  | notGroup (name : String)
  | notMember (e : Enumeration)
  | brokenRule (r : Rule) (v : Scalar)
  | missing
  | unknownKey
  | keyNotText
  | noSuchField (name : String)
deriving DecidableEq, Inhabited

/-- A fault and its place. -/
structure Issue where
  path : List PathStep
  kind : IssueKind
deriving DecidableEq, Inhabited

namespace Issue

/-- The same fault seen from further out. -/
def under (step : PathStep) (i : Issue) : Issue := { i with path := step :: i.path }

/-- A fault of the value itself. -/
def here (kind : IssueKind) : Issue := ⟨[], kind⟩

end Issue

namespace IssueKind

/-- Several choices as a sentence lists them. -/
def listChoices : List String → String
  | [] => ""
  | [a] => a
  | [a, b] => a ++ " or " ++ b
  | a :: rest => a ++ ", " ++ listChoices rest

/-- A value as the messages of the rules show it; nothing for an integer that is too long. -/
def plainText? : Scalar → Option String
  | .text t => some t.lossy
  | s => s.quoted?

/-- The complaint about a value that breaks a rule. -/
def ruleText (r : Rule) (v : Scalar) : String :=
  match plainText? v with
  | none => Numeral.tooLongToWrite
  | some shown => match r with
    | .port => s!"Port out of range: {shown}"
    | .replicas => s!"replication_factor must be at least 1: {shown}"
    | .directory => s!"Storage directory must be absolute: {shown}"

def message : IssueKind → String
  | .notInt => "Input should be a valid integer"
  | .unparsedInt => "Input should be a valid integer, unable to parse string as an integer"
  | .fractionalInt => "Input should be a valid integer, got a number with a fractional part"
  | .oversizedInt => "Unable to parse input string as an integer, exceeded maximum size"
  | .notFinite => "Input should be a finite number"
  | .notFloat => "Input should be a valid number"
  | .unparsedFloat => "Input should be a valid number, unable to parse string as a number"
  | .notBool => "Input should be a valid boolean"
  | .unparsedBool => "Input should be a valid boolean, unable to interpret input"
  | .notText => "Input should be a valid string"
  | .notUnicode =>
    "Input should be a valid string, unable to parse raw data as a unicode string"
  | .notList => "Input should be a valid list"
  | .notMapping => "Input should be a valid dictionary"
  | .notGroup name => s!"Input should be a valid dictionary or instance of {name}"
  | .notMember e =>
    let choices := listChoices (e.members.map fun m => m.quoted?.getD "")
    s!"Input should be {choices}"
  | .brokenRule r v => s!"Value error, {ruleText r v}"
  | .missing => "Field required"
  | .unknownKey => "Extra inputs are not permitted"
  | .keyNotText => "Keys should be strings"
  | .noSuchField name => s!"Object has no attribute {Quoted.ofString name}"

/-- The word that stands for the kind of fault. -/
def code : IssueKind → String
  | .notInt => "int_type"
  | .unparsedInt => "int_parsing"
  | .fractionalInt => "int_from_float"
  | .oversizedInt => "int_parsing_size"
  | .notFinite => "finite_number"
  | .notFloat => "float_type"
  | .unparsedFloat => "float_parsing"
  | .notBool => "bool_type"
  | .unparsedBool => "bool_parsing"
  | .notText => "string_type"
  | .notUnicode => "string_unicode"
  | .notList => "list_type"
  | .notMapping => "dict_type"
  | .notGroup _ => "model_type"
  | .notMember _ => "enum"
  | .brokenRule _ _ => "value_error"
  | .missing => "missing"
  | .unknownKey => "extra_forbidden"
  | .keyNotText => "invalid_key"
  | .noSuchField _ => "no_such_attribute"

end IssueKind

end BootConfig
