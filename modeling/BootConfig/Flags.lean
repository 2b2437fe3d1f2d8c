import BootConfig.Locator
import BootConfig.Options.CommandLine
import BootConfig.Schema.Check

/-!
# Flags

Every plain setting has an option on the command line, named by its dotted path. Only the options
that are given count: the others leave settings as they are.

* `Schema.flags`: the options of a schema, in the order of its fields.
* `Flags.startupOptions`: the options that are located before all others.
* `Schema.applyAt`: one value laid at a path.
* `Schema.applyFlags`: all values given, in the order of their paths, up to the first that is
  refused.
-/

namespace BootConfig

open Options (Arity Assignments CommandOption Conversion OptionMeaning)

/-! ## Declaration -/

namespace Flags

/-- The spelling of an option for a path: underscores are written as hyphens. -/
def spelling (path : String) : String :=
  "--" ++ String.ofList (path.toList.map fun c => if c == '_' then '-' else c)

def option (path : String) (help : Option String) (arity : Arity) (c : Conversion) :
    CommandOption :=
  ⟨[spelling path], arity, ⟨.setting path, c, none, help⟩⟩

/-- How a single value of a plain type is given. A switch may stand alone. -/
def ofScalar (path : String) (help : Option String) : ScalarType → CommandOption
  | .int => option path help .one .int
  | .float => option path help .one .float
  | .text => option path help .one .text
  | .bool => option path help .optional .truth

/-- How the items of a list are read. -/
def itemConversion : Option ScalarType → Conversion
  | some .int => .int
  | some .float => .float
  | some .bool => .presence
  | some .text | none => .text

mutual

/-- The options of a field with a path. -/
def ofType (path : String) (help : Option String) : FieldType → List CommandOption
  | .scalar t => [ofScalar path help t]
  | .list item => [option path help .many (itemConversion item)]
  | .enumeration e => [option path help .one (.member e)]
  | .group _ fields => ofFields (path ++ ".") fields
  | .union .choice _ [t] => ofType path help t
  | .union _ _ _ | .any | .mapping | .bareList => []

/-- The options of fields whose paths start alike. -/
def ofFields (start : String) : List Field → List CommandOption
  | [] => []
  | (info, t) :: rest => ofType (start ++ info.name) info.help t ++ ofFields start rest

end

end Flags

/-- The options of a schema, in the order of its fields. -/
def Schema.flags (s : Schema) (start : String := "") : List CommandOption :=
  Flags.ofFields start s.fields

namespace Flags

/-- Both spellings of a startup option. -/
def startupSpellings (name : String) : List String := ["--" ++ name, "-" ++ name]

/-- The option for the settings file. It has been located before, and has no effect here. -/
def fileOption : CommandOption :=
  ⟨startupSpellings Locator.fileOption, .one,
    ⟨.ignored, .text, some "PATH", some "Configuration file to load."⟩⟩

/-- The switch for placeholders. It has been located before, and has no effect here. -/
def expandOption : CommandOption :=
  ⟨startupSpellings Locator.expandOption, .optional,
    ⟨.ignored, .truth, some "BOOL",
      some ("Expands $\x7bvar\x7d or $var in config according to the values of the environment " ++
        "variables.")⟩⟩

/-- The startup options, which stand on the command line but are no settings. -/
def startupOptions : List CommandOption := [fileOption, expandOption]

end Flags

/-! ## Application -/

namespace Flags

/-- The segments of a dotted path. -/
def segments : List Char → List (List Char)
  | [] => [[]]
  | c :: cs =>
    if c == '.' then [] :: segments cs
    else match segments cs with
      | [] => [[c]]
      | s :: ss => (c :: s) :: ss

/-- The names along a dotted path. -/
def names (path : String) : List String := (segments path.toList).map String.ofList

/-- What a value laid at a path does. -/
inductive Effect where
  /-- The path leads to no field. -/
  | skipped
  | assigned (config : Setting)
  | refused (issues : List Issue)
  /-- The path leads through a value that has no fields. -/
  | noFields (kind : String)

namespace Effect

/-- The effect on the whole of an effect on a part. -/
def inside (put : Setting → Setting) : Effect → Effect
  | .assigned part => .assigned (put part)
  | e => e

end Effect

/-- The effect of a name after a value that is no group. What is unset is passed over, and so are
longer paths, because a value has no parts with names. -/
def beyond (v : Value) (rest : List String) : Effect :=
  match rest, v.view with
  | _, .scalar .null => .skipped
  | [_], _ => .noFields v.kindName
  | _, _ => .skipped

end Flags

namespace Schema

/-- Lays a value at a path below a group. Only fields are followed. In a running program a name that
is no field may still lead on, to an attribute of a section or of a value; such a path is skipped
here, but there it may end with a fault (`Flags.Surroundings`). -/
def applyAt (s : Schema) (config : Setting) (v : Value) : List String → Flags.Effect
  | [] => .skipped
  | [name] =>
    if (s.field? name).isNone then .skipped
    else match s.assign config name (.value v) with
      | .ok config => .assigned config
      | .error issues => .refused issues
  | name :: rest =>
    match s.field? name, config.get? name with
    | some (_, t), some (.group n fields) =>
      match t.groupNamed? n with
      | some inner => (applyAt inner (.group n fields) v rest).inside (config.put name)
      | none => .skipped
    | some _, some (.value held) => Flags.beyond held rest
    | _, _ => .skipped

end Schema

namespace Flags

/-- The name under which the fields of a group are looked up. -/
def fieldsName : Text := Text.ofString "model_fields"

/-- Why the application of flags stops. -/
inductive Stop where
  | refused (issues : List Issue)
  | noFields (kind : String)

/-- What is said of a value that has no fields. -/
def noFieldsMessage (kind : String) : String :=
  s!"type object {Quoted.ofString kind} has no attribute {Quoted.ofText fieldsName}"

/-- What the application of flags comes to. -/
structure Application where
  config : Setting
  applied : Assignments
  stop : Option Stop

/-- Lays values at their paths, one after the other. -/
def applyEach (s : Schema) (config : Setting) (done : Assignments) : Assignments → Application
  | [] => ⟨config, done, none⟩
  | (path, v) :: rest =>
    match s.applyAt config v (names path) with
    | .skipped => applyEach s config done rest
    | .assigned config => applyEach s config (done ++ [(path, v)]) rest
    | .refused issues => ⟨config, done, some (.refused issues)⟩
    | .noFields kind => ⟨config, done, some (.noFields kind)⟩

/-- The order in which values are applied: that of their paths. -/
def inOrder (a b : String × Value) : Bool := !(b.1 < a.1)

end Flags

/-- Lays all given values at their paths, in the order of the paths. -/
def Schema.applyFlags (s : Schema) (config : Setting) (as : Assignments) : Flags.Application :=
  Flags.applyEach s config [] (as.mergeSort Flags.inOrder)

end BootConfig
