import BootConfig.Data.Value

/-!
# Field types

What the settings of a program look like: a schema is a list of fields, each with a name, a type and
a default. Groups of fields nest.

* `FieldType`: the types of fields.
* `Schema`: the fields of the whole.
* `Setting`: a value that has been checked against a type. A group of settings knows the name of its
  schema.
-/

namespace BootConfig

/-- The types of plain fields and of list items. -/
inductive ScalarType where
  | int
  | float
  | text
  | bool
deriving DecidableEq, Inhabited

/-- A choice among listed values. The members of a textual enumeration are texts, and are also
chosen by their bytes. -/
structure Enumeration where
  name : String
  members : List Scalar
  textual : Bool
deriving DecidableEq, Inhabited

/-- An enumeration of the distinct ones among some values. -/
def Enumeration.ofValues (name : String) (values : List Scalar) : Enumeration :=
  let members := values.foldl (fun seen s => if seen.any s.sameKey then seen else seen ++ [s]) []
  ⟨name, members, false⟩

/-- A further condition on a checked value. These are the conditions of the program itself, each on
one field; a condition on several fields together cannot be described. -/
inductive Rule where
  /-- A port number: from 0 to 65535. -/
  | port
  /-- A number of replicas: at least one. -/
  | replicas
  /-- A storage directory: a path that starts at the root. -/
  | directory
deriving DecidableEq, Inhabited

/-- What a field has besides its type. -/
structure FieldInfo where
  name : String
  /-- The value taken if none is given. A group without a default is made of the defaults of its
  fields; any other field without a default is required. -/
  default? : Option Value
  help : Option String
  /-- Whether a text is put into upper case before it is checked. -/
  upperCase : Bool
  rule : Option Rule
deriving Inhabited

/-- The two ways to declare alternatives. They accept the same values; only a field whose
alternatives are written as a choice is seen through when options are declared. -/
inductive UnionStyle where
  | choice
  | bar
deriving DecidableEq, Inhabited

inductive FieldType where
  | scalar (t : ScalarType)
  | any
  | mapping
  /-- A list of anything that cannot be given as an option. -/
  | bareList
  /-- A list; without an item type its items are anything. -/
  | list (item : Option ScalarType)
  | enumeration (e : Enumeration)
  /-- Alternatives; null is one of them if the type is nullable. -/
  | union (style : UnionStyle) (nullable : Bool) (members : List FieldType)
  | group (name : String) (fields : List (FieldInfo × FieldType))
deriving Inhabited

abbrev Field := FieldInfo × FieldType

/-- A named list of fields. -/
structure Schema where
  name : String
  fields : List Field
deriving Inhabited

namespace Schema

def toType (s : Schema) : FieldType := .group s.name s.fields

def field? (s : Schema) (name : String) : Option Field :=
  s.fields.find? fun f => f.1.name == name

end Schema

namespace ScalarType

def label : ScalarType → String
  | .int => "int"
  | .float => "float"
  | .text => "str"
  | .bool => "bool"

end ScalarType

namespace FieldType

/-- The schema of the group with a name, if the type admits one. -/
def groupNamed? (name : String) : FieldType → Option Schema
  | .group n fields => if n == name then some ⟨n, fields⟩ else none
  | .union _ _ members => inMembers name members
  | _ => none
where
  inMembers (name : String) : List FieldType → Option Schema
    | [] => none
    | t :: ts => match groupNamed? name t with
      | some s => some s
      | none => inMembers name ts

/-- The members of a type seen as alternatives, without null. -/
def alternatives : FieldType → List FieldType
  | .union _ _ members => members
  | t => [t]

/-- Whether null is one of the alternatives of a type. -/
def isNullable : FieldType → Bool
  | .union _ nullable _ => nullable
  | _ => false

/-- A choice among types: alternatives of alternatives are alternatives of the whole, a plain type
counts once, and a single type is no choice. -/
def choice (nullable : Bool) (types : List FieldType) : FieldType :=
  let members := (types.flatMap alternatives).foldl
    (fun seen t => if seen.any (sameType t) then seen else seen ++ [t]) []
  let nullable := nullable || types.any isNullable
  match nullable, members with
  | false, [t] => t
  | _, members => .union .choice nullable members
where
  /-- Equality of types without parts. -/
  sameType : FieldType → FieldType → Bool
    | .scalar s, .scalar t => s == t
    | .any, .any => true
    | .mapping, .mapping => true
    | .bareList, .bareList => true
    | .list s, .list t => s == t
    | _, _ => false

/-- How the places of faults name an alternative. -/
def label : FieldType → String
  | .scalar t => t.label
  | .any => "any"
  | .mapping => "dict[any,any]"
  | .bareList => "list[any]"
  | .list none => "list[any]"
  | .list (some t) => s!"list[{t.label}]"
  | .enumeration e => e.name
  | .union _ _ _ => "union"
  | .group name _ => name

end FieldType

/-! ## Checked values -/

inductive Setting where
  | value (v : Value)
  | group (name : String) (fields : List (String × Setting))
deriving Inhabited

namespace Setting

def scalar? : Setting → Option Scalar
  | .value v => match v.view with
    | .scalar s => some s
    | _ => none
  | .group _ _ => none

def isNull (s : Setting) : Bool :=
  match s.scalar? with
  | some .null => true
  | _ => false

/-- The fields of a group. -/
def fields : Setting → List (String × Setting)
  | .value _ => []
  | .group _ fs => fs

def get? (s : Setting) (name : String) : Option Setting := s.fields.lookup name

def replace (name : String) (new : Setting) : List (String × Setting) → List (String × Setting)
  | [] => []
  | f :: fs => if f.1 == name then (f.1, new) :: fs else f :: replace name new fs

/-- The group with one field replaced. -/
def put (s : Setting) (name : String) (new : Setting) : Setting :=
  match s with
  | .value v => .value v
  | .group n fs => .group n (replace name new fs)

mutual

/-- The settings as a plain value; nothing if a value in them contains itself. -/
def toValue? : Setting → Option Value
  | .value v => v.tree?
  | .group _ fs => (fieldValues? fs).map Value.map

def fieldValues? : List (String × Setting) → Option Entries
  | [] => some []
  | (name, s) :: rest => match s.toValue?, fieldValues? rest with
    | some v, some es => some ((.text (Text.ofString name), v) :: es)
    | _, _ => none

end

end Setting

end BootConfig
