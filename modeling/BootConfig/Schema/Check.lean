import BootConfig.Schema.Coercion
import BootConfig.Text.Case

/-!
# Checking settings

A value is checked against a schema: every field gets the value bound to its name, or its default,
in the form that its type gives it. All faults are reported, those of the fields in the order of the
schema and then those of the keys that no field has.

* `FieldType.check`: a setting checked against a type. A group that has been checked before is taken
  as it is.
* `Schema.check`, `Schema.defaults`: a whole value, and the value of an empty mapping.
* `Schema.assign`, `Schema.assignAt`: a checked group with one field given anew.
-/

namespace BootConfig

/-- The result of a check. -/
abbrev Checked (α : Type) := Except (List Issue) α

/-- A fault of the value itself. -/
def Checked.fault {α : Type} (kind : IssueKind) : Checked α := .error [Issue.here kind]

/-- The same result seen from further out. -/
def Checked.under {α : Type} (step : PathStep) (r : Checked α) : Checked α :=
  r.mapError fun issues => issues.map (Issue.under step)

namespace Setting

def entries? : Setting → Option Entries
  | .value v => v.entries?
  | .group _ _ => none

/-- The order in which the members of a set are listed: integers ascend, and others stand as they
have been added. This is a choice. No order is laid down for the members of a set; interpreters list
7200 before 60, and texts in another order at every start. -/
def memberBefore (a b : Scalar) : Bool :=
  match a, b with
  | .int m, .int n => m ≤ n
  | _, _ => true

/-- The items of a setting that is a list or can be listed. -/
def items? : Setting → Option (List Value)
  | .group _ _ => none
  | .value v => match v.view with
    | .list items => some items
    | .pair a b => some [a, b]
    | .set members => some ((members.mergeSort memberBefore).map Value.scalar)
    | _ => none

def isList : Setting → Bool
  | .group _ _ => false
  | .value v => match v.view with
    | .list _ => true
    | _ => false

end Setting

/-! ## Lists and enumerations -/

/-- Checks the items of a list, the first of which has the number `i`. -/
def checkItems (t : ScalarType) (i : Nat) : List Value → List Issue × List Value
  | [] => ([], [])
  | v :: vs =>
    let (issues, items) := checkItems t (i + 1) vs
    match t.coerce (.value v) with
    | .ok s => (issues, .scalar s :: items)
    | .error kind => (⟨[.index i], kind⟩ :: issues, items)

def checkList (item : Option ScalarType) (input : Setting) : Checked Setting :=
  match input.items? with
  | none => Checked.fault .notList
  | some vs =>
    match item with
    | none => .ok (.value (.list vs))
    | some t =>
      let (issues, items) := checkItems t 0 vs
      if issues.isEmpty then .ok (.value (.list items)) else .error issues

namespace Enumeration

/-- The scalar under which a value is looked up: a textual enumeration reads bytes as text. -/
def lookupKey (e : Enumeration) (s : Scalar) : Scalar :=
  match s with
  | .bytes b =>
    if e.textual then
      match Utf8.decode b with
      | .ok t => .text t
      | .error _ => s
    else s
  | s => s

/-- The member that a scalar chooses. -/
def find? (e : Enumeration) (s : Scalar) : Option Scalar :=
  e.members.find? fun m => m.sameKey (e.lookupKey s)

def check (e : Enumeration) (input : Setting) : Checked Setting :=
  match input.scalar?.bind e.find? with
  | some m => .ok (.value (.scalar m))
  | none => Checked.fault (.notMember e)

end Enumeration

/-! ## Alternatives -/

namespace FieldType

/-- How well a setting fits a type that takes it. -/
def fit (t : FieldType) (input : Setting) : Fit :=
  match t with
  | .scalar t => t.fit input
  | .any => .close
  | .mapping => match input.entries? with
    | some [] => .exact
    | _ => .close
  | .bareList | .list none => if input.isList then .exact else .converted
  | .list (some t) =>
    let items := (input.items?.getD []).map fun v => t.fit (.value v)
    if input.isList then items.foldl Fit.min .exact else .converted
  | .enumeration _ => .converted
  | .union _ _ _ => .converted
  | .group _ _ => match input with
    | .group _ _ => .exact
    | .value _ => .converted

end FieldType

/-- What one alternative makes of a setting. -/
structure Trial where
  label : String
  fit : Fit
  result : Checked Setting

namespace Trial

/-- The result of best fit, and of several the first one. -/
def better (best : Option (Fit × Setting)) (t : Trial) : Option (Fit × Setting) :=
  match t.result, best with
  | .error _, best => best
  | .ok s, none => some (t.fit, s)
  | .ok s, some (fit, old) => if fit.rank < t.fit.rank then some (t.fit, s) else some (fit, old)

/-- The faults that an alternative finds, under its label. -/
def issues (t : Trial) : List Issue :=
  match t.result with
  | .ok _ => []
  | .error issues => issues.map (Issue.under (PathStep.ofString t.label))

/-- Chooses among alternatives. A single one is no choice: its faults stand without a label. -/
def choose (ts : List Trial) : Checked Setting :=
  match ts with
  | [t] => t.result
  | ts => match ts.foldl better none with
    | some (_, s) => .ok s
    | none => .error (ts.flatMap issues)

end Trial

/-! ## Fields -/

namespace FieldInfo

/-- The key under which a field is given. -/
def key (info : FieldInfo) : Scalar := .text (Text.ofString info.name)

/-- A given value before it is checked. -/
def prepare (info : FieldInfo) (input : Setting) : Setting :=
  match info.upperCase, input.scalar? with
  | true, some (.text t) => .value (.text t.toUpper)
  | _, _ => input

end FieldInfo

namespace Rule

/-- Whether a scalar keeps the rule. Values of other kinds do. -/
def holds (r : Rule) (s : Scalar) : Bool :=
  match r, s with
  | .port, .int n => 0 ≤ n && n ≤ 65535
  | .replicas, .int n => 1 ≤ n
  | .directory, .text t => t.points.head? == some (CodePoint.ofChar '/')
  | _, _ => true

end Rule

namespace FieldInfo

/-- A checked value is held against the rule of its field. -/
def obey (info : FieldInfo) (s : Setting) : Checked Setting :=
  match info.rule, s.scalar? with
  | some r, some v => if r.holds v then .ok s else Checked.fault (.brokenRule r v)
  | _, _ => .ok s

end FieldInfo

namespace FieldType

/-- The default of a field that declares none: groups are made of the defaults of their fields. -/
def ownDefault? : FieldType → Option Value
  | .group _ _ => some (.map [])
  | _ => none

end FieldType

/-- The value of a field in a mapping, or its default. -/
def Field.valueIn? (f : Field) (es : Entries) : Option Value :=
  ((Entries.get? es f.1.key).or f.1.default?).or f.2.ownDefault?

/-- The faults of keys that belong to no field. A text that is no Unicode string spoils the whole
mapping. -/
def strayKeys (fields : List Field) (es : Entries) : List Issue :=
  es.filterMap fun e =>
    match e.1 with
    | .text t =>
      if fields.any fun f => f.1.key == e.1 then none else some ⟨[.key t], .unknownKey⟩
    | key => some ⟨[PathStep.ofKey key], .keyNotText⟩

/-- Whether some key is a text that is no Unicode string. -/
def hasUnreadableKey (es : Entries) : Bool :=
  es.any fun e => match e.1 with
    | .text t => t.toString?.isNone
    | _ => false

/-- A group, unless there were faults. -/
def finishGroup (name : String) (fields : List Field) (es : Entries)
    (checked : List Issue × List (String × Setting)) : Checked Setting :=
  if hasUnreadableKey es then Checked.fault .notUnicode
  else
    let issues := checked.1 ++ strayKeys fields es
    if issues.isEmpty then .ok (.group name checked.2) else .error issues

mutual

def FieldType.check (t : FieldType) (input : Setting) : Checked Setting :=
  match t with
  | .scalar t => match t.coerce input with
    | .ok s => .ok (.value (.scalar s))
    | .error kind => Checked.fault kind
  | .any => .ok input
  | .mapping => match input.entries? with
    | some es => .ok (.value (.map es))
    | none => Checked.fault .notMapping
  | .bareList => checkList none input
  | .list item => checkList item input
  | .enumeration e => e.check input
  | .union _ nullable members =>
    if nullable && input.isNull then .ok input else Trial.choose (trials members input)
  | .group name fields => match input with
    | .group n _ => if n == name then .ok input else Checked.fault (.notGroup name)
    | .value v => match v.entries? with
      | none => Checked.fault (.notGroup name)
      | some es => finishGroup name fields es (checkFields fields es)

/-- What each alternative makes of a setting. -/
def trials (members : List FieldType) (input : Setting) : List Trial :=
  match members with
  | [] => []
  | t :: ts => ⟨t.label, t.fit input, t.check input⟩ :: trials ts input

/-- The fields of a group as a mapping gives them, and their faults. -/
def checkFields (fields : List Field) (es : Entries) : List Issue × List (String × Setting) :=
  match fields with
  | [] => ([], [])
  | (info, t) :: rest =>
    let (issues, settings) := checkFields rest es
    let result : Checked Setting := match Field.valueIn? (info, t) es with
      | some v => (t.check (info.prepare (.value v))).bind info.obey
      | none => Checked.fault .missing
    match Checked.under (PathStep.ofString info.name) result with
    | .ok s => (issues, (info.name, s) :: settings)
    | .error found => (found ++ issues, settings)

end

def Field.check (f : Field) (input : Setting) : Checked Setting :=
  (f.2.check (f.1.prepare input)).bind f.1.obey

namespace Schema

def check (s : Schema) (v : Value) : Checked Setting := s.toType.check (.value v)

/-- The settings in effect if nothing is given. -/
def defaults (s : Schema) : Checked Setting := s.check (.map [])

/-- Names that begin with an underscore are private: what they are given is no setting. -/
def isPrivateName (name : String) : Bool := name.toList.head? == some '_'

/-- The group with one field given anew. -/
def assign (s : Schema) (current : Setting) (name : String) (input : Setting) : Checked Setting :=
  let step := PathStep.ofString name
  match s.field? name with
  | none => if isPrivateName name then .ok current else .error [⟨[step], .noSuchField name⟩]
  | some f => Checked.under step ((f.check input).map (current.put name))

/-- Why a value cannot be assigned at a path. -/
inductive AssignFault where
  | refused (issues : List Issue)
  /-- The path leads to something that has no such part. -/
  | noPart (kind name : String)

/-- What is said of something that has no part with a name. -/
def noPartMessage (kind name : String) : String :=
  s!"{Quoted.ofString kind} object has no attribute {Quoted.ofString name}"

/-- Assigns a value at a path below a group. -/
def assignAt (s : Schema) (config : Setting) (v : Value) : List String → Except AssignFault Setting
  | [] => .ok config
  | [name] => (s.assign config name (.value v)).mapError .refused
  | name :: rest =>
    match s.field? name, config.get? name with
    | some (_, t), some (.group n fields) =>
      match t.groupNamed? n with
      | some inner => (assignAt inner (.group n fields) v rest).map (config.put name)
      | none => .error (.noPart s.name name)
    | some _, some (.value held) => .error (.noPart held.kindName (rest.headD ""))
    | _, _ => .error (.noPart s.name name)

end Schema

end BootConfig
