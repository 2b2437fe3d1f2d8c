import BootConfig.Schema.Issue

/-!
# Coercion of scalars

How a value is taken as an integer, a floating-point number, a text or a truth value. A value of the
type itself is taken as it is; some others are converted if nothing is lost.

* `ScalarType.coerce`: the scalar that a setting gives for a type.
* `ScalarType.fit`: how well a setting fits a type, for the choice among alternatives.
-/

namespace BootConfig

namespace Coercion

/-- Removes white space from both ends; information separators stay. -/
def trim (cs : List Char) : List Char :=
  Blank.trimBoth (fun c => Blank.isWhite (CodePoint.ofChar c)) cs

/-- The characters of a value that is written down: a text, or the bytes of one. Bytes that are no
text give the fault named; other values give nothing. -/
def written (fault : IssueKind) : Scalar → Except IssueKind (Option (List Char))
  | .text t => match t.toChars? with
    | some cs => .ok (some cs)
    | none => .error .notUnicode
  | .bytes b => match (Utf8.decode b).toOption.bind Text.toChars? with
    | some cs => .ok (some cs)
    | none => .error fault
  | _ => .ok none

/-! ## Integers -/

/-- Longer texts are not read as integers. -/
def maxLength : Nat := 4300

/-- Zeros, and underscores among them, before the first other digit are dropped. Of zeros alone one
remains. -/
def dropZeros (cs : List Char) : Option (List Char) :=
  match cs with
  | [] => none
  | c :: rest =>
    if c == '0' then
      let isZero := fun c => c == '0' || c == '_'
      let last := (rest.takeWhile isZero).getLastD c
      match rest.dropWhile isZero with
      | [] => some [last]
      | d :: tail =>
        if d == '.' then some (last :: d :: tail) else if d.isDigit then some (d :: tail) else none
    else if c.isDigit || c == '-' then some cs
    else none

/-- A point with nothing but zeros after it, one at least, is dropped. -/
def dropFraction (cs : List Char) : List Char :=
  match cs.dropWhile (· != '.') with
  | '.' :: zeros =>
    if !zeros.isEmpty && zeros.all (· == '0') then cs.takeWhile (· != '.') else cs
  | _ => cs

/-- Whether two underscores stand side by side. -/
def doubledUnderscore : List Char → Bool
  | '_' :: '_' :: _ => true
  | _ :: cs => doubledUnderscore cs
  | [] => false

/-- Removes single underscores that stand inside. -/
def dropUnderscores? (cs : List Char) : Option (List Char) :=
  if cs.head? == some '_' || cs.getLast? == some '_' || doubledUnderscore cs then none
  else some (cs.filter (· != '_'))

/-- The integer that digits, with an optional minus, stand for. -/
def signedDigits? (cs : List Char) : Option Int :=
  let (negative, ds) := match cs with
    | '-' :: ds => (true, ds)
    | ds => (false, ds)
  if ds.isEmpty || !ds.all Char.isDigit then none
  else
    let n : Int := (Numeral.ofDigits 10 (ds.map Numeral.digitValue) : Nat)
    some (if negative then -n else n)

/-- The text without a plus in front; a second sign is refused. -/
def dropPlus? (cs : List Char) : Option (List Char) :=
  match cs with
  | '+' :: '-' :: _ => none
  | '+' :: rest => some rest
  | cs => some cs

/-- The integer that a text stands for. A fraction of zeros may follow it. -/
def intOfChars (cs : List Char) : Except IssueKind Int :=
  let cs := trim cs
  if maxLength < cs.length then .error .oversizedInt
  else
    let n? := do
      let cs ← dropPlus? cs
      let cs ← dropZeros cs
      signedDigits? (← dropUnderscores? (dropFraction cs))
    match n? with
    | some n => .ok n
    | none => .error .unparsedInt

/-- The integer that a floating-point number is. It has to fit 64 bits. -/
def intOfDouble (d : Double) : Except IssueKind Int :=
  if !d.isFinite then .error .notFinite
  else match d.toInt? with
    | none => .error .fractionalInt
    | some n =>
      if -PathStep.indexBound < n && n < PathStep.indexBound then .ok n else .error .oversizedInt

def int (s : Scalar) : Except IssueKind Int := do
  match ← written .unparsedInt s with
  | some cs => intOfChars cs
  | none => match s with
    | .int n => .ok n
    | .bool b => .ok (if b then 1 else 0)
    | .double d => intOfDouble d
    | _ => .error .notInt

/-! ## Other types -/

/-- The number that a text stands for. There may be blanks at its ends or underscores inside, but
not both. -/
def floatOfChars (cs : List Char) : Except IssueKind Double :=
  let plain := Numeral.asciiDouble? 0 (trim cs)
  match plain.or ((dropUnderscores? cs).bind (Numeral.asciiDouble? 0)) with
  | some d => .ok d
  | none => .error .unparsedFloat

def float (s : Scalar) : Except IssueKind Double := do
  match ← written .unparsedFloat s with
  | some cs => floatOfChars cs
  | none => match s with
    | .double d => .ok d
    | .int n => match Double.ofInt? n with
      | some d => .ok d
      | none => .error .notFloat
    | .bool b => .ok (Double.ofRatio false (if b then 1 else 0) 1)
    | _ => .error .notFloat

def trueWords : List String := ["1", "t", "true", "on", "y", "yes"]
def falseWords : List String := ["0", "f", "false", "off", "n", "no"]

/-- The truth value that a word stands for, in any case. -/
def boolOfChars (cs : List Char) : Except IssueKind Bool :=
  let word := String.ofList (cs.map Char.toLower)
  if trueWords.contains word then .ok true
  else if falseWords.contains word then .ok false
  else .error .unparsedBool

/-- One and zero are truth values. -/
def boolOfInt (n : Int) : Except IssueKind Bool :=
  if n = 1 then .ok true else if n = 0 then .ok false else .error .unparsedBool

def bool (s : Scalar) : Except IssueKind Bool := do
  match ← written .unparsedBool s with
  | some cs => boolOfChars cs
  | none => match s with
    | .bool b => .ok b
    | .int n =>
      if -PathStep.indexBound ≤ n && n < PathStep.indexBound then boolOfInt n else .error .notBool
    | .double d => match intOfDouble d with
      | .ok n => boolOfInt n
      | .error _ => .error .notBool
    | _ => .error .notBool

def text (s : Scalar) : Except IssueKind Text :=
  match s with
  | .text t => .ok t
  | .bytes b => match Utf8.decode b with
    | .ok t => .ok t
    | .error _ => .error .notUnicode
  | _ => .error .notText

end Coercion

/-- How well a value fits a type: it is of the type, it is as good as one, or it is converted. -/
inductive Fit where
  | converted
  | close
  | exact
deriving DecidableEq, Inhabited

namespace Fit

def rank : Fit → Nat
  | .converted => 0
  | .close => 1
  | .exact => 2

/-- The worse of two fits. -/
def min (a b : Fit) : Fit := if a.rank ≤ b.rank then a else b

end Fit

namespace ScalarType

/-- The fault of a value that has nothing to do with the type. -/
def mismatch : ScalarType → IssueKind
  | .int => .notInt
  | .float => .notFloat
  | .text => .notText
  | .bool => .notBool

/-- The scalar that another one gives for a type. -/
def coerceScalar (t : ScalarType) (s : Scalar) : Except IssueKind Scalar :=
  match t with
  | .int => (Coercion.int s).map .int
  | .float => (Coercion.float s).map .double
  | .text => (Coercion.text s).map .text
  | .bool => (Coercion.bool s).map .bool

def coerce (t : ScalarType) (input : Setting) : Except IssueKind Scalar :=
  match input.scalar? with
  | some s => t.coerceScalar s
  | none => .error t.mismatch

/-- How well a setting fits a type that takes it. -/
def fit (t : ScalarType) (input : Setting) : Fit :=
  match t, input.scalar? with
  | .int, some (.int _) => .exact
  | .float, some (.double _) => .exact
  | .float, some (.int _) => .close
  | .text, some (.text _) => .exact
  | .bool, some (.bool _) => .exact
  | _, _ => .converted

end ScalarType

end BootConfig
