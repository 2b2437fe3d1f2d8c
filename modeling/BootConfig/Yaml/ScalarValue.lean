import BootConfig.Data.Scalar
import BootConfig.Text.Base64
import BootConfig.Text.Case
import BootConfig.Yaml.Error
import BootConfig.Yaml.Tag

/-!
# Scalar values

The value that the text of a scalar stands for, by its tag. Numbers may hold underscores and may be
written in base 60, with colons between the digits.
-/

namespace BootConfig.Yaml.ScalarValue

/-- The value of a truth word in any case. -/
def truth? (t : Text) : Option Bool :=
  (t.toLower.toString?).bind fun word =>
    [("yes", true), ("no", false), ("true", true), ("false", false), ("on", true),
      ("off", false)].lookup word

def bool (t : Text) : Except Failure Scalar :=
  match truth? t with
  | some b => .ok (.bool b)
  | none => .error (.fault (.unknownTruth t.toLower))

def isChar (c : Char) (p : CodePoint) : Bool := p.val == c.toNat

def splitAt (c : Char) : List CodePoint → List (List CodePoint)
  | [] => [[]]
  | p :: rest =>
    match splitAt c rest with
    | part :: parts => if isChar c p then [] :: part :: parts else (p :: part) :: parts
    | [] => [[]]

/-- A number's text without underscores, split into its sign and the rest. -/
def signed (ps : List CodePoint) : Except Failure (Bool × List CodePoint) :=
  match ps.filter fun p => !isChar '_' p with
  | [] => .error (.fault .emptyNumber)
  | p :: rest =>
    if isChar '-' p then .ok (true, rest)
    else if isChar '+' p then .ok (false, rest)
    else .ok (false, p :: rest)

def intIn (base : Nat) (ps : List CodePoint) : Except Failure Int :=
  match Numeral.int base ⟨ps⟩ with
  | .ok n => .ok n
  | .error why => .error (.fault (.badInt why))

/-- An integer without its sign. -/
def magnitude (ps : List CodePoint) : Except Failure Int :=
  match ps with
  | [] => .error (.fault .emptyNumber)
  | p :: rest =>
    if isChar '0' p then
      match rest with
      | [] => .ok 0
      | q :: digits =>
        if isChar 'b' q then intIn 2 digits
        else if isChar 'x' q then intIn 16 digits
        else intIn 8 ps
    else if ps.any (isChar ':') then do
      let parts ← (splitAt ':' ps).mapM (intIn 10)
      return parts.foldl (fun n d => n * 60 + d) 0
    else intIn 10 ps

def int (t : Text) : Except Failure Scalar := do
  let (negative, ps) ← signed t.points
  let n ← magnitude ps
  return .int (if negative then -n else n)

/-- The label of the NaN that is written as such. -/
def sharedNaN : Double := .nan 0

def isWord (word : String) (ps : List CodePoint) : Bool := ps == (Text.ofString word).points

def doubleIn (label : Nat) (ps : List CodePoint) : Except Failure Double :=
  match Numeral.double? label ⟨ps⟩ with
  | some d => .ok d
  | none => .error (.fault (.badFloat ⟨ps⟩))

/-- The sum of the parts of a number in base 60, the last part first. Each weight has to lie in the
floating-point range. -/
def sexagesimal (weight : Nat) (sum : Double) : List Double → Except Failure Double
  | [] => .ok sum
  | d :: rest =>
    match Double.ofInt? weight with
    | none => .error (.fault .weightTooGreat)
    | some w => sexagesimal (weight * 60) (sum.add (d.mul w)) rest

/-- A floating-point number. A NaN that is not written as such is one of its own, with the label
given. -/
def double (label : Nat) (t : Text) : Except Failure Scalar := do
  let (negative, ps) ← signed (Text.toLower ⟨t.points.filter fun p => !isChar '_' p⟩).points
  let apply := fun (d : Double) => Scalar.double (if negative then d.neg else d)
  if isWord ".inf" ps then return apply (.inf false)
  else if isWord ".nan" ps then return .double sharedNaN
  else if ps.any (isChar ':') then
    let parts ← (splitAt ':' ps).mapM (doubleIn label)
    return apply (← sexagesimal 1 (Double.zero false) parts.reverse)
  else return apply (← doubleIn label ps)

/-- The microseconds of a fraction of a second; further digits are dropped. -/
def microseconds (fraction : List Char) : Nat :=
  let ds := fraction.take 6
  TimeText.number (ds ++ List.replicate (6 - ds.length) '0')

def offsetMinutes (o : OffsetText) : Int :=
  let n : Int := (o.hours * 60 + o.minutes : Nat)
  if o.negative then -n else n

def calendar {α : Type} (r : Except CalendarFault α) : Except Failure α :=
  r.mapError fun why => .fault (.badCalendar why)

def timestamp (t : Text) : Except Failure Scalar :=
  match t.toChars?.bind TimeText.parse? with
  | none => .error (.fault .notATimestamp)
  | some p =>
    match p.clock with
    | none => (calendar (Date.ofParts p.year p.month p.day)).map .date
    | some c =>
      let offset := c.zone.map fun z => (z.map offsetMinutes).getD 0
      (calendar (Timestamp.ofParts p.year p.month p.day c.hour c.minute c.second
        (microseconds c.fraction) offset)).map .stamp

/-- The bytes of a base-64 text. -/
def binary (t : Text) (start : Mark) : Except Failure Scalar :=
  let refuse := fun why => Except.error (.refused (.constructive (.plain (.badBase64 why) start)))
  let isAscii := fun (p : CodePoint) => p.val < 0x80
  match t.points.dropWhile isAscii with
  | p :: rest =>
    let position := (t.points.takeWhile isAscii).length
    refuse (.notAscii p position (position + 1 + (rest.takeWhile fun p => !isAscii p).length))
  | [] =>
    match Base64.decode (t.points.map Fin.val) with
    | .ok bytes => .ok (.bytes bytes)
    | .error .padding => refuse .padding
    | .error (.oneOver n) => refuse (.oneOver n)

end BootConfig.Yaml.ScalarValue
