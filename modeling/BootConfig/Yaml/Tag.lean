import BootConfig.Text.Basic

/-!
# Tags

The tag of a node says of what kind its value is. A plain scalar without a tag gets one by its
text: words for truth values and null, numbers, times, and the two special keys `<<` and `=`; any
other text is a string.

* `Tag.ofText`: the tag of an untagged plain scalar.
* `TimeText.parse?`: the parts of a time.
-/

namespace BootConfig.Yaml

namespace Tag

def standard (name : String) : String := "tag:yaml.org,2002:" ++ name

def null : String := standard "null"
def bool : String := standard "bool"
def int : String := standard "int"
def float : String := standard "float"
def binary : String := standard "binary"
def timestamp : String := standard "timestamp"
def orderedMap : String := standard "omap"
def pairs : String := standard "pairs"
def set : String := standard "set"
def str : String := standard "str"
def seq : String := standard "seq"
def map : String := standard "map"
/-- The key whose value is merged into the mapping. -/
def merge : String := standard "merge"
/-- The key whose value stands for the mapping. -/
def value : String := standard "value"
/-- A lone indicator. -/
def yaml : String := standard "yaml"

end Tag

/-! ## Times -/

/-- The parts of an offset from UTC. -/
structure OffsetText where
  negative : Bool
  hours : Nat
  minutes : Nat
deriving DecidableEq, Inhabited

/-- The clock time of a timestamp. -/
structure ClockText where
  hour : Nat
  minute : Nat
  second : Nat
  fraction : List Char
  /-- `none` without an offset, `some none` for UTC. -/
  zone : Option (Option OffsetText)
deriving DecidableEq, Inhabited

/-- The parts of a timestamp. -/
structure TimeText where
  year : Nat
  month : Nat
  day : Nat
  /-- Whether month and day have two digits each. -/
  fullDate : Bool
  clock : Option ClockText
deriving DecidableEq, Inhabited

namespace TimeText

def digitOf (c : Char) : Nat := c.toNat - '0'.toNat

def number (ds : List Char) : Nat := ds.foldl (fun n c => n * 10 + digitOf c) 0

/-- Between `least` and `most` digits, as many as there are, with what follows them. -/
def digits? (least most : Nat) (cs : List Char) : Option (List Char × List Char) :=
  let ds := (cs.take most).takeWhile Char.isDigit
  if ds.length < least then none else some (ds, cs.drop ds.length)

/-- What follows a given character. -/
def after? (c : Char) : List Char → Option (List Char)
  | [] => none
  | d :: rest => if d == c then some rest else none

def isGap (c : Char) : Bool := c == ' ' || c == '\t'

/-- The offset at the end of a timestamp. -/
def zone? (cs : List Char) : Option (Option (Option OffsetText)) :=
  match cs.dropWhile isGap with
  | [] => if cs.isEmpty then some none else none
  | ['Z'] => some (some none)
  | sign :: rest =>
    if sign == '+' || sign == '-' then do
      let (hours, rest) ← digits? 1 2 rest
      let minutes ←
        if rest.isEmpty then some 0
        else do
          let rest ← after? ':' rest
          let (ds, rest) ← digits? 2 2 rest
          if rest.isEmpty then some (number ds) else none
      return some (some ⟨sign == '-', number hours, minutes⟩)
    else none

/-- The part of a timestamp after its date. -/
def clock? (cs : List Char) : Option ClockText := do
  let rest ← match cs with
    | [] => none
    | c :: rest =>
      if c == 'T' || c == 't' then some rest
      else if isGap c then some (rest.dropWhile isGap)
      else none
  let (hour, rest) ← digits? 1 2 rest
  let (minute, rest) ← digits? 2 2 (← after? ':' rest)
  let (second, rest) ← digits? 2 2 (← after? ':' rest)
  let (fraction, rest) := match after? '.' rest with
    | some rest => (rest.takeWhile Char.isDigit, rest.dropWhile Char.isDigit)
    | none => ([], rest)
  let zone ← zone? rest
  return ⟨number hour, number minute, number second, fraction, zone⟩

def parseLine? (cs : List Char) : Option TimeText := do
  let (year, rest) ← digits? 4 4 cs
  let (month, rest) ← digits? 1 2 (← after? '-' rest)
  let (day, rest) ← digits? 1 2 (← after? '-' rest)
  let fullDate := month.length == 2 && day.length == 2
  if rest.isEmpty then return ⟨number year, number month, number day, fullDate, none⟩
  else return ⟨number year, number month, number day, fullDate, some (← clock? rest)⟩

/-- The text without one line feed at its end. -/
def withoutLineFeed (cs : List Char) : List Char :=
  if cs.getLast? == some '\n' then cs.dropLast else cs

/-- The parts of a timestamp; one line feed may follow it. -/
def parse? (cs : List Char) : Option TimeText := parseLine? (withoutLineFeed cs)

end TimeText

/-! ## Tags by text -/

namespace Tag

def isBoolWord (cs : List Char) : Bool :=
  ["yes", "Yes", "YES", "no", "No", "NO", "true", "True", "TRUE", "false", "False", "FALSE", "on",
    "On", "ON", "off", "Off", "OFF"].contains (String.ofList cs)

def isNullWord (cs : List Char) : Bool :=
  ["~", "null", "Null", "NULL"].contains (String.ofList cs)

def isDigitOrUnderscore (c : Char) : Bool := c.isDigit || c == '_'

def dropSign (cs : List Char) : List Char :=
  match cs with
  | c :: rest => if c == '+' || c == '-' then rest else cs
  | [] => []

/-- Not empty, and of one class throughout. -/
def allOf (p : Char → Bool) (cs : List Char) : Bool := !cs.isEmpty && cs.all p

/-- A number below 60, of one or two digits. -/
def isSixtieth (cs : List Char) : Bool :=
  match cs with
  | [a] => a.isDigit
  | [a, b] => '0' ≤ a && a ≤ '5' && b.isDigit
  | _ => false

/-- Splits at every occurrence of a character. -/
def splitAt (c : Char) : List Char → List (List Char)
  | [] => [[]]
  | d :: rest =>
    match splitAt c rest with
    | part :: parts => if d == c then [] :: part :: parts else (d :: part) :: parts
    | [] => [[]]

/-- Digits and underscores, a digit in front. -/
def isDigitRun (cs : List Char) : Bool :=
  match cs with
  | c :: rest => c.isDigit && rest.all isDigitOrUnderscore
  | [] => false

def isIntText (cs : List Char) : Bool :=
  let body := dropSign cs
  let binary := fun (c : Char) => c == '0' || c == '1' || c == '_'
  let octal := fun (c : Char) => ('0' ≤ c && c ≤ '7') || c == '_'
  let hex := fun (c : Char) =>
    c.isDigit || ('a' ≤ c && c ≤ 'f') || ('A' ≤ c && c ≤ 'F') || c == '_'
  match body with
  | ['0'] => true
  | '0' :: 'b' :: rest => allOf binary rest
  | '0' :: 'x' :: rest => allOf hex rest
  | '0' :: rest => rest.all octal
  | c :: _ =>
    c.isDigit &&
      match splitAt ':' body with
      | first :: sixtieths => isDigitRun first && sixtieths.all isSixtieth
      | [] => false
  | [] => false

/-- An exponent with a sign, or nothing. -/
def isExponent (cs : List Char) : Bool :=
  match cs with
  | [] => true
  | e :: sign :: rest =>
    (e == 'e' || e == 'E') && (sign == '+' || sign == '-') && allOf Char.isDigit rest
  | _ => false

/-- A fraction after its point: digits and underscores and an exponent. -/
def isFractionTail (cs : List Char) : Bool := isExponent (cs.dropWhile isDigitOrUnderscore)

def isFloatText (cs : List Char) : Bool :=
  let body := dropSign cs
  let word := String.ofList (body.drop 1)
  match body with
  | '.' :: rest =>
    word == "inf" || word == "Inf" || word == "INF" ||
      (body.length == cs.length &&
        (word == "nan" || word == "NaN" || word == "NAN" ||
          (match rest with
           | d :: _ => d.isDigit && isFractionTail rest
           | [] => false)))
  | _ =>
    let whole := body.takeWhile (· != '.')
    match body.dropWhile (· != '.') with
    | [] => false
    | _ :: rest =>
      match splitAt ':' whole with
      | [first] => isDigitRun first && isFractionTail rest
      | first :: sixtieths =>
        isDigitRun first && sixtieths.all isSixtieth && rest.all isDigitOrUnderscore
      | [] => false

def isTimeText (cs : List Char) : Bool :=
  match TimeText.parseLine? cs with
  | some t => t.fullDate || t.clock.isSome
  | none => false

/-- The tag of a text on one line; none for a string. -/
def ofLine? (cs : List Char) : Option String :=
  if isBoolWord cs then some bool
  else if isFloatText cs then some float
  else if isIntText cs then some int
  else if cs == ['<', '<'] then some merge
  else if isNullWord cs then some null
  else if isTimeText cs then some timestamp
  else if cs == ['='] then some value
  else if cs == ['!'] || cs == ['&'] || cs == ['*'] then some yaml
  else none

/-- The tag of an untagged plain scalar. One line feed at the end does not count. -/
def ofText (t : Text) : String :=
  match t.toChars? with
  | none => str
  | some [] => null
  | some cs => (ofLine? (TimeText.withoutLineFeed cs)).getD str

end Tag

end BootConfig.Yaml
