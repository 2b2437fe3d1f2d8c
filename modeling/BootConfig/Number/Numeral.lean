import BootConfig.Text.Blank
import BootConfig.Text.Digit
import BootConfig.Text.Quoted
import BootConfig.Number.Shortest

/-!
# Numerals

Reading of integers and floating-point numbers from texts, and the writing of integers.

* Digits of every script count; one underscore may stand between two digits.
* `Numeral.int`: an integer in base 2, 8, 10 or 16, with an optional sign and, other than in base
  10, an optional mark of the base. In base 10 the number of digits is limited.
* `Numeral.double?`: a decimal fraction with an optional exponent, or a word for infinity or NaN.
-/

namespace BootConfig.Numeral

/-- Integers with more digits than this are neither read nor written in base 10. -/
def maxDigits : Nat := 4300

/-- Why a text is no integer. -/
inductive IntFault where
  | malformed (base : Nat) (source : Text)
  | tooLong (digits : Nat)

/-- A limit on digits as the messages state it. -/
def limitText : String := s!"Exceeds the limit ({maxDigits} digits) for integer string conversion"

/-- The remedy that messages about the limit end with. -/
def limitRemedy : String := "use sys.set_int_max_str_digits() to increase the limit"

def IntFault.message : IntFault → String
  | .malformed base source =>
    let quoted := String.ofList ((Quoted.ofText source).toList.take 200)
    s!"invalid literal for int() with base {base}: {quoted}"
  | .tooLong digits => s!"{limitText}: value has {digits} digits; {limitRemedy}"

/-- The ASCII character that a code point stands for in a numeral: a digit of any script is its
ASCII digit and a blank above ASCII is a space. Others have no place in a numeral. -/
def asciiOf (c : CodePoint) : Char :=
  if c.val < 0x7F then c.toCharD
  else if Blank.isBlank c then ' '
  else match Digit.value? c with
    | some d => Nat.digitChar d
    | none => '?'

/-- White space around a numeral. -/
def isSpace (c : Char) : Bool := c == ' ' || ('\t' ≤ c && c ≤ '\r')

/-- Removes white space from both ends. -/
def strip (cs : List Char) : List Char := Blank.trimBoth isSpace cs

def digitValue (c : Char) : Nat :=
  if '0' ≤ c && c ≤ '9' then c.toNat - '0'.toNat
  else if 'a' ≤ c && c ≤ 'z' then c.toNat - 'a'.toNat + 10
  else if 'A' ≤ c && c ≤ 'Z' then c.toNat - 'A'.toNat + 10
  else 36

/-- The digits at the head of a numeral and what follows them. An underscore has to stand between
two digits. -/
def scanDigits (base : Nat) (afterDigit : Bool) : List Char → Option (List Nat × List Char)
  | [] => some ([], [])
  | c :: cs =>
    if digitValue c < base then
      (scanDigits base true cs).map fun p => (digitValue c :: p.1, p.2)
    else if c == '_' then
      match cs with
      | d :: _ => if afterDigit && digitValue d < base then scanDigits base false cs else none
      | [] => none
    else some ([], c :: cs)

/-- The number with given digits, most significant first. -/
def ofDigits (base : Nat) (ds : List Nat) : Nat := ds.foldl (fun n d => n * base + d) 0

/-- The letter that marks a base after a zero. -/
def isBaseMark (base : Nat) (c : Char) : Bool :=
  match base with
  | 2 => c == 'b' || c == 'B'
  | 8 => c == 'o' || c == 'O'
  | 16 => c == 'x' || c == 'X'
  | _ => false

/-- Drops the mark of the base, and one underscore after it. -/
def dropBaseMark (base : Nat) (cs : List Char) : List Char :=
  match cs with
  | '0' :: m :: rest =>
    if isBaseMark base m then
      match rest with
      | '_' :: rest => rest
      | rest => rest
    else cs
  | cs => cs

/-- Splits an optional sign off. -/
def takeSign : List Char → Bool × List Char
  | '-' :: cs => (true, cs)
  | '+' :: cs => (false, cs)
  | cs => (false, cs)

/-- The integer that a text stands for in a base. -/
def int (base : Nat) (t : Text) : Except IntFault Int :=
  let (negative, cs) := takeSign (strip (t.points.map asciiOf))
  match scanDigits base false (dropBaseMark base cs) with
  | none => .error (.malformed base t)
  | some (ds, rest) =>
    if ds.isEmpty then .error (.malformed base t)
    else if base == 10 && maxDigits < ds.length then .error (.tooLong ds.length)
    else if !rest.isEmpty then .error (.malformed base t)
    else
      let n : Int := (ofDigits base ds : Nat)
      .ok (if negative then -n else n)

/-- The decimal text of an integer, whatever its length. -/
def intText (n : Int) : String :=
  let ds := Shortest.natDigits n.natAbs
  String.ofList (if n < 0 then '-' :: ds else ds)

/-- The decimal text of an integer that is not too long. -/
def intText? (n : Int) : Option String :=
  if Shortest.tenPow maxDigits ≤ n.natAbs then none else some (intText n)

/-- The message for an integer that is too long to be written. -/
def tooLongToWrite : String := s!"{limitText}; {limitRemedy}"

/-! ## Decimal fractions -/

/-- Removes underscores that stand between two digits; others are refused. -/
def dropUnderscores (afterDigit : Bool) : List Char → Option (List Char)
  | [] => some []
  | '_' :: cs =>
    match cs with
    | d :: _ => if afterDigit && d.isDigit then dropUnderscores false cs else none
    | [] => none
  | c :: cs => (dropUnderscores c.isDigit cs).map (c :: ·)

/-- The exponent after a mantissa; nothing else may follow. -/
def exponent? : List Char → Option Int
  | [] => some 0
  | e :: cs =>
    if e == 'e' || e == 'E' then
      let (negative, ds) := takeSign cs
      if ds.isEmpty || !ds.all Char.isDigit then none
      else
        let n : Int := (ofDigits 10 (ds.map digitValue) : Nat)
        some (if negative then -n else n)
    else none

/-- The number nearest to `n · 10 ^ x`. Exponents far outside the format are not computed. -/
def nearest (negative : Bool) (n : Nat) (x : Int) : Double :=
  if n = 0 then Double.zero negative
  else
    let mag := x + Shortest.decimalLength n
    if mag > 400 then .inf negative
    else if mag < -400 then Double.zero negative
    else
      let (num, den) := Shortest.shifted n 1 x
      Double.ofRatio negative num den

/-- A decimal fraction with an optional exponent. -/
def fraction? (negative : Bool) (cs : List Char) : Option Double :=
  let whole := cs.takeWhile Char.isDigit
  let rest := cs.dropWhile Char.isDigit
  let (frac, rest) := match rest with
    | '.' :: r => (r.takeWhile Char.isDigit, r.dropWhile Char.isDigit)
    | r => ([], r)
  if whole.isEmpty && frac.isEmpty then none
  else (exponent? rest).map fun x =>
    nearest negative (ofDigits 10 ((whole ++ frac).map digitValue)) (x - frac.length)

/-- A number written in ASCII: a fraction, or a word for infinity or NaN in any case. A NaN gets
the label given. -/
def asciiDouble? (label : Nat) (cs : List Char) : Option Double :=
  let (negative, cs) := takeSign cs
  let word := String.ofList (cs.map Char.toLower)
  if word == "inf" || word == "infinity" then some (.inf negative)
  else if word == "nan" then some (.nan label)
  else fraction? negative cs

/-- The floating-point number that a text stands for. -/
def double? (label : Nat) (t : Text) : Option Double :=
  (dropUnderscores false (strip (t.points.map asciiOf))).bind (asciiDouble? label)

end BootConfig.Numeral
