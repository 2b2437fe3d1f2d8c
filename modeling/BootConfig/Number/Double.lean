/-!
# Binary floating point

Numbers of the 64-bit binary format, with exact arithmetic underneath: an operation computes the
exact rational result and rounds it once, to the nearest number, a tie to the even significand.

* `Double.finite negative mant scale`: the number `mant · 2 ^ scale / 2 ^ 1074`.
* `Double.ofRatio`: the number nearest to a fraction.
* `Double.add`, `Double.mul`: arithmetic; `Double.eqInt`: comparison with an exact integer.
-/

namespace BootConfig

/-- A number of the 64-bit binary format. A NaN carries a label that tells its object from other
NaNs; it takes no part in arithmetic. -/
inductive Double where
  | nan (label : Nat)
  | inf (negative : Bool)
  | finite (negative : Bool) (mant scale : Nat)
deriving DecidableEq, Inhabited

namespace Double

def zero (negative : Bool) : Double := .finite negative 0 0

/-- Division to the nearest integer, a tie to the even one. -/
def divNearest (num den : Nat) : Nat :=
  let q := num / den
  let r := num % den
  if 2 * r < den then q else if den < 2 * r then q + 1 else if q % 2 == 0 then q else q + 1

/-- Significands have 53 bits. -/
def mantBits : Nat := 53

/-- The greatest scale of a finite number. -/
def maxScale : Nat := 2045

/-- A power of two. -/
def twoPow (k : Nat) : Nat := Nat.pow 2 k

/-- The number of units in one. -/
def oneInUnits : Nat := twoPow 1074

/-- A significand below `2 ^ 54` put into its normal form, at infinity if the scale is too great. -/
def pack (negative : Bool) (mant scale : Nat) : Double :=
  let (mant, scale) :=
    if mant = twoPow mantBits then (twoPow (mantBits - 1), scale + 1) else (mant, scale)
  if maxScale < scale then .inf negative else .finite negative mant scale

/-- The number nearest to `num / den · 2 ^ -1074`. -/
def ofScaledRatio (negative : Bool) (num den : Nat) : Double :=
  let q := num / den
  let scale := if q < twoPow mantBits then 0 else q.log2 + 1 - mantBits
  pack negative (divNearest num (den * twoPow scale)) scale

/-- The number nearest to `num / den`. -/
def ofRatio (negative : Bool) (num den : Nat) : Double :=
  ofScaledRatio negative (num * oneInUnits) den

/-- The number nearest to an integer; none if that is infinite. -/
def ofInt? (n : Int) : Option Double :=
  match ofRatio (n < 0) n.natAbs 1 with
  | .inf _ => none
  | d => some d

def isFinite : Double → Bool
  | .finite _ _ _ => true
  | _ => false

def neg : Double → Double
  | .nan l => .nan l
  | .inf s => .inf (!s)
  | .finite s m e => .finite (!s) m e

/-- The signed multiple of `2 ^ -1074` that a finite number is. -/
def units (negative : Bool) (mant scale : Nat) : Int :=
  if negative then -((mant * twoPow scale : Nat) : Int) else ((mant * twoPow scale : Nat) : Int)

/-- The label of a NaN that an operation produces. -/
def freshNaN : Double := .nan 0

/-- The sum. A zero sum is negative only if both terms are. -/
def add : Double → Double → Double
  | .nan l, _ => .nan l
  | _, .nan l => .nan l
  | .inf s, .inf t => if s == t then .inf s else freshNaN
  | .inf s, _ => .inf s
  | _, .inf t => .inf t
  | .finite s m e, .finite t n f =>
    let total := units s m e + units t n f
    if total = 0 then zero (s && t) else ofScaledRatio (total < 0) total.natAbs 1

/-- The product. -/
def mul : Double → Double → Double
  | .nan l, _ => .nan l
  | _, .nan l => .nan l
  | .inf s, .inf t => .inf (s != t)
  | .inf s, .finite t n _ => if n = 0 then freshNaN else .inf (s != t)
  | .finite s m _, .inf t => if m = 0 then freshNaN else .inf (s != t)
  | .finite s m e, .finite t n f =>
    ofScaledRatio (s != t) (m * n * twoPow (e + f)) oneInUnits

/-- Whether the number is exactly an integer. -/
def eqInt (d : Double) (n : Int) : Bool :=
  match d with
  | .finite s m e => units s m e == n * (oneInUnits : Int)
  | _ => false

/-- The integer that the number is, if it is one. -/
def toInt? : Double → Option Int
  | .finite s m e =>
    let u := units s m e
    if u % (oneInUnits : Int) = 0 then some (u / (oneInUnits : Int)) else none
  | _ => none

/-- Equality of values: zeros of both signs are equal. NaNs are equal if they are one object. -/
def same : Double → Double → Bool
  | .nan l, .nan k => l == k
  | .inf s, .inf t => s == t
  | .finite s m e, .finite t n f => units s m e == units t n f
  | _, _ => false

end Double

end BootConfig
