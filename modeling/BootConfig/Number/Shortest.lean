import BootConfig.Number.Double

/-!
# Shortest decimal text

The text of a floating-point number has the fewest significant digits that read back as the same
number; of two such decimals the nearer one is taken. The choice of the digits (`Shortest.digits`)
and their layout (`Shortest.layout`) are separate.
-/

namespace BootConfig

namespace Shortest

/-- Least `p` with `n < 10 ^ p`. -/
def decimalLength (n : Nat) : Nat :=
  go n n
where
  go : Nat → Nat → Nat
    | 0, _ => 0
    | fuel + 1, n => if n = 0 then 0 else go fuel (n / 10) + 1

/-- Decimal exponent `x` with `10 ^ (x - 1) ≤ num / den < 10 ^ x`, for a positive fraction. -/
def magnitude (num den : Nat) : Int :=
  if den ≤ num then decimalLength (num / den)
  else
    -- `den / num` lies in `(10 ^ k, 10 ^ (k + 1)]` for the exponent `-k`
    let k := decimalLength ((den - 1) / num)
    1 - (k : Int)

/-- A power of ten. -/
def tenPow (k : Nat) : Nat := Nat.pow 10 k

/-- The fraction `num / den` times `10 ^ shift`. -/
def shifted (num den : Nat) (shift : Int) : Nat × Nat :=
  if 0 ≤ shift then (num * tenPow shift.toNat, den) else (num, den * tenPow (-shift).toNat)

/-- The number nearest to `n · 10 ^ x`. -/
def decimalValue (n : Nat) (x : Int) : Double :=
  let (num, den) := shifted n 1 x
  Double.ofRatio false num den

/-- The decimal with `p` significant digits that reads back as `num / den` and is nearest to it. Of
its two neighbours on the grid of such decimals, one is below and one above. -/
def candidate? (num den : Nat) (mag : Int) (p : Nat) : Option Nat :=
  let shift : Int := p - mag
  let (n, d) := shifted num den shift
  let target := Double.ofRatio false num den
  let low := n / d
  let rest := n % d
  let lowFits := decimalValue low (-shift) == target
  let highFits := decimalValue (low + 1) (-shift) == target
  if rest = 0 then (if lowFits then some low else none)
  else match lowFits, highFits with
    | true, true =>
      if 2 * rest < d then some low else if d < 2 * rest then some (low + 1)
      else if low % 2 == 0 then some low else some (low + 1)
    | true, false => some low
    | false, true => some (low + 1)
    | false, false => none

/-- The shortest decimal `n · 10 ^ x` of a positive fraction, as `(n, x)`. -/
def decimal (num den : Nat) : Nat × Int :=
  let mag := magnitude num den
  match (List.range 17).findSome? fun i =>
      (candidate? num den mag (i + 1)).map fun n => (n, mag - ((i + 1 : Nat) : Int)) with
  | some r => r
  | none => (num / den, 0)

/-- The decimal digits of a number, without leading zeros. -/
def natDigits (n : Nat) : List Char :=
  if n < 10 then [Nat.digitChar n] else natDigits (n / 10) ++ [Nat.digitChar (n % 10)]
termination_by n
decreasing_by omega

/-- The significant digits `d₁d₂…` and the exponent `x` such that the value is
`0.d₁d₂… · 10 ^ x`. -/
def digits (num den : Nat) : List Char × Int :=
  let (n, x) := decimal num den
  let ds := natDigits n
  let kept := (ds.reverse.dropWhile (· == '0')).reverse
  (kept, x + ds.length)

/-- Exponents of ten from which on, and below which, the text has an exponent. -/
def positionalFrom : Int := -3
def positionalUpTo : Int := 16

/-- Positional notation with at least one digit on each side of the point; outside of it one digit
stands before the point, and the exponent has a sign and at least two digits. -/
def layout (ds : List Char) (x : Int) : List Char :=
  if positionalFrom ≤ x && x ≤ positionalUpTo then
    if x ≤ 0 then '0' :: '.' :: List.replicate (-x).toNat '0' ++ ds
    else
      let whole := ds.take x.toNat
      let frac := ds.drop x.toNat
      whole ++ List.replicate (x.toNat - whole.length) '0' ++ '.' ::
        (if frac.isEmpty then ['0'] else frac)
  else
    let e := x - 1
    let mark := if e < 0 then '-' else '+'
    let eds := natDigits e.natAbs
    let eds := if eds.length < 2 then '0' :: eds else eds
    match ds with
    | [] => []
    | [d] => d :: 'e' :: mark :: eds
    | d :: frac => d :: '.' :: frac ++ 'e' :: mark :: eds

end Shortest

namespace Double

/-- The shortest text that reads back as the number. -/
def text : Double → String
  | .nan _ => "nan"
  | .inf neg => if neg then "-inf" else "inf"
  | .finite neg mant scale =>
    let body :=
      if mant = 0 then ['0', '.', '0']
      else
        let (ds, x) := Shortest.digits (mant * twoPow scale) oneInUnits
        Shortest.layout ds x
    String.ofList (if neg then '-' :: body else body)

end Double

end BootConfig
