import BootConfig.Text.Utf8

/-!
# UTF-16

Strict reading of code points from UTF-16 in either byte order.
-/

namespace BootConfig.Utf16

inductive ByteOrder where
  | little
  | big
deriving DecidableEq

/-- Why a byte sequence is not UTF-16. -/
inductive Malformed where
  /-- A single byte is left over. -/
  | oddByte
  /-- The bytes end after the first half of a surrogate pair. -/
  | truncated
  /-- The first half of a pair is not followed by a second half. -/
  | unpaired
  /-- A second half without a first one. -/
  | loneSecond
deriving DecidableEq

def Malformed.message : Malformed → String
  | .oddByte => "truncated data"
  | .truncated => "unexpected end of data"
  | .unpaired => "illegal UTF-16 surrogate"
  | .loneSecond => "illegal encoding"

structure DecodeError where
  position : Nat
  byte : UInt8
  why : Malformed

/-- The number that two bytes stand for. -/
def unit (order : ByteOrder) (a b : UInt8) : Nat :=
  match order with
  | .little => b.toNat * 256 + a.toNat
  | .big => a.toNat * 256 + b.toNat

def isFirstHalf (u : Nat) : Bool := 0xD800 ≤ u && u ≤ 0xDBFF
def isSecondHalf (u : Nat) : Bool := 0xDC00 ≤ u && u ≤ 0xDFFF

/-- The code point of a surrogate pair. -/
def pairPoint (first second : Nat) : CodePoint :=
  CodePoint.ofNatD (0x10000 + (first - 0xD800) * 1024 + (second - 0xDC00))

/-- The code points of bytes that are UTF-16 throughout, from byte `position` on. -/
def decodeFrom (order : ByteOrder) (position : Nat) : Bytes → Except DecodeError (List CodePoint)
  | [] => .ok []
  | [a] => .error ⟨position, a, .oddByte⟩
  | a :: b :: rest =>
    let u := unit order a b
    if isFirstHalf u then
      match rest with
      | c :: d :: rest =>
        let v := unit order c d
        if isSecondHalf v then
          (decodeFrom order (position + 4) rest).map (pairPoint u v :: ·)
        else .error ⟨position, a, .unpaired⟩
      | _ => .error ⟨position, a, .truncated⟩
    else if isSecondHalf u then .error ⟨position, a, .loneSecond⟩
    else (decodeFrom order (position + 2) rest).map (CodePoint.ofNatD u :: ·)

end BootConfig.Utf16
