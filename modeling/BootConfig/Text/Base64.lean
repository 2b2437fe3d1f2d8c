import BootConfig.Text.Utf8

/-!
# Base 64

Lenient reading of base-64 text: characters outside the alphabet are passed over, and the text ends
at a complete padding.
-/

namespace BootConfig.Base64

/-- Why a text is incomplete. -/
inductive Incomplete where
  | padding
  /-- One data character is left over after this many. -/
  | oneOver (dataCharacters : Nat)

/-- The six bits of a character of the alphabet. -/
def value? (n : Nat) : Option Nat :=
  if 0x41 ≤ n && n ≤ 0x5A then some (n - 0x41)
  else if 0x61 ≤ n && n ≤ 0x7A then some (n - 0x61 + 26)
  else if 0x30 ≤ n && n ≤ 0x39 then some (n - 0x30 + 52)
  else if n == 0x2B then some 62
  else if n == 0x2F then some 63
  else none

/-- A reader inside a group of four characters. -/
structure Reader where
  /-- Bytes so far, in reverse order. -/
  bytes : List UInt8
  /-- Number of characters of the group so far. -/
  filled : Nat
  /-- Bits that belong to no byte yet. -/
  left : Nat
  /-- Number of padding characters in a row. -/
  pads : Nat

/-- Takes a data character in. -/
def Reader.take (r : Reader) (bits : Nat) : Reader :=
  match r.filled with
  | 0 => ⟨r.bytes, 1, bits, 0⟩
  | 1 => ⟨UInt8.ofNat (r.left * 4 + bits / 16) :: r.bytes, 2, bits % 16, 0⟩
  | 2 => ⟨UInt8.ofNat (r.left * 16 + bits / 4) :: r.bytes, 3, bits % 4, 0⟩
  | _ => ⟨UInt8.ofNat (r.left * 64 + bits) :: r.bytes, 0, 0, 0⟩

/-- Reads characters up to a complete padding or the end. -/
def read (r : Reader) : List Nat → Except Incomplete Bytes
  | [] =>
    if r.filled == 0 then .ok r.bytes.reverse
    else if r.filled == 1 then .error (.oneOver (r.bytes.length / 3 * 4 + 1))
    else .error .padding
  | n :: rest =>
    if n == 0x3D then
      if 2 ≤ r.filled then
        if 4 ≤ r.filled + r.pads + 1 then .ok r.bytes.reverse
        else read { r with pads := r.pads + 1 } rest
      else read r rest
    else match value? n with
      | some bits => read (r.take bits) rest
      | none => read r rest

/-- The bytes that a text of ASCII characters stands for. -/
def decode (ns : List Nat) : Except Incomplete Bytes := read ⟨[], 0, 0, 0⟩ ns

end BootConfig.Base64
