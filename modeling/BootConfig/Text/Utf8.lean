import BootConfig.Text.Basic

/-!
# UTF-8

Reading and writing of code points as UTF-8, in two forms.

* `Utf8.decode` and `Utf8.encode?`: strict; the first malformed byte is reported with its position
  and the reason, and a surrogate has no bytes.
* `Utf8.decodeEscaped` and `Utf8.encodeEscaped`: transparent for bytes; a byte that belongs to no
  character is kept as the surrogate U+DC00 + byte, and such a surrogate is written as that byte.
-/

namespace BootConfig

/-- Raw bytes. -/
abbrev Bytes := List UInt8

namespace Utf8

/-- Why a byte sequence is not UTF-8. -/
inductive Malformed where
  /-- No character starts with this byte. -/
  | start
  /-- A byte that has to continue a character does not. -/
  | continuation
  /-- The bytes end inside a character. -/
  | truncated
deriving DecidableEq

/-- What stands at the head of a byte sequence. -/
inductive Head where
  /-- A character and the bytes after it. -/
  | char (c : CodePoint) (rest : Bytes)
  /-- The first byte belongs to no character; the first `size` bytes are at fault. -/
  | malformed (why : Malformed) (size : Nat)

/-- A byte of the form `10xxxxxx`. -/
def isTail (b : UInt8) : Bool := 0x80 ≤ b && b ≤ 0xBF

/-- The six low bits of a continuation byte. -/
def tailBits (b : UInt8) : Nat := b.toNat % 64

/-- The second byte of a three-byte character: overlong forms and surrogates are excluded. -/
def isSecondOfThree (lead b : UInt8) : Bool :=
  isTail b && (lead != 0xE0 || 0xA0 ≤ b) && (lead != 0xED || b ≤ 0x9F)

/-- The second byte of a four-byte character: overlong forms and numbers above `0x10FFFF` are
excluded. -/
def isSecondOfFour (lead b : UInt8) : Bool :=
  isTail b && (lead != 0xF0 || 0x90 ≤ b) && (lead != 0xF4 || b ≤ 0x8F)

/-- Splits the first character off. -/
def head (lead : UInt8) (rest : Bytes) : Head :=
  let l := lead.toNat
  if lead ≤ 0x7F then .char (CodePoint.ofNatD l) rest
  else if lead < 0xC2 || 0xF4 < lead then .malformed .start 1
  else if lead ≤ 0xDF then
    match rest with
    | [] => .malformed .truncated 1
    | b :: rest =>
      if isTail b then .char (CodePoint.ofNatD (l % 32 * 64 + tailBits b)) rest
      else .malformed .continuation 1
  else if lead ≤ 0xEF then
    match rest with
    | [] => .malformed .truncated 1
    | b :: rest =>
      if !isSecondOfThree lead b then .malformed .continuation 1
      else match rest with
        | [] => .malformed .truncated 2
        | c :: rest =>
          if isTail c then
            .char (CodePoint.ofNatD (l % 16 * 4096 + tailBits b * 64 + tailBits c)) rest
          else .malformed .continuation 2
  else
    match rest with
    | [] => .malformed .truncated 1
    | b :: rest =>
      if !isSecondOfFour lead b then .malformed .continuation 1
      else match rest with
        | [] => .malformed .truncated 2
        | c :: rest =>
          if !isTail c then .malformed .continuation 2
          else match rest with
            | [] => .malformed .truncated 3
            | d :: rest =>
              if isTail d then
                .char (CodePoint.ofNatD
                  (l % 8 * 262144 + tailBits b * 4096 + tailBits c * 64 + tailBits d)) rest
              else .malformed .continuation 3

/-- A character's bytes are consumed from the front. -/
theorem head_rest_le {lead : UInt8} {bs rest : Bytes} {c : CodePoint}
    (h : head lead bs = .char c rest) : rest.length ≤ bs.length := by
  simp only [head] at h
  repeat' split at h
  all_goals grind

/-- Number of bytes of a character. -/
def width (n : Nat) : Nat :=
  if n < 0x80 then 1 else if n < 0x800 then 2 else if n < 0x10000 then 3 else 4

/-- A malformed byte: where it stands and why it is refused. -/
structure DecodeError where
  position : Nat
  byte : UInt8
  why : Malformed
  /-- Number of bytes at fault. -/
  size : Nat

def Malformed.message : Malformed → String
  | .start => "invalid start byte"
  | .continuation => "invalid continuation byte"
  | .truncated => "unexpected end of data"

/-- The whole complaint about malformed bytes. -/
def DecodeError.message (e : DecodeError) : String :=
  if e.size == 1 then
    let hex := String.ofList [Nat.digitChar (e.byte.toNat / 16), Nat.digitChar (e.byte.toNat % 16)]
    s!"'utf-8' codec can't decode byte 0x{hex} in position {e.position}: {e.why.message}"
  else
    let last := e.position + e.size - 1
    s!"'utf-8' codec can't decode bytes in position {e.position}-{last}: {e.why.message}"

/-- The code points of bytes that are UTF-8 throughout, from byte `position` on. -/
def decodeFrom (position : Nat) (bs : Bytes) : Except DecodeError (List CodePoint) :=
  match bs with
  | [] => .ok []
  | b :: rest =>
    match h : head b rest with
    | .malformed why size => .error ⟨position, b, why, size⟩
    | .char c rest' =>
      have : rest'.length ≤ rest.length := head_rest_le h
      match decodeFrom (position + width c.val) rest' with
      | .ok cs => .ok (c :: cs)
      | .error e => .error e
termination_by bs.length
decreasing_by simp only [List.length_cons]; omega

/-- The text of bytes that are UTF-8 throughout. -/
def decode (bs : Bytes) : Except DecodeError Text := (decodeFrom 0 bs).map Text.mk

/-- The surrogate that stands for a byte outside every character. -/
def escapeOf (b : UInt8) : CodePoint := ⟨0xDC00 + b.toNat, by have := b.toNat_lt; omega⟩

/-- The byte that a surrogate stands for. -/
def escaped? (c : CodePoint) : Option UInt8 :=
  if 0xDC80 ≤ c.val && c.val ≤ 0xDCFF then some (UInt8.ofNat (c.val - 0xDC00)) else none

/-- The code points of any bytes; a byte outside every character becomes its surrogate. -/
def decodeEscapedPoints (bs : Bytes) : List CodePoint :=
  match bs with
  | [] => []
  | b :: rest =>
    match h : head b rest with
    | .malformed _ _ => escapeOf b :: decodeEscapedPoints rest
    | .char c rest' =>
      have : rest'.length ≤ rest.length := head_rest_le h
      c :: decodeEscapedPoints rest'
termination_by bs.length
decreasing_by all_goals simp only [List.length_cons]; omega

/-- The text of any bytes, each byte kept. -/
def decodeEscaped (bs : Bytes) : Text := ⟨decodeEscapedPoints bs⟩

def encodeChar (n : Nat) : Bytes :=
  if n < 0x80 then [UInt8.ofNat n]
  else if n < 0x800 then [UInt8.ofNat (0xC0 + n / 64), UInt8.ofNat (0x80 + n % 64)]
  else if n < 0x10000 then
    [UInt8.ofNat (0xE0 + n / 4096), UInt8.ofNat (0x80 + n / 64 % 64), UInt8.ofNat (0x80 + n % 64)]
  else
    [UInt8.ofNat (0xF0 + n / 262144), UInt8.ofNat (0x80 + n / 4096 % 64),
      UInt8.ofNat (0x80 + n / 64 % 64), UInt8.ofNat (0x80 + n % 64)]

/-- The bytes of one code point; a surrogate that stands for no byte has none. -/
def encodePoint? (c : CodePoint) : Option Bytes :=
  if c.isSurrogate then (escaped? c).map fun b => [b]
  else some (encodeChar c.val)

/-- The bytes of a text, where every surrogate in it stands for a byte. -/
def encodeEscaped (t : Text) : Option Bytes := (t.points.mapM encodePoint?).map List.flatten

def ofString (s : String) : Bytes := s.toUTF8.data.toList

/-- The bytes of a text without surrogates. -/
def encode? (t : Text) : Option Bytes := t.toString?.map ofString

theorem encode?_ofString (s : String) : encode? (Text.ofString s) = some (ofString s) := by
  rw [encode?, Text.toString?_ofString, Option.map_some]

end Utf8

end BootConfig
