import BootConfig.Files
import BootConfig.Number.Numeral

/-!
# Rotation of log files

A log file that would grow too large is put aside under its name with a number, and a new one is
begun. Files put aside before move up by one number; a limited number of them is kept.

* `Rotation.isDue`: whether the next line would make the file too large.
* `Rotation.rotate`: the files after a rotation.
-/

namespace BootConfig.Rotation

/-- When a file is put aside, and how many are kept. A limit that is not positive is none. -/
structure Policy where
  limit : Int
  keep : Int
deriving DecidableEq, Inhabited

/-- Whether a line of some length would make a file too large. -/
def isDue (p : Policy) (size length : Nat) : Bool :=
  0 < p.limit && p.limit ≤ (size + length : Nat)

/-- The name of a file put aside. -/
def aside (name : FileName) (i : Nat) : FileName :=
  ⟨name.bytes ++ Utf8.ofString ("." ++ Numeral.intText i)⟩

def isDigit (b : UInt8) : Bool := 0x30 ≤ b && b ≤ 0x39

/-- The number under which a name is put aside, if it is. -/
def number? (name other : FileName) : Option Nat :=
  let start := name.bytes ++ Utf8.ofString "."
  if start.isPrefixOf other.bytes then
    let digits := other.bytes.drop start.length
    let n := Numeral.ofDigits 10 (digits.map fun b => b.toNat - 0x30)
    if !digits.isEmpty && digits.all isDigit && aside name n == other then some n else none
  else none

/-- Where the files of a directory go when a file in it is put aside: the file itself becomes the
first, and those put aside move up. -/
def moved (p : Policy) (name other : FileName) : FileName :=
  if other == name then aside name 1
  else match number? name other with
    | some i => if 1 ≤ i && (i : Int) < p.keep then aside name (i + 1) else other
    | none => other

/-- Where names lead after a file of a directory has been put aside. -/
def movedNames (p : Policy) (directory : List FileName) (name : FileName) (names : List FileName) :
    List FileName :=
  match names.drop directory.length with
  | other :: rest =>
    if directory.isPrefixOf names then directory ++ moved p name other :: rest else names
  | [] => names

/-- The files after one of a directory has been put aside. A file whose place is taken by another
one is lost. -/
def shift (p : Policy) (t : FileTree) (directory : List FileName) (name : FileName) :
    FileTree :=
  let place := movedNames p directory name
  let leaving := t.entries.filter fun e => place e.1 != e.1
  let staying := t.entries.filter fun e => place e.1 == e.1
  let arriving := leaving.map fun e => (place e.1, e.2)
  { t with entries := (staying.filter fun e => !arriving.any fun a => a.1 == e.1) ++ arriving }

/-- The files after a rotation: if some are kept the file is put aside, and in any case there is a
file to write to. -/
def rotate (p : Policy) (t : FileTree) (names : List FileName) : FileTree :=
  if p.keep ≤ 0 then t
  else
    let t := shift p t names.dropLast (names.getLastD "")
    t.bind names (.file [])

end BootConfig.Rotation
