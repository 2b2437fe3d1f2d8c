import BootConfig.Text.Utf16
import BootConfig.Yaml.Error

/-!
# Document sources

The characters of a document. A document given as bytes is UTF-16 if it starts with a byte order
mark of that encoding, else UTF-8; only printable characters are allowed in it.
-/

namespace BootConfig.Yaml.Source

/-- Characters that a document may hold. -/
def isAllowed (n : Nat) : Bool :=
  n == 0x09 || n == 0x0A || n == 0x0D || (0x20 ≤ n && n ≤ 0x7E) || n == 0x85 ||
    (0xA0 ≤ n && n ≤ 0xD7FF) || (0xE000 ≤ n && n ≤ 0xFFFD) || (0x10000 ≤ n && n ≤ 0x10FFFF)

/-- The characters of code points that are all allowed, the first of them at `position`. -/
def check (position : Nat) : List CodePoint → Except Error (List Char)
  | [] => .ok []
  | c :: cs =>
    if isAllowed c.val then (check (position + 1) cs).map (c.toCharD :: ·)
    else .error (.unreadable position c.val "unicode" "special characters are not allowed")

def decode (bs : Bytes) : Except Error (List CodePoint) :=
  match bs with
  | 0xFF :: 0xFE :: _ => utf16 .little "utf-16-le"
  | 0xFE :: 0xFF :: _ => utf16 .big "utf-16-be"
  | _ =>
    match Utf8.decodeFrom 0 bs with
    | .ok cs => .ok cs
    | .error e => .error (.unreadable e.position e.byte.toNat "utf-8" e.why.message)
where
  utf16 (order : Utf16.ByteOrder) (name : String) : Except Error (List CodePoint) :=
    match Utf16.decodeFrom order 0 bs with
    | .ok cs => .ok cs
    | .error e => .error (.unreadable e.position e.byte.toNat name e.why.message)

/-- The characters of a document given as bytes. -/
def ofBytes (bs : Bytes) : Except Error (List Char) := do check 0 (← decode bs)

/-- The characters of a document given as text. -/
def ofText (t : Text) : Except Error (List Char) := check 0 t.points

end BootConfig.Yaml.Source
