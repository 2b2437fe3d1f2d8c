import BootConfig.Text.Printable
import BootConfig.Text.Utf8

/-!
# Quoted texts

How messages quote a text or a byte string, and how a stream for diagnostics shows a text. Single quotes stand around it, or double quotes if it
holds a single quote and no double quote. The quote in use and the backslash are escaped, line
feed, carriage return and tab have short escapes, and what is not printable is written as a number.
-/

namespace BootConfig.Quoted

/-- The last `width` hexadecimal digits of a number, in lower case. -/
def hexDigits : Nat → Nat → List Char
  | 0, _ => []
  | width + 1, n => hexDigits width (n / 16) ++ [Nat.digitChar (n % 16)]

/-- The shorter of the escapes `\xhh`, `\uhhhh` and `\Uhhhhhhhh` that holds a number. -/
def numericEscape (n : Nat) : List Char :=
  if n < 0x100 then '\\' :: 'x' :: hexDigits 2 n
  else if n < 0x10000 then '\\' :: 'u' :: hexDigits 4 n
  else '\\' :: 'U' :: hexDigits 8 n

def escapePoint (quote : Char) (c : CodePoint) : List Char :=
  let n := c.val
  if n == quote.toNat || n == '\\'.toNat then ['\\', c.toCharD]
  else if n == 0x09 then ['\\', 't']
  else if n == 0x0A then ['\\', 'n']
  else if n == 0x0D then ['\\', 'r']
  else if n < 0x20 || n == 0x7F then numericEscape n
  else if n < 0x7F then [c.toCharD]
  else if Printable.isPrintable c then [c.toCharD]
  else numericEscape n

def escapeByte (quote : Char) (b : UInt8) : List Char :=
  let n := b.toNat
  if n < 0x7F then escapePoint quote (CodePoint.ofNatD n) else numericEscape n

def singleQuote : Char := '\x27'
def doubleQuote : Char := '\x22'

/-- The quote to stand around code points. -/
def quoteFor (ns : List Nat) : Char :=
  if ns.contains singleQuote.toNat && !ns.contains doubleQuote.toNat then doubleQuote
  else singleQuote

/-- A text in quotes. -/
def ofText (t : Text) : String :=
  let q := quoteFor (t.points.map Fin.val)
  String.ofList (q :: t.points.flatMap (escapePoint q) ++ [q])

/-- A string in quotes. -/
def ofString (s : String) : String := ofText (Text.ofString s)

def ofBytes (bs : Bytes) : String :=
  let q := quoteFor (bs.map UInt8.toNat)
  String.ofList ('b' :: q :: bs.flatMap (escapeByte q) ++ [q])

/-- A code point on a stream that takes no surrogates: one is shown by its number. -/
def shownPoint (c : CodePoint) : List Char := (c.toChar?.map ([·])).getD (numericEscape c.val)

end BootConfig.Quoted

namespace BootConfig.Text

/-- A text as a stream for diagnostics shows it. -/
def shown (t : Text) : String := String.ofList (t.points.flatMap Quoted.shownPoint)

end BootConfig.Text
