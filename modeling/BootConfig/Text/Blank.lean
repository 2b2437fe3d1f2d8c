import BootConfig.Text.Basic

/-!
# Blank code points

White space at the ends of a text. The four information separators U+001C to U+001F count as blank
here, although they are not white space in the sense of the Unicode property.
-/

namespace BootConfig

namespace Blank

/-- White space by the Unicode property. -/
def isWhite (c : CodePoint) : Bool :=
  let n := c.val
  (0x09 ≤ n && n ≤ 0x0D) || n == 0x20 || n == 0x85 || n == 0xA0 || n == 0x1680 ||
    (0x2000 ≤ n && n ≤ 0x200A) || n == 0x2028 || n == 0x2029 || n == 0x202F || n == 0x205F ||
    n == 0x3000

/-- White space and the information separators. -/
def isBlank (c : CodePoint) : Bool := isWhite c || (0x1C ≤ c.val && c.val ≤ 0x1F)

def isBlankChar (c : Char) : Bool := isBlank (CodePoint.ofChar c)

/-- Removes the elements of a class from both ends. -/
def trimBoth {α : Type} (p : α → Bool) (cs : List α) : List α :=
  ((cs.dropWhile p).reverse.dropWhile p).reverse

end Blank

namespace Text

/-- The text without blanks at its ends. -/
def trim (t : Text) : Text := ⟨Blank.trimBoth Blank.isBlank t.points⟩

end Text

end BootConfig
