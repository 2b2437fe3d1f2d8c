/-!
# Text

A document value or an environment value is a sequence of Unicode code points. Unlike `String`
it may hold lone surrogates: an escape in a document can write one, and a byte that is not part of
a UTF-8 sequence is kept as one.

* `CodePoint`: a number below `0x110000`, surrogates included.
* `Text.ofString` and `Text.toString?`: texts without surrogates are exactly the strings
  (`Text.toString?_ofString`). A string stands for its text where one is asked for.
* `Text.lossy`: the string shown for a text in a message.
-/

namespace BootConfig

/-- A Unicode code point, surrogates included. -/
abbrev CodePoint := Fin 0x110000

namespace CodePoint

def ofChar (c : Char) : CodePoint :=
  ⟨c.toNat, by
    have h := c.valid
    simp only [UInt32.isValidChar, Nat.isValidChar] at h
    show c.val.toNat < 0x110000
    omega⟩

/-- Surrogates are the code points that are no character. -/
def isSurrogate (c : CodePoint) : Bool := 0xD800 ≤ c.val && c.val ≤ 0xDFFF

/-- The character with this code point, if it is no surrogate. -/
def toChar? (c : CodePoint) : Option Char :=
  if h : c.val.isValidChar then some (Char.ofNatAux c.val h) else none

/-- The character with this code point; a surrogate becomes U+FFFD. -/
def toCharD (c : CodePoint) : Char := c.toChar?.getD '\uFFFD'

/-- The code point of a number, and U+0000 for a number that is none. -/
def ofNatD (n : Nat) : CodePoint :=
  if h : n < 0x110000 then ⟨n, h⟩ else ⟨0, by omega⟩

theorem val_ofNatD {n : Nat} (h : n < 0x110000) : (ofNatD n).val = n := by
  rw [ofNatD, dif_pos h]

theorem toChar?_ofChar (c : Char) : (ofChar c).toChar? = some c := by
  have h : (ofChar c).val.isValidChar := c.valid
  rw [toChar?, dif_pos h]
  rfl

end CodePoint

/-- A sequence of code points. -/
structure Text where
  points : List CodePoint
deriving DecidableEq, Inhabited

namespace Text

def ofString (s : String) : Text := ⟨s.toList.map CodePoint.ofChar⟩

def ofChars (cs : List Char) : Text := ⟨cs.map CodePoint.ofChar⟩

instance : Coe String Text := ⟨ofString⟩

def empty : Text := ⟨[]⟩

def isEmpty (t : Text) : Bool := t.points.isEmpty

def length (t : Text) : Nat := t.points.length

def append (s t : Text) : Text := ⟨s.points ++ t.points⟩

instance : Append Text := ⟨append⟩

/-- Texts one after the other, with a separator between them. -/
def intercalate (separator : Text) (ts : List Text) : Text :=
  ⟨separator.points.intercalate (ts.map points)⟩

/-- The characters of a text without surrogates. -/
def toChars? (t : Text) : Option (List Char) := t.points.mapM CodePoint.toChar?

/-- The string of a text without surrogates. -/
def toString? (t : Text) : Option String := t.toChars?.map String.ofList

/-- The string shown for a text: each surrogate is shown as the three replacement characters of
its three encoded bytes. -/
def lossy (t : Text) : String :=
  String.ofList (t.points.flatMap fun c =>
    match c.toChar? with
    | some ch => [ch]
    | none => ['\uFFFD', '\uFFFD', '\uFFFD'])

theorem toChars?_ofChars (cs : List Char) : (ofChars cs).toChars? = some cs := by
  simp only [toChars?, ofChars]
  induction cs with
  | nil => rfl
  | cons c cs ih => simp [CodePoint.toChar?_ofChar, ih]

theorem ofString_eq_ofChars (s : String) : ofString s = ofChars s.toList := rfl

theorem ofString_append (s t : String) : ofString (s ++ t) = ofString s ++ ofString t := by
  rw [ofString, String.toList_append, List.map_append]
  rfl

/-- Reading a string back from its code points loses nothing. -/
theorem toString?_ofString (s : String) : (ofString s).toString? = some s := by
  simp [toString?, ofString_eq_ofChars, toChars?_ofChars]

theorem lossy_ofString (s : String) : (ofString s).lossy = s := by
  refine Eq.trans (congrArg String.ofList ?_) String.ofList_toList
  rw [ofString]
  induction s.toList with
  | nil => rfl
  | cons c rest ih =>
    rw [List.map_cons, List.flatMap_cons, CodePoint.toChar?_ofChar, ih]
    rfl

end Text

end BootConfig
