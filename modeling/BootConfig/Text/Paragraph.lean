import BootConfig.Text.Blank
import BootConfig.Text.Letter

/-!
# Paragraphs

A text broken into lines of a given width. Lines are broken at spaces, after hyphens inside of
words, and around dashes; a piece that fits on no line is cut.

* `Paragraph.pieces`: what is kept together.
* `Paragraph.wrap`: the lines of a text.
-/

namespace BootConfig.Paragraph

/-! ## Pieces -/

/-- ASCII white space. -/
def isSpace (c : Char) : Bool := c == ' ' || ('\t' ≤ c && c ≤ '\r')

def isLetter (c : Char) : Bool := Letter.isLetter (CodePoint.ofChar c)

def isWordChar (c : Char) : Bool := Letter.isWordPoint (CodePoint.ofChar c)

/-- Characters of a word and the punctuation that belongs to words. -/
def isWordPart (c : Char) : Bool :=
  isWordChar c || ['!', '\x22', '\x27', '&', '.', ',', '?'].contains c

/-- Whether characters, the last one first, end in a hyphen after a part of a word: two letters, or
a single letter with a hyphen on each side of it. -/
def endsHyphenated : List Char → Bool
  | '-' :: '-' :: _ => false
  | '-' :: a :: '-' :: b :: _ => isLetter a && isLetter b
  | '-' :: a :: b :: _ => isLetter a && isLetter b
  | _ => false

/-- Whether characters start with two letters, which may have a hyphen between them. -/
def startsWithLetters : List Char → Bool
  | a :: '-' :: b :: _ => isLetter a && isLetter b
  | a :: b :: _ => isLetter a && isLetter b
  | _ => false

/-- Whether two or more hyphens stand at the head, with a class of characters after them. -/
def startsWithDash (p : Char → Bool) (cs : List Char) : Bool :=
  2 ≤ (cs.takeWhile (· == '-')).length && ((cs.dropWhile (· == '-')).head?.map p).getD false

/-- Whether a word may be broken between two parts of it, the first of which is given with its last
character first. -/
def mayBreak (before after : List Char) : Bool :=
  (endsHyphenated before && startsWithLetters after) ||
    ((before.head?.map isWordPart).getD false && startsWithDash isWordChar after) ||
    (startsWithDash isWordPart before && (after.head?.map isWordChar).getD false)

/-- The pieces of a word after some part of it. -/
def cutWord (before : List Char) : List Char → List (List Char)
  | [] => []
  | c :: cs =>
    match cutWord (c :: before) cs with
    | [] => [[c]]
    | w :: ws => if mayBreak (c :: before) cs then [c] :: w :: ws else (c :: w) :: ws

/-- The words of a text. -/
def words (cs : List Char) : List (List Char) :=
  let trimmed := ((cs.dropWhile Blank.isBlankChar).reverse.dropWhile Blank.isBlankChar).reverse
  (trimmed.splitBy fun a b => isSpace a == isSpace b).filter fun w => !w.all isSpace

/-- The pieces of a text: those of its words, and a space between words. -/
def pieces (cs : List Char) : List (List Char) :=
  ([[' ']].intercalate ((words cs).map (cutWord [])))

/-! ## Lines -/

def totalLength (ws : List (List Char)) : Nat := ws.flatten.length

/-- The pieces that fit on a line, and those that are left. -/
def takeFitting (width : Nat) : List (List Char) → List (List Char) × List (List Char)
  | [] => ([], [])
  | w :: ws =>
    if w.length ≤ width then
      let (line, rest) := takeFitting (width - w.length) ws
      (w :: line, rest)
    else ([], w :: ws)

/-- A blank piece at the head of a line is dropped. -/
def dropBlankHead : List (List Char) → List (List Char)
  | [] => []
  | w :: ws => if w.all Blank.isBlankChar then ws else w :: ws

/-- A blank piece at the end of a line is dropped. -/
def dropBlankLast (ws : List (List Char)) : List (List Char) :=
  (dropBlankHead ws.reverse).reverse

/-- Where a piece is cut of which `room` characters fit: after the last hyphen among them that has
something else before it, and else after all of them. -/
def cutPoint (room : Nat) (w : List Char) : Nat :=
  let upToHyphen := ((w.take room).reverse.dropWhile (· != '-')).reverse
  if upToHyphen.any (· != '-') then upToHyphen.length else room

/-- The next line, and what is left. A piece that fits on no line is cut. -/
def nextLine (width : Nat) (ws : List (List Char)) : List Char × List (List Char) :=
  let (line, rest) := takeFitting width (dropBlankHead ws)
  let (line, rest) := match rest with
    | w :: more =>
      if width < w.length then
        let cut := cutPoint (width - totalLength line) w
        (line ++ [w.take cut], w.drop cut :: more)
      else (line, rest)
    | [] => (line, [])
  ((dropBlankLast line).flatten, rest)

/-- The lines that pieces fill, at most `fuel` of them. -/
def fillLines (width : Nat) : Nat → List (List Char) → List (List Char)
  | 0, _ => []
  | _, [] => []
  | fuel + 1, ws =>
    let (line, rest) := nextLine width ws
    if line.isEmpty then fillLines width fuel rest else line :: fillLines width fuel rest

/-- The lines of a text, of at most `width` characters each. -/
def wrap (width : Nat) (s : String) : List String :=
  let ws := pieces s.toList
  (fillLines width (totalLength ws + ws.length) ws).map String.ofList

def fill (width : Nat) (s : String) : String := "\n".intercalate (wrap width s)

end BootConfig.Paragraph
