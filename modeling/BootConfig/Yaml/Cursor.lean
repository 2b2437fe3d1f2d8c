import BootConfig.Yaml.Error

/-!
# Cursor

A place in the characters of a document, with what follows it. The end of the document reads as the
null character, which no document holds.
-/

namespace BootConfig.Yaml

def isBreak (c : Char) : Bool :=
  c == '\n' || c == '\r' || c == '\x85' || c == '\u2028' || c == '\u2029'

def endChar : Char := '\x00'

def isBreakOrEnd (c : Char) : Bool := isBreak c || c == endChar

def isSpaceOrEnd (c : Char) : Bool := c == ' ' || isBreakOrEnd c

/-- A space, a tab, a line break or the end. -/
def isBlankOrEnd (c : Char) : Bool := c == '\t' || isSpaceOrEnd c

/-- Characters of names: ASCII letters and digits, the hyphen and the underscore. -/
def isNameChar (c : Char) : Bool := c.isAlphanum || c == '-' || c == '_'

def isHexDigit (c : Char) : Bool :=
  c.isDigit || ('a' ≤ c && c ≤ 'f') || ('A' ≤ c && c ≤ 'F')

/-- The rest of a document and where it starts. -/
structure Cursor where
  rest : List Char
  index : Nat
  line : Nat
  column : Nat
deriving Inhabited

namespace Cursor

def ofChars (cs : List Char) : Cursor := ⟨cs, 0, 0, 0⟩

def mark (c : Cursor) : Mark := ⟨c.line, c.column⟩

def peek (c : Cursor) : Char := c.rest.headD endChar

/-- The character `n` places further on. -/
def peekAt (c : Cursor) (n : Nat) : Char := c.rest.getD n endChar

/-- Moves over one character. A carriage return before a line feed ends no line of its own, and a
byte order mark takes no column. -/
def next (c : Cursor) : Cursor :=
  match c.rest with
  | [] => c
  | ch :: rest =>
    if isBreak ch && !(ch == '\r' && rest.headD endChar == '\n') then
      ⟨rest, c.index + 1, c.line + 1, 0⟩
    else if ch == '\uFEFF' then ⟨rest, c.index + 1, c.line, c.column⟩
    else ⟨rest, c.index + 1, c.line, c.column + 1⟩

/-- Moves over `n` characters. -/
def forward : Nat → Cursor → Cursor
  | 0, c => c
  | n + 1, c => forward n c.next

/-- The longest run of characters of a class. -/
def run (p : Char → Bool) (c : Cursor) : List Char := c.rest.takeWhile p

/-- Moves over the longest run of characters of a class. -/
def skipWhile (p : Char → Bool) (c : Cursor) : Cursor := forward (c.run p).length c

def skipSpaces (c : Cursor) : Cursor := c.skipWhile (· == ' ')

/-- Moves over a comment, if there is one. -/
def skipComment (c : Cursor) : Cursor :=
  if c.peek == '#' then c.skipWhile fun ch => !isBreak ch else c

/-- The line break at the cursor, as the text it stands for, and the place after it. -/
def lineBreak (c : Cursor) : List Char × Cursor :=
  let ch := c.peek
  if ch == '\r' && c.peekAt 1 == '\n' then (['\n'], forward 2 c)
  else if ch == '\n' || ch == '\r' || ch == '\x85' then (['\n'], c.next)
  else if ch == '\u2028' || ch == '\u2029' then ([ch], c.next)
  else ([], c)

/-- Whether three equal characters and a blank stand at the cursor. -/
def isTriple (c : Cursor) (ch : Char) : Bool :=
  c.peek == ch && c.peekAt 1 == ch && c.peekAt 2 == ch && isBlankOrEnd (c.peekAt 3)

/-- Whether a document boundary stands at the cursor. -/
def isSeparator (c : Cursor) : Bool := c.isTriple '-' || c.isTriple '.'

def problem (c : Cursor) (context : Context) (since : Mark) (p : Problem) : Failure :=
  .refused (.lexical (.during context since p c.mark))

def unexpected (c : Cursor) (context : Context) (since : Mark) (e : Expected) : Failure :=
  c.problem context since (.unexpected e c.peek)

end Cursor

end BootConfig.Yaml
