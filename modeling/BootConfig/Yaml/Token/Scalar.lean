import BootConfig.Yaml.Cursor

/-!
# Scalar tokens

The three ways of writing a scalar.

* Block scalars (`|` and `>`): indented lines, kept or folded, with indicators for the indentation
  and for the treatment of the last line breaks.
* Quoted scalars: single quotes, where a quote is doubled, and double quotes with escapes.
* Plain scalars: no quotes; they end before a comment or before an indicator.

In all of them a single line break between two lines is folded to a space, further ones are kept.
-/

namespace BootConfig.Yaml.Scalar

/-- A scalar token with the cursor after it. -/
structure Scanned where
  token : Token
  after : Cursor

/-! ## Block scalars -/

/-- What becomes of the line breaks at the end of a block scalar. -/
inductive Chomping where
  /-- None is kept. -/
  | strip
  /-- The first one is kept. -/
  | clip
  /-- All are kept. -/
  | keep
deriving DecidableEq

/-- The indicators of a block scalar. -/
structure Header where
  chomping : Chomping
  increment : Option Nat
  after : Cursor

def chompingOf? (c : Char) : Option Chomping :=
  if c == '+' then some .keep else if c == '-' then some .strip else none

/-- A digit for the indentation; zero is refused. -/
def increment? (start : Mark) (c : Cursor) : Except Failure (Option Nat × Cursor) :=
  if c.peek.isDigit then
    if c.peek == '0' then .error (c.problem .blockScalar start .zeroIndentation)
    else .ok (some (Numeral.digitValue c.peek), c.next)
  else .ok (none, c)

/-- Reads the indicators, in either order. -/
def header (start : Mark) (c : Cursor) : Except Failure Header := do
  let h : Header ←
    match chompingOf? c.peek with
    | some chomping => do
      let (increment, c) ← increment? start c.next
      pure ⟨chomping, increment, c⟩
    | none => do
      let (increment, c) ← increment? start c
      match increment, chompingOf? c.peek with
      | some n, some chomping => pure ⟨chomping, some n, c.next⟩
      | increment, _ => pure ⟨.clip, increment, c⟩
  if isSpaceOrEnd h.after.peek then .ok h
  else .error (h.after.unexpected .blockScalar start .scalarIndicators)

/-- Moves over the rest of a line that may hold only a comment. -/
def ignoredLine (context : Context) (start : Mark) (c : Cursor) : Except Failure Cursor :=
  let c := c.skipSpaces.skipComment
  if isBreakOrEnd c.peek then .ok c.lineBreak.2
  else .error (c.unexpected context start .commentOrBreak)

/-- Moves over at most as many spaces as lead to a column. -/
def skipIndentation (indent : Nat) (c : Cursor) : Cursor :=
  Cursor.forward (min (indent - c.column) (c.run (· == ' ')).length) c

/-- Line breaks, with the end of the last one and the cursor after them. -/
structure Breaks where
  chars : List Char
  stop : Mark
  after : Cursor

/-- The empty lines before the first line of a block scalar, and its deepest indentation so far. -/
def leadingBreaks (fuel : Nat) (chars : List Char) (depth : Nat) (stop : Mark) (c : Cursor) :
    Breaks × Nat :=
  match fuel with
  | 0 => (⟨chars, stop, c⟩, depth)
  | fuel + 1 =>
    if c.peek == ' ' then
      let c := c.next
      leadingBreaks fuel chars (max depth c.column) stop c
    else if isBreak c.peek then
      let (b, c) := c.lineBreak
      leadingBreaks fuel (chars ++ b) depth c.mark c
    else (⟨chars, stop, c⟩, depth)

/-- The line breaks before the next line with a given indentation. -/
def innerBreaks (indent : Nat) (fuel : Nat) (chars : List Char) (stop : Mark) (c : Cursor) :
    Breaks :=
  match fuel with
  | 0 => ⟨chars, stop, c⟩
  | fuel + 1 =>
    if isBreak c.peek then
      let (b, c) := c.lineBreak
      innerBreaks indent fuel (chars ++ b) c.mark (skipIndentation indent c)
    else ⟨chars, stop, c⟩

/-- The line breaks at the cursor, up to a line with a given indentation. -/
def breaksAt (indent : Nat) (c : Cursor) : Breaks :=
  innerBreaks indent c.rest.length [] c.mark (skipIndentation indent c)

/-- What the lines of a block scalar have given so far. -/
structure BlockLines where
  /-- Complete pieces of the text, in reverse order. -/
  pieces : List (List Char)
  /-- The break after the last line. -/
  lineBreak : List Char
  breaks : Breaks

/-- Whether a line that starts with this character is folded. -/
def isFoldable (c : Char) : Bool := c != ' ' && c != '\t'

/-- Reads the lines of a block scalar. -/
def blockLines (folded : Bool) (indent : Nat) : Nat → BlockLines → BlockLines
  | 0, s => s
  | fuel + 1, s =>
    let c := s.breaks.after
    if c.column == indent && c.peek != endChar then
      let text := c.run fun ch => !isBreak ch
      let (lineBreak, after) := (Cursor.forward text.length c).lineBreak
      let breaks := breaksAt indent after
      let pieces := text :: s.breaks.chars :: s.pieces
      let next := breaks.after
      if next.column == indent && next.peek != endChar then
        let joint :=
          if folded && lineBreak == ['\n'] && isFoldable c.peek && isFoldable next.peek then
            if breaks.chars.isEmpty then [' '] else []
          else lineBreak
        blockLines folded indent fuel ⟨joint :: pieces, lineBreak, breaks⟩
      else ⟨pieces, lineBreak, breaks⟩
    else s

/-- Reads a block scalar in a block of a given indentation, from its indicator on. -/
def block (folded : Bool) (parentIndent : Int) (c : Cursor) : Except Failure Scanned := do
  let start := c.mark
  let h ← header start c.next
  let c ← ignoredLine .blockScalar start h.after
  let least := (max 1 (parentIndent + 1)).toNat
  let (breaks, indent) :=
    match h.increment with
    | some n =>
      let indent := least + n - 1
      (breaksAt indent c, indent)
    | none =>
      let (breaks, depth) := leadingBreaks c.rest.length [] 0 c.mark c
      (breaks, max least depth)
  let s := blockLines folded indent (c.rest.length + 1) ⟨[], [], breaks⟩
  let ending :=
    match h.chomping with
    | .strip => []
    | .clip => s.lineBreak
    | .keep => s.lineBreak ++ s.breaks.chars
  let text := s.pieces.reverse.flatten ++ ending
  return ⟨⟨.scalar (Text.ofChars text) false, start, s.breaks.stop⟩, s.breaks.after⟩

/-! ## Quoted scalars -/

/-- The code point that a one-character escape stands for. -/
def simpleEscape? (c : Char) : Option Nat :=
  [('0', 0x00), ('a', 0x07), ('b', 0x08), ('t', 0x09), ('\t', 0x09), ('n', 0x0A), ('v', 0x0B),
    ('f', 0x0C), ('r', 0x0D), ('e', 0x1B), (' ', 0x20), ('\x22', 0x22), ('\\', 0x5C), ('/', 0x2F),
    ('N', 0x85), ('_', 0xA0), ('L', 0x2028), ('P', 0x2029)].lookup c

/-- Number of hexadecimal digits after the letter of a numeric escape. -/
def escapeLength? (c : Char) : Option Nat :=
  if c == 'x' then some 2 else if c == 'u' then some 4 else if c == 'U' then some 8 else none

/-- Code points of a quoted scalar, with the cursor after them. -/
structure Piece where
  points : List CodePoint
  after : Cursor

def pointsOf (cs : List Char) : List CodePoint := cs.map CodePoint.ofChar

/-- The line breaks between two lines of a quoted scalar, from the start of a line on. -/
def quotedBreaks (start : Mark) : Nat → List Char → Cursor → Except Failure (List Char × Cursor)
  | 0, chars, c => .ok (chars, c)
  | fuel + 1, chars, c =>
    if c.isSeparator then .error (c.problem .quoted start .documentSeparator)
    else
      let c := c.skipWhile fun ch => ch == ' ' || ch == '\t'
      if isBreak c.peek then
        let (b, c) := c.lineBreak
        quotedBreaks start fuel (chars ++ b) c
      else .ok (chars, c)

/-- An escape, from the character after the backslash on. -/
def escape (start : Mark) (c : Cursor) : Except Failure Piece :=
  let ch := c.peek
  match simpleEscape? ch with
  | some n => .ok ⟨[CodePoint.ofNatD n], c.next⟩
  | none =>
    match escapeLength? ch with
    | some count =>
      let c := c.next
      let digits := (c.rest.take count).takeWhile isHexDigit
      if digits.length < count then
        .error (c.problem .doubleQuoted start
          (.unexpected (.escapeDigits count) (c.peekAt digits.length)))
      else
        let code := Numeral.ofDigits 16 (digits.map Numeral.digitValue)
        if code < 0x110000 then .ok ⟨[CodePoint.ofNatD code], Cursor.forward count c⟩
        else .error (.fault (.escapeOutOfRange code))
    | none =>
      if isBreak ch then do
        let c := c.lineBreak.2
        let (breaks, c) ← quotedBreaks start (c.rest.length + 1) [] c
        return ⟨pointsOf breaks, c⟩
      else .error (c.problem .doubleQuoted start (.unknownEscape ch))

/-- Characters that stand for themselves in a quoted scalar of either kind. -/
def isQuotedPlain (c : Char) : Bool :=
  c != '\x27' && c != '\x22' && c != '\\' && !isBlankOrEnd c

/-- The part of a quoted scalar up to white space or the closing quote. -/
def quotedWord (double : Bool) (start : Mark) :
    Nat → List (List CodePoint) → Cursor → Except Failure (List (List CodePoint) × Cursor)
  | 0, pieces, c => .ok (pieces, c)
  | fuel + 1, pieces, c =>
    let run := c.run isQuotedPlain
    let c := Cursor.forward run.length c
    let pieces := pointsOf run :: pieces
    let ch := c.peek
    if !double && ch == '\x27' && c.peekAt 1 == '\x27' then
      quotedWord double start fuel (pointsOf [ch] :: pieces) (Cursor.forward 2 c)
    else if (double && ch == '\x27') || (!double && (ch == '\x22' || ch == '\\')) then
      quotedWord double start fuel (pointsOf [ch] :: pieces) c.next
    else if double && ch == '\\' then do
      let piece ← escape start c.next
      quotedWord double start fuel (piece.points :: pieces) piece.after
    else .ok (pieces, c)

/-- The white space inside a quoted scalar. -/
def quotedSpaces (start : Mark) (c : Cursor) : Except Failure Piece := do
  let spaces := c.run fun ch => ch == ' ' || ch == '\t'
  let c := Cursor.forward spaces.length c
  if c.peek == endChar then throw (c.problem .quoted start .endOfStream)
  else if isBreak c.peek then
    let (b, c) := c.lineBreak
    let (breaks, c) ← quotedBreaks start (c.rest.length + 1) [] c
    let joint := if b != ['\n'] then b else if breaks.isEmpty then [' '] else []
    return ⟨pointsOf (joint ++ breaks), c⟩
  else return ⟨pointsOf spaces, c⟩

/-- Reads words and white space up to the closing quote. -/
def quotedRest (quote : Char) (start : Mark) :
    Nat → List (List CodePoint) → Cursor → Except Failure (List (List CodePoint) × Cursor)
  | 0, pieces, c => .ok (pieces, c)
  | fuel + 1, pieces, c =>
    if c.peek == quote then .ok (pieces, c)
    else do
      let spaces ← quotedSpaces start c
      let (pieces, c) ← quotedWord (quote == '\x22') start (spaces.after.rest.length + 1)
        (spaces.points :: pieces) spaces.after
      quotedRest quote start fuel pieces c

def quoted (c : Cursor) : Except Failure Scanned := do
  let start := c.mark
  let quote := c.peek
  let c := c.next
  let (pieces, c) ← quotedWord (quote == '\x22') start (c.rest.length + 1) [] c
  let (pieces, c) ← quotedRest quote start (c.rest.length + 1) pieces c
  let c := c.next
  return ⟨⟨.scalar ⟨pieces.reverse.flatten⟩ false, start, c.mark⟩, c⟩

/-! ## Plain scalars -/

def isFlowIndicator (c : Char) : Bool :=
  c == ',' || c == '[' || c == ']' || c == '\x7b' || c == '\x7d'

/-- A plain scalar inside a flow collection also ends before these. -/
def endsInFlow (c : Char) : Bool := c == '?' || isFlowIndicator c

/-- The characters of a plain scalar up to white space or an indicator that ends it. -/
def plainRun (inFlow : Bool) : List Char → List Char
  | [] => []
  | c :: rest =>
    let next := rest.headD endChar
    if isBlankOrEnd c || (c == ':' && (isBlankOrEnd next || (inFlow && isFlowIndicator next))) ||
        (inFlow && endsInFlow c) then []
    else c :: plainRun inFlow rest

/-- Line breaks between two lines of a plain scalar; none if a document boundary follows. -/
def plainBreaks : Nat → List Char → Cursor → Option (List Char) × Cursor
  | 0, chars, c => (some chars, c)
  | fuel + 1, chars, c =>
    if c.peek == ' ' then plainBreaks fuel chars c.next
    else if isBreak c.peek then
      let (b, c) := c.lineBreak
      if c.isSeparator then (none, c) else plainBreaks fuel (chars ++ b) c
    else (some chars, c)

/-- White space inside a plain scalar. -/
structure Gap where
  /-- What stands for it in the text; empty if the scalar ends here. -/
  chars : List Char
  /-- Whether it holds a line break. -/
  broken : Bool
  after : Cursor

def plainGap (c : Cursor) : Gap :=
  let spaces := c.run (· == ' ')
  let c := Cursor.forward spaces.length c
  if isBreak c.peek then
    let (b, c) := c.lineBreak
    if c.isSeparator then ⟨[], true, c⟩
    else match plainBreaks c.rest.length [] c with
      | (none, c) => ⟨[], true, c⟩
      | (some breaks, c) =>
        let joint := if b != ['\n'] then b else if breaks.isEmpty then [' '] else []
        ⟨joint ++ breaks, true, c⟩
  else ⟨spaces, false, c⟩

/-- A plain scalar, and whether a simple key may follow it. -/
structure PlainScanned extends Scanned where
  keyMayFollow : Bool

/-- Reads the words of a plain scalar. `stop` is the end of the last word. -/
def plainWords (inFlow : Bool) (indent : Int) (start : Mark) :
    Nat → List (List Char) → Gap → Mark → PlainScanned
  | 0, pieces, gap, stop => finish pieces gap stop
  | fuel + 1, pieces, gap, stop =>
    let c := gap.after
    let run := if c.peek == '#' then [] else plainRun inFlow c.rest
    if run.isEmpty then finish pieces gap stop
    else
      let c := Cursor.forward run.length c
      let pieces := run :: gap.chars :: pieces
      let next := plainGap c
      if next.chars.isEmpty || next.after.peek == '#' ||
          (!inFlow && (next.after.column : Int) < indent) then
        finish pieces next c.mark
      else plainWords inFlow indent start fuel pieces next c.mark
where
  finish (pieces : List (List Char)) (gap : Gap) (stop : Mark) : PlainScanned :=
    ⟨⟨⟨.scalar (Text.ofChars pieces.reverse.flatten) true, start, stop⟩, gap.after⟩, gap.broken⟩

/-- Reads a plain scalar in a block of a given indentation. -/
def plain (inFlow : Bool) (parentIndent : Int) (c : Cursor) : PlainScanned :=
  plainWords inFlow (parentIndent + 1) c.mark (c.rest.length + 1) [] ⟨[], false, c⟩ c.mark

end BootConfig.Yaml.Scalar
