import BootConfig.Yaml.Token.Property

/-!
# Lexer

Splits a document into tokens. Whether a token starts a mapping shows only when a colon follows it,
so a token that may be such a *simple key* is held back until that is decided: it has to stand on
one line and be followed by its colon within 1024 characters.

* `Lexer.step`: reads the next token, with the block boundaries that come with it.
* `Lexed`: the tokens that can be handed on, and the failure behind them if there is one.
-/

namespace BootConfig.Yaml

/-- A token that may turn out to be a key. -/
structure SimpleKey where
  /-- The number of the token. -/
  number : Nat
  /-- Whether the document is wrong if it is no key. -/
  required : Bool
  index : Nat
  mark : Mark
deriving Inhabited

/-- A lexer between two tokens. -/
structure Lexer where
  cursor : Cursor
  /-- Tokens handed on, in order. -/
  released : Array Token
  /-- Tokens held back behind a possible key, in order. -/
  pending : List Token
  /-- Number of open flow collections. -/
  flowLevel : Int
  indent : Int
  /-- The indentations of the enclosing blocks, innermost first. -/
  outerIndents : List Int
  /-- Whether a simple key may start here. -/
  keyAllowed : Bool
  /-- The possible key at each flow level. -/
  keys : List (Int × SimpleKey)
  done : Bool
deriving Inhabited

/-- The tokens of a document: those that can be handed on, and why there are no more. -/
structure Lexed where
  tokens : List Token
  failure : Option Failure

namespace Lexer

def start (cs : List Char) : Lexer where
  cursor := Cursor.ofChars cs
  released := #[]
  pending := [⟨.mark .streamStart, ⟨0, 0⟩, ⟨0, 0⟩⟩]
  flowLevel := 0
  indent := -1
  outerIndents := []
  keyAllowed := true
  keys := []
  done := false

def inFlow (l : Lexer) : Bool := l.flowLevel != 0

def push (l : Lexer) (t : Token) : Lexer := { l with pending := l.pending ++ [t] }

/-- The number that the next token will have. -/
def nextNumber (l : Lexer) : Nat := l.released.size + l.pending.length

/-- Puts a token before the one with a number. -/
def insertAt (l : Lexer) (number : Nat) (t : Token) : Lexer :=
  let i := number - l.released.size
  { l with pending := l.pending.take i ++ t :: l.pending.drop i }

/-! ## Simple keys -/

def missingColon (l : Lexer) (key : SimpleKey) : Failure :=
  l.cursor.problem .simpleKey key.mark .missingColon

/-- Whether a possible key is out of reach of a colon at the cursor. -/
def isStale (l : Lexer) (key : SimpleKey) : Bool :=
  key.mark.line != l.cursor.line || key.index + 1024 < l.cursor.index

/-- Gives up possible keys that are out of reach. -/
def dropStaleKeys (l : Lexer) : Except Failure Lexer :=
  match l.keys.find? fun k => l.isStale k.2 && k.2.required with
  | some k => .error (l.missingColon k.2)
  | none => .ok { l with keys := l.keys.filter fun k => !l.isStale k.2 }

/-- Gives up the possible key at the current flow level. -/
def dropKey (l : Lexer) : Except Failure Lexer :=
  match l.keys.lookup l.flowLevel with
  | none => .ok l
  | some key =>
    if key.required then .error (l.missingColon key)
    else .ok { l with keys := l.keys.filter fun k => k.1 != l.flowLevel }

/-- Notes that the next token may be a key. -/
def saveKey (l : Lexer) : Except Failure Lexer :=
  if l.keyAllowed then do
    let required := !l.inFlow && l.indent == (l.cursor.column : Int)
    let key : SimpleKey := ⟨l.nextNumber, required, l.cursor.index, l.cursor.mark⟩
    let l ← l.dropKey
    return { l with keys := (l.flowLevel, key) :: l.keys }
  else .ok l

/-! ## Indentation -/

/-- Ends the blocks that are indented more deeply than `column`, those of `indents` included. -/
def unwindFrom (column : Int) (mark : Mark) : Int → List Int → List Token → Int × List Int × List Token
  | indent, [], ended => (indent, [], ended)
  | indent, outer :: rest, ended =>
    if column < indent then
      unwindFrom column mark outer rest (⟨.mark .blockEnd, mark, mark⟩ :: ended)
    else (indent, outer :: rest, ended)

/-- Ends the blocks that are indented more deeply than `column`, outside flow collections. -/
def unwind (l : Lexer) (column : Int) : Lexer :=
  if l.inFlow then l
  else
    let (indent, outer, ended) := unwindFrom column l.cursor.mark l.indent l.outerIndents []
    { l with indent := indent, outerIndents := outer, pending := l.pending ++ ended }

/-- Starts a block at a column, if that is deeper than the current one. -/
def enterBlock (l : Lexer) (column : Nat) : Option Lexer :=
  if l.indent < (column : Int) then
    some { l with indent := column, outerIndents := l.indent :: l.outerIndents }
  else none

/-- Starts a block at the cursor, if that is deeper, and notes its first token. -/
def openBlock (l : Lexer) (kind : TokenKind) : Lexer :=
  match l.enterBlock l.cursor.column with
  | some l => l.push ⟨.mark kind, l.cursor.mark, l.cursor.mark⟩
  | none => l

/-! ## Tokens -/

/-- Appends an indicator of `width` characters at the cursor. -/
def indicator (l : Lexer) (kind : TokenKind) (width : Nat) : Lexer :=
  let after := Cursor.forward width l.cursor
  { l with cursor := after }.push ⟨.mark kind, l.cursor.mark, after.mark⟩

def append (l : Lexer) (s : Scalar.Scanned) : Lexer := { l with cursor := s.after }.push s.token

def streamEnd (l : Lexer) : Except Failure Lexer := do
  let l ← (l.unwind (-1)).dropKey
  let l := { l with keyAllowed := false, keys := [], done := true }
  return l.indicator .streamEnd 0

def directive (l : Lexer) : Except Failure Lexer := do
  let l ← (l.unwind (-1)).dropKey
  return { l with keyAllowed := false }.append (← Property.directive l.cursor)

def documentBoundary (l : Lexer) (kind : TokenKind) : Except Failure Lexer := do
  let l ← (l.unwind (-1)).dropKey
  return { l with keyAllowed := false }.indicator kind 3

def flowStart (l : Lexer) (kind : TokenKind) : Except Failure Lexer := do
  let l ← l.saveKey
  return { l with flowLevel := l.flowLevel + 1, keyAllowed := true }.indicator kind 1

def flowEnd (l : Lexer) (kind : TokenKind) : Except Failure Lexer := do
  let l ← l.dropKey
  return { l with flowLevel := l.flowLevel - 1, keyAllowed := false }.indicator kind 1

def flowEntry (l : Lexer) : Except Failure Lexer := do
  let l ← { l with keyAllowed := true }.dropKey
  return l.indicator .flowEntry 1

def notHere (l : Lexer) (p : Problem) : Failure :=
  .refused (.lexical (.plain p l.cursor.mark))

def blockEntry (l : Lexer) : Except Failure Lexer := do
  let l ←
    if l.inFlow then pure l
    else if !l.keyAllowed then throw (l.notHere .entriesNotAllowed)
    else pure (l.openBlock .blockSequenceStart)
  let l ← { l with keyAllowed := true }.dropKey
  return l.indicator .blockEntry 1

def key (l : Lexer) : Except Failure Lexer := do
  let l ←
    if l.inFlow then pure l
    else if !l.keyAllowed then throw (l.notHere .keysNotAllowed)
    else pure (l.openBlock .blockMappingStart)
  let l ← { l with keyAllowed := !l.inFlow }.dropKey
  return l.indicator .key 1

/-- The colon after a possible key: the key is one, and may start a mapping. -/
def valueOfKey (l : Lexer) (key : SimpleKey) : Lexer :=
  let l := { l with keys := l.keys.filter fun k => k.1 != l.flowLevel }
  let l := l.insertAt key.number ⟨.mark .key, key.mark, key.mark⟩
  let l :=
    if l.inFlow then l
    else match l.enterBlock key.mark.column with
      | some l => l.insertAt key.number ⟨.mark .blockMappingStart, key.mark, key.mark⟩
      | none => l
  { l with keyAllowed := false }.indicator .value 1

def value (l : Lexer) : Except Failure Lexer :=
  match l.keys.lookup l.flowLevel with
  | some key => .ok (l.valueOfKey key)
  | none => do
    let l ←
      if l.inFlow then pure l
      else if !l.keyAllowed then throw (l.notHere .valuesNotAllowed)
      else pure (l.openBlock .blockMappingStart)
    let l ← { l with keyAllowed := !l.inFlow }.dropKey
    return l.indicator .value 1

/-- A token that may be a key, after which no key may start on the same line. -/
def keyLike (l : Lexer) (read : Cursor → Except Failure Scalar.Scanned) :
    Except Failure Lexer := do
  let l ← l.saveKey
  return { l with keyAllowed := false }.append (← read l.cursor)

def blockScalar (l : Lexer) (folded : Bool) : Except Failure Lexer := do
  let l ← { l with keyAllowed := true }.dropKey
  return l.append (← Scalar.block folded l.indent l.cursor)

def plainScalar (l : Lexer) : Except Failure Lexer := do
  let l ← l.saveKey
  let s := Scalar.plain l.inFlow l.indent l.cursor
  return { l with keyAllowed := s.keyMayFollow }.append s.toScanned

/-- Moves over spaces, comments and line breaks. After a line break a key may start, outside flow
collections. -/
def skipToToken (fuel : Nat) (l : Lexer) : Lexer :=
  match fuel with
  | 0 => l
  | fuel + 1 =>
    let c := l.cursor.skipSpaces.skipComment
    if isBreak c.peek then
      skipToToken fuel
        { l with cursor := c.lineBreak.2, keyAllowed := l.keyAllowed || !l.inFlow }
    else { l with cursor := c }

/-- Moves to the next token; a byte order mark at the very start is passed over. -/
def toToken (l : Lexer) : Lexer :=
  let l :=
    if l.cursor.index == 0 && l.cursor.peek == '\uFEFF' then { l with cursor := l.cursor.next }
    else l
  l.skipToToken (l.cursor.rest.length + 1)

/-- Characters that start no plain scalar. -/
def isIndicator (c : Char) : Bool :=
  c == '-' || c == '?' || c == ':' || c == ',' || c == '[' || c == ']' || c == '\x7b' ||
    c == '\x7d' || c == '#' || c == '&' || c == '*' || c == '!' || c == '|' || c == '>' ||
    c == '\x27' || c == '\x22' || c == '%' || c == '@' || c == '\x60'

/-- Whether a plain scalar starts at the cursor: some indicators may start one if no blank follows
them. -/
def startsPlain (l : Lexer) : Bool :=
  let c := l.cursor.peek
  (!isBlankOrEnd c && !isIndicator c) ||
    (!isBlankOrEnd (l.cursor.peekAt 1) && (c == '-' || (!l.inFlow && (c == '?' || c == ':'))))

/-- Whether a blank, or anything in a flow collection, follows the indicator at the cursor. -/
def startsPart (l : Lexer) : Bool := l.inFlow || isBlankOrEnd (l.cursor.peekAt 1)

/-- Reads the token at the cursor. -/
def token (l : Lexer) : Except Failure Lexer :=
  let c := l.cursor.peek
  let atLineStart := l.cursor.column == 0
  if c == endChar then l.streamEnd
  else if c == '%' && atLineStart then l.directive
  else if atLineStart && l.cursor.isTriple '-' then l.documentBoundary .documentStart
  else if atLineStart && l.cursor.isTriple '.' then l.documentBoundary .documentEnd
  else if c == '[' then l.flowStart .flowSequenceStart
  else if c == '\x7b' then l.flowStart .flowMappingStart
  else if c == ']' then l.flowEnd .flowSequenceEnd
  else if c == '\x7d' then l.flowEnd .flowMappingEnd
  else if c == ',' then l.flowEntry
  else if c == '-' && isBlankOrEnd (l.cursor.peekAt 1) then l.blockEntry
  else if c == '?' && l.startsPart then l.key
  else if c == ':' && l.startsPart then l.value
  else if c == '*' || c == '&' then l.keyLike Property.anchor
  else if c == '!' then l.keyLike Property.tag
  else if c == '|' && !l.inFlow then l.blockScalar false
  else if c == '>' && !l.inFlow then l.blockScalar true
  else if c == '\x27' || c == '\x22' then l.keyLike Scalar.quoted
  else if l.startsPlain then l.plainScalar
  else .error (.refused (.lexical ⟨some .nextToken, none, .cannotStart c, l.cursor.mark⟩))

/-- Reads the next token and what comes with it. -/
def step (l : Lexer) : Except Failure Lexer := do
  let l ← l.toToken.dropStaleKeys
  let l ← (l.unwind l.cursor.column).token
  if l.done then return l else l.dropStaleKeys

/-- Hands on the tokens before the first possible key. -/
def release (l : Lexer) : Lexer :=
  let held := if l.done then [] else l.keys.map fun k => k.2.number
  let limit := held.foldl min l.nextNumber
  let count := limit - l.released.size
  { l with
    released := l.released ++ (l.pending.take count).toArray
    pending := l.pending.drop count }

/-- Reads tokens until the end of the document or a failure. -/
def run : Nat → Lexer → Lexed
  | 0, l => ⟨l.released.toList, none⟩
  | fuel + 1, l =>
    let l := l.release
    if l.done then ⟨l.released.toList, none⟩
    else match l.step with
      | .ok l => run fuel l
      | .error e => ⟨l.released.toList, some e⟩

end Lexer

/-- The tokens of a document. -/
def Lexed.ofChars (cs : List Char) : Lexed := (Lexer.start cs).run (cs.length + 2)

end BootConfig.Yaml
