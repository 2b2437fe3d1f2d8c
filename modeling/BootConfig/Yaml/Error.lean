import BootConfig.Calendar
import BootConfig.Number.Numeral
import BootConfig.Yaml.Token

/-!
# Document errors

Why a document is refused. A `Complaint` says what was found wrong and where (`Problem`), and what
was being read and since where (`Context`); the wording of both is in one place. A `ScalarFault` is
different: the text of a single scalar has no value of its kind.
-/

namespace BootConfig.Yaml

inductive NodeKind where
  | scalar
  | sequence
  | mapping
deriving DecidableEq, Inhabited

def NodeKind.name : NodeKind → String
  | .scalar => "scalar"
  | .sequence => "sequence"
  | .mapping => "mapping"

/-- Things that start with an indicator character and a name. -/
inductive Named where
  | directive
  | anchor
  | alias
  | tag
deriving DecidableEq, Inhabited

def Named.phrase : Named → String
  | .directive => "a directive"
  | .anchor => "an anchor"
  | .alias => "an alias"
  | .tag => "a tag"

/-- What was being read. -/
inductive Context where
  | nextToken
  | simpleKey
  | named (what : Named)
  /-- The address part of a tag or of a tag directive. -/
  | uri (what : Named)
  | blockScalar
  | doubleQuoted
  | quoted
  | node
  | blockNode
  | flowNode
  | blockCollection
  | blockMapping
  | flowSequence
  | flowMapping
  | duplicateAnchor (name : String)
  | singleDocument
  | mapping
  | orderedMap
  | pairs
deriving DecidableEq, Inhabited

def Context.message : Context → String
  | .nextToken => "while scanning for the next token"
  | .simpleKey => "while scanning a simple key"
  | .named what => s!"while scanning {what.phrase}"
  | .uri what => s!"while parsing {what.phrase}"
  | .blockScalar => "while scanning a block scalar"
  | .doubleQuoted => "while scanning a double-quoted scalar"
  | .quoted => "while scanning a quoted scalar"
  | .node => "while parsing a node"
  | .blockNode => "while parsing a block node"
  | .flowNode => "while parsing a flow node"
  | .blockCollection => "while parsing a block collection"
  | .blockMapping => "while parsing a block mapping"
  | .flowSequence => "while parsing a flow sequence"
  | .flowMapping => "while parsing a flow mapping"
  | .duplicateAnchor name => s!"found duplicate anchor {Quoted.ofString name}; first occurrence"
  | .singleDocument => "expected a single document in the stream"
  | .mapping => "while constructing a mapping"
  | .orderedMap => "while constructing an ordered map"
  | .pairs => "while constructing pairs"

/-- What was expected where another character was found. -/
inductive Expected where
  | alphanumeric
  | digit
  | digitOrPoint
  | digitOrSpace
  | space
  | commentOrBreak
  | tagEnd
  | tagMark
  | uri
  | uriEscape
  | scalarIndicators
  /-- An escape with a fixed number of digits. -/
  | escapeDigits (count : Nat)
deriving DecidableEq, Inhabited

def Expected.phrase : Expected → String
  | .alphanumeric => "alphabetic or numeric character"
  | .digit => "a digit"
  | .digitOrPoint => "a digit or '.'"
  | .digitOrSpace => "a digit or ' '"
  | .space => "' '"
  | .commentOrBreak => "a comment or a line break"
  | .tagEnd => "'>'"
  | .tagMark => "'!'"
  | .uri => "URI"
  | .uriEscape => "URI escape sequence of 2 hexadecimal numbers"
  | .scalarIndicators => "chomping or indentation indicators"
  | .escapeDigits count => s!"escape sequence of {count} hexadecimal numbers"

/-- Why the text of a binary scalar is no base-64 text. -/
inductive Base64Fault where
  /-- Code points outside ASCII, from one position to another. -/
  | notAscii (first : CodePoint) (start stop : Nat)
  | padding
  | oneOver (dataCharacters : Nat)
deriving DecidableEq, Inhabited

/-- What was found wrong. -/
inductive Problem where
  | cannotStart (found : Char)
  | missingColon
  | entriesNotAllowed
  | keysNotAllowed
  | valuesNotAllowed
  | unexpected (expected : Expected) (found : Char)
  | unknownEscape (found : Char)
  | badUriBytes (why : String)
  | zeroIndentation
  | endOfStream
  | documentSeparator
  | expectedDocumentStart (found : TokenKind)
  | duplicateVersion
  | incompatibleVersion
  | duplicateTagHandle (handle : String)
  | undefinedTagHandle (handle : String)
  | expectedContent (found : TokenKind)
  | expectedBlockEnd (found : TokenKind)
  | expectedInSequence (found : TokenKind)
  | expectedInMapping (found : TokenKind)
  | undefinedAlias (name : String)
  | secondOccurrence
  | anotherDocument
  | notA (wanted found : NodeKind)
  | unhashableKey
  | duplicateKey (quoted : String)
  | mergeOfNonMapping (found : NodeKind)
  | mergeOfScalar (found : NodeKind)
  | unknownTag (tag : String)
  | expectedSequence (found : NodeKind)
  | expectedSingleMapping (found : NodeKind)
  | expectedSingleItem (count : Nat)
  | badBase64 (why : Base64Fault)
deriving DecidableEq, Inhabited

def quoteChar (c : Char) : String := Quoted.ofString (String.singleton c)

def quoteKind (k : TokenKind) : String := Quoted.ofString k.name

def Base64Fault.message : Base64Fault → String
  | .notAscii first start stop =>
    let where_ :=
      if stop == start + 1 then
        let escaped := String.ofList (Quoted.numericEscape first.val)
        s!"character '{escaped}' in position {start}"
      else s!"characters in position {start}-{stop - 1}"
    "failed to convert base64 data into ascii: " ++
      s!"'ascii' codec can't encode {where_}: ordinal not in range(128)"
  | .padding => "failed to decode base64 data: Incorrect padding"
  | .oneOver n =>
    "failed to decode base64 data: Invalid base64-encoded string: " ++
      s!"number of data characters ({n}) cannot be 1 more than a multiple of 4"

def Problem.message : Problem → String
  | .cannotStart c => s!"found character {quoteChar c} that cannot start any token"
  | .missingColon => "could not find expected ':'"
  | .entriesNotAllowed => "sequence entries are not allowed here"
  | .keysNotAllowed => "mapping keys are not allowed here"
  | .valuesNotAllowed => "mapping values are not allowed here"
  | .unexpected expected found => s!"expected {expected.phrase}, but found {quoteChar found}"
  | .unknownEscape found => s!"found unknown escape character {quoteChar found}"
  | .badUriBytes why => why
  | .zeroIndentation => "expected indentation indicator in the range 1-9, but found 0"
  | .endOfStream => "found unexpected end of stream"
  | .documentSeparator => "found unexpected document separator"
  | .expectedDocumentStart found => s!"expected '<document start>', but found {quoteKind found}"
  | .duplicateVersion => "found duplicate YAML directive"
  | .incompatibleVersion => "found incompatible YAML document (version 1.* is required)"
  | .duplicateTagHandle handle => s!"duplicate tag handle {Quoted.ofString handle}"
  | .undefinedTagHandle handle => s!"found undefined tag handle {Quoted.ofString handle}"
  | .expectedContent found => s!"expected the node content, but found {quoteKind found}"
  | .expectedBlockEnd found => s!"expected <block end>, but found {quoteKind found}"
  | .expectedInSequence found => s!"expected ',' or ']', but got {quoteKind found}"
  | .expectedInMapping found => s!"expected ',' or '\x7d', but got {quoteKind found}"
  | .undefinedAlias name => s!"found undefined alias {Quoted.ofString name}"
  | .secondOccurrence => "second occurrence"
  | .anotherDocument => "but found another document"
  | .notA wanted found => s!"expected a {wanted.name} node, but found {found.name}"
  | .unhashableKey => "found unhashable key"
  | .duplicateKey quoted => s!"found duplicate key {quoted}"
  | .mergeOfNonMapping found => s!"expected a mapping for merging, but found {found.name}"
  | .mergeOfScalar found =>
    s!"expected a mapping or list of mappings for merging, but found {found.name}"
  | .unknownTag tag => s!"could not determine a constructor for the tag {Quoted.ofString tag}"
  | .expectedSequence found => s!"expected a sequence, but found {found.name}"
  | .expectedSingleMapping found => s!"expected a mapping of length 1, but found {found.name}"
  | .expectedSingleItem count => s!"expected a single mapping item, but found {count} items"
  | .badBase64 why => why.message

/-- What was found wrong, where, and what was being read since where. -/
structure Complaint where
  context : Option Context
  contextMark : Option Mark
  problem : Problem
  problemMark : Mark
deriving DecidableEq, Inhabited

/-- A complaint without a context. -/
def Complaint.plain (problem : Problem) (mark : Mark) : Complaint := ⟨none, none, problem, mark⟩

/-- A complaint about a problem met while something was being read. -/
def Complaint.during (context : Context) (since : Mark) (problem : Problem) (mark : Mark) :
    Complaint := ⟨some context, some since, problem, mark⟩

/-- What a document is refused for, by the step of reading that refuses it. -/
inductive Error where
  /-- Bytes that are no text, or a character that is not allowed. -/
  | unreadable (position character : Nat) (encoding reason : String)
  | lexical (c : Complaint)
  | syntactic (c : Complaint)
  | compositional (c : Complaint)
  | constructive (c : Complaint)
deriving DecidableEq, Inhabited

/-- Why the text of a scalar has no value of its kind. -/
inductive ScalarFault where
  | unknownTruth (word : Text)
  | emptyNumber
  | badInt (why : Numeral.IntFault)
  | badFloat (source : Text)
  /-- A part of a number in base 60 whose weight is beyond the floating-point range. -/
  | weightTooGreat
  | notATimestamp
  | timestampOfMapping
  | badCalendar (why : CalendarFault)
  | escapeOutOfRange (code : Nat)
  /-- A duplicate key that is too long an integer to be quoted. -/
  | unquotableKey
  /-- A set as the key of a mapping whose keys have to be unique. -/
  | setAsKey
  /-- A scalar whose text is that of a mapping which contains the scalar. -/
  | endless

def ScalarFault.message : ScalarFault → String
  | .unknownTruth word => Quoted.ofText word
  | .emptyNumber => "string index out of range"
  | .badInt why => why.message
  | .badFloat source => s!"could not convert string to float: {Quoted.ofText source}"
  | .weightTooGreat => "int too large to convert to float"
  | .notATimestamp => "'NoneType' object has no attribute 'groupdict'"
  | .timestampOfMapping => "expected string or bytes-like object, got 'list'"
  | .badCalendar why => why.message
  | .escapeOutOfRange code =>
    if code < 0x80000000 then "chr() arg not in range(0x110000)"
    else "Python int too large to convert to C int"
  | .unquotableKey => Numeral.tooLongToWrite
  | .setAsKey => "unhashable type: 'set'"
  | .endless => "maximum recursion depth exceeded"

/-- Why a document has no value. -/
inductive Failure where
  | refused (e : Error)
  | fault (f : ScalarFault)

end BootConfig.Yaml
