import BootConfig.Text.Basic

/-!
# Tokens

The lexical units of a document, each with the places where it starts and ends. Lines and columns
count from zero, columns in code points.
-/

namespace BootConfig.Yaml

/-- A place in a document. -/
structure Mark where
  line : Nat
  column : Nat
deriving DecidableEq, Inhabited

inductive TokenKind where
  | streamStart
  | streamEnd
  | directive
  | documentStart
  | documentEnd
  | blockSequenceStart
  | blockMappingStart
  | blockEnd
  | flowSequenceStart
  | flowMappingStart
  | flowSequenceEnd
  | flowMappingEnd
  | key
  | value
  | blockEntry
  | flowEntry
  | alias
  | anchor
  | tag
  | scalar
deriving DecidableEq, Inhabited

def TokenKind.name : TokenKind → String
  | .streamStart => "<stream start>"
  | .streamEnd => "<stream end>"
  | .directive => "<directive>"
  | .documentStart => "<document start>"
  | .documentEnd => "<document end>"
  | .blockSequenceStart => "<block sequence start>"
  | .blockMappingStart => "<block mapping start>"
  | .blockEnd => "<block end>"
  | .flowSequenceStart => "["
  | .flowMappingStart => "\x7b"
  | .flowSequenceEnd => "]"
  | .flowMappingEnd => "\x7d"
  | .key => "?"
  | .value => ":"
  | .blockEntry => "-"
  | .flowEntry => ","
  | .alias => "<alias>"
  | .anchor => "<anchor>"
  | .tag => "<tag>"
  | .scalar => "<scalar>"

/-- A directive before a document. -/
inductive Directive where
  /-- The version that the document is written for. -/
  | version (major minor : Nat)
  /-- A handle and the start of the tags it stands for. -/
  | tagHandle (handle start : String)
  /-- A directive without meaning. -/
  | reserved
deriving DecidableEq, Inhabited

/-- A tag as it is written: a handle, if there is one, and what follows it. -/
structure TagName where
  handle : Option String
  suffix : String
deriving DecidableEq, Inhabited

/-- What a token carries. -/
inductive TokenBody where
  /-- An indicator or a boundary. -/
  | mark (kind : TokenKind)
  | directive (d : Directive)
  | alias (name : String)
  | anchor (name : String)
  | tag (name : TagName)
  /-- The text of a scalar, and whether it is written without quotes or indicators. -/
  | scalar (text : Text) (plain : Bool)
deriving DecidableEq, Inhabited

def TokenBody.kind : TokenBody → TokenKind
  | .mark k => k
  | .directive _ => .directive
  | .alias _ => .alias
  | .anchor _ => .anchor
  | .tag _ => .tag
  | .scalar _ _ => .scalar

structure Token where
  body : TokenBody
  start : Mark
  stop : Mark
deriving DecidableEq, Inhabited

def Token.kind (t : Token) : TokenKind := t.body.kind

end BootConfig.Yaml
