import BootConfig.Yaml.Token.Scalar

/-!
# Anchors, aliases, tags and directives

The tokens that consist of an indicator and a name.
-/

namespace BootConfig.Yaml.Property

/-- A value read from a document, with the cursor after it. -/
structure Read (α : Type) where
  value : α
  after : Cursor

def stringOf (cs : List Char) : String := String.ofList cs

/-- The characters that may follow the name of an anchor or alias. -/
def endsAnchor (c : Char) : Bool :=
  isBlankOrEnd c || c == '?' || c == ':' || c == ',' || c == ']' || c == '\x7d' || c == '%' ||
    c == '@' || c == '\x60'

/-- Reads an anchor or an alias from its indicator on. -/
def anchor (c : Cursor) : Except Failure Scalar.Scanned :=
  let start := c.mark
  let isAlias := c.peek == '*'
  let context := Context.named (if isAlias then .alias else .anchor)
  let c := c.next
  let name := c.run isNameChar
  if name.isEmpty then .error (c.unexpected context start .alphanumeric)
  else
    let c := Cursor.forward name.length c
    if endsAnchor c.peek then
      let body := if isAlias then TokenBody.alias (stringOf name) else .anchor (stringOf name)
      .ok ⟨⟨body, start, c.mark⟩, c⟩
    else .error (c.unexpected context start .alphanumeric)

/-! ## Tags -/

/-- Characters of a tag's address, the percent sign of an escape excepted. -/
def isUriChar (c : Char) : Bool :=
  c.isAlphanum || c == '-' || c == ';' || c == '/' || c == '?' || c == ':' || c == '@' ||
    c == '&' || c == '=' || c == '+' || c == '$' || c == ',' || c == '_' || c == '.' || c == '!' ||
    c == '~' || c == '*' || c == '\x27' || c == '(' || c == ')' || c == '[' || c == ']'

/-- The bytes of consecutive percent escapes. -/
def uriBytes (what : Named) (start : Mark) : Nat → List UInt8 → Cursor →
    Except Failure (Read (List UInt8))
  | 0, bytes, c => .ok ⟨bytes, c⟩
  | fuel + 1, bytes, c =>
    if c.peek == '%' then
      let c := c.next
      if !isHexDigit c.peek then .error (c.unexpected (.named what) start .uriEscape)
      else if !isHexDigit (c.peekAt 1) then
        .error (c.problem (.named what) start (.unexpected .uriEscape (c.peekAt 1)))
      else
        let n := Numeral.digitValue c.peek * 16 + Numeral.digitValue (c.peekAt 1)
        uriBytes what start fuel (bytes ++ [UInt8.ofNat n]) (Cursor.forward 2 c)
    else .ok ⟨bytes, c⟩

/-- The characters that consecutive percent escapes stand for. -/
def uriEscapes (what : Named) (start : Mark) (c : Cursor) : Except Failure (Read (List Char)) := do
  let r ← uriBytes what start (c.rest.length + 1) [] c
  match Utf8.decodeFrom 0 r.value with
  | .ok points => return ⟨points.map CodePoint.toCharD, r.after⟩
  | .error e => throw (c.problem (.named what) start (.badUriBytes e.message))

def uriChars (what : Named) (start : Mark) : Nat → List (List Char) → Cursor →
    Except Failure (Read (List (List Char)))
  | 0, pieces, c => .ok ⟨pieces, c⟩
  | fuel + 1, pieces, c => do
    let run := c.run isUriChar
    let c := Cursor.forward run.length c
    if c.peek == '%' then
      let r ← uriEscapes what start c
      uriChars what start fuel (r.value :: run :: pieces) r.after
    else return ⟨if run.isEmpty then pieces else run :: pieces, c⟩

/-- Reads a tag's address. -/
def uri (what : Named) (start : Mark) (c : Cursor) : Except Failure (Read String) := do
  let r ← uriChars what start (c.rest.length + 1) [] c
  if r.value.isEmpty then throw (r.after.unexpected (.uri what) start .uri)
  else return ⟨stringOf r.value.reverse.flatten, r.after⟩

/-- Reads a tag handle: `!`, `!!` or `!name!`. -/
def handle (what : Named) (start : Mark) (c : Cursor) : Except Failure (Read String) :=
  if c.peek != '!' then .error (c.unexpected (.named what) start .tagMark)
  else if c.peekAt 1 == ' ' then .ok ⟨"!", c.next⟩
  else
    let name := c.next.run isNameChar
    let length := name.length + 1
    if c.peekAt length != '!' then
      .error ((Cursor.forward length c).unexpected (.named what) start .tagMark)
    else .ok ⟨stringOf (c.rest.take (length + 1)), Cursor.forward (length + 1) c⟩

/-- Whether a second `!` follows before the tag ends. -/
def hasHandle (c : Cursor) : Bool :=
  (c.next.rest.takeWhile fun ch => !isSpaceOrEnd ch).contains '!'

def tag (c : Cursor) : Except Failure Scalar.Scanned := do
  let start := c.mark
  let second := c.peekAt 1
  let r : Read TagName ←
    if second == '<' then do
      let r ← uri .tag start (Cursor.forward 2 c)
      if r.after.peek != '>' then throw (r.after.unexpected (.uri .tag) start .tagEnd)
      else pure ⟨⟨none, r.value⟩, r.after.next⟩
    else if isBlankOrEnd second then pure ⟨⟨none, "!"⟩, c.next⟩
    else if hasHandle c then do
      let h ← handle .tag start c
      let r ← uri .tag start h.after
      pure ⟨⟨some h.value, r.value⟩, r.after⟩
    else do
      let r ← uri .tag start c.next
      pure ⟨⟨some "!", r.value⟩, r.after⟩
  let c := r.after
  if isSpaceOrEnd c.peek then return ⟨⟨.tag r.value, start, c.mark⟩, c⟩
  else throw (c.unexpected (.named .tag) start .space)

/-! ## Directives -/

def versionNumber (start : Mark) (c : Cursor) : Except Failure (Read Nat) :=
  let ds := c.run Char.isDigit
  if ds.isEmpty then .error (c.unexpected (.named .directive) start .digit)
  else if Numeral.maxDigits < ds.length then .error (.fault (.badInt (.tooLong ds.length)))
  else .ok ⟨Numeral.ofDigits 10 (ds.map Numeral.digitValue), Cursor.forward ds.length c⟩

/-- Reads a version, as in `1.1`. -/
def version (start : Mark) (c : Cursor) : Except Failure (Read Directive) := do
  let major ← versionNumber start c.skipSpaces
  if major.after.peek != '.' then
    throw (major.after.unexpected (.named .directive) start .digitOrPoint)
  let minor ← versionNumber start major.after.next
  if isSpaceOrEnd minor.after.peek then
    return ⟨.version major.value minor.value, minor.after⟩
  else throw (minor.after.unexpected (.named .directive) start .digitOrSpace)

/-- Reads a handle and the address it stands for. -/
def tagHandle (start : Mark) (c : Cursor) : Except Failure (Read Directive) := do
  let h ← handle .directive start c.skipSpaces
  if h.after.peek != ' ' then throw (h.after.unexpected (.named .directive) start .space)
  let r ← uri .directive start h.after.skipSpaces
  if isSpaceOrEnd r.after.peek then return ⟨.tagHandle h.value r.value, r.after⟩
  else throw (r.after.unexpected (.named .directive) start .space)

def directiveName (start : Mark) (c : Cursor) : Except Failure (Read String) :=
  let name := c.run isNameChar
  let after := Cursor.forward name.length c
  if name.isEmpty || !isSpaceOrEnd after.peek then
    .error (after.unexpected (.named .directive) start .alphanumeric)
  else .ok ⟨stringOf name, after⟩

/-- Reads a directive and the rest of its line. -/
def directive (c : Cursor) : Except Failure Scalar.Scanned := do
  let start := c.mark
  let name ← directiveName start c.next
  let (r, stop) : Read Directive × Mark ←
    if name.value == "YAML" then do
      let r ← version start name.after
      pure (r, r.after.mark)
    else if name.value == "TAG" then do
      let r ← tagHandle start name.after
      pure (r, r.after.mark)
    else
      pure (⟨.reserved, name.after.skipWhile fun ch => !isBreak ch⟩, name.after.mark)
  let after ← Scalar.ignoredLine (.named .directive) start r.after
  return ⟨⟨.directive r.value, start, stop⟩, after⟩

end BootConfig.Yaml.Property
