import BootConfig.Yaml.Token.Lexer

/-!
# Events

The grammar of documents, as a machine over tokens that reports the starts and ends of documents and
collections, scalars and aliases. Nodes that are left out are reported as empty scalars.

* `Grammar.step`: the next event, and the machine after it.
* `Parsed`: the events of a document, and the failure behind them if there is one.
-/

namespace BootConfig.Yaml

/-- What a node may carry before its content. -/
structure Properties where
  anchor : Option String
  /-- The complete tag; a lone `!` stands for itself. -/
  tag : Option String
deriving DecidableEq, Inhabited

namespace Properties

def none : Properties := ⟨.none, .none⟩

/-- Whether the kind of a node is left to its content. -/
def isUntagged (p : Properties) : Bool := p.tag.isNone || p.tag == some "!"

end Properties

inductive EventBody where
  | streamStart
  | streamEnd
  | documentStart
  | documentEnd
  | alias (name : String)
  /-- A scalar; its tag may depend on its text if it is `resolvable`. -/
  | scalar (props : Properties) (resolvable : Bool) (text : Text)
  | sequenceStart (props : Properties)
  | sequenceEnd
  | mappingStart (props : Properties)
  | mappingEnd
deriving DecidableEq, Inhabited

/-- An event with the place where it starts. -/
structure Event where
  body : EventBody
  start : Mark
deriving DecidableEq, Inhabited

/-- The events of a document, and why there are no more. -/
structure Parsed where
  events : List Event
  failure : Option Failure

/-- What the grammar expects next. -/
inductive Expectation where
  | streamStart
  | firstDocument
  | document
  | documentContent
  | documentEnd
  | blockNode
  | sequenceEntry (first : Bool)
  | indentlessEntry
  | mappingKey (first : Bool)
  | mappingValue
  | flowEntry (first : Bool)
  | pairKey
  | pairValue
  | pairEnd
  | flowKey (first : Bool)
  | flowValue
  | flowEmptyValue
  | nothing
deriving DecidableEq, Inhabited

/-- The grammar machine between two events. -/
structure Grammar where
  tokens : List Token
  /-- Why there are no more tokens. -/
  behind : Option Failure
  expected : Expectation
  /-- What is expected after the current node, innermost first. -/
  after : List Expectation
  /-- Where the open collections start, innermost first. -/
  opened : List Mark
  /-- Tag handles in force and what they stand for. -/
  handles : List (String × String)
deriving Inhabited

namespace Grammar

def defaultHandles : List (String × String) := [("!", "!"), ("!!", "tag:yaml.org,2002:")]

def ofLexed (l : Lexed) : Grammar := ⟨l.tokens, l.failure, .streamStart, [], [], defaultHandles⟩

/-- The next token. -/
def peek (g : Grammar) : Except Failure Token :=
  match g.tokens with
  | t :: _ => .ok t
  | [] => .error (g.behind.getD (.refused (.syntactic (.plain .endOfStream ⟨0, 0⟩))))

/-- The machine after the next token. -/
def drop (g : Grammar) : Grammar := { g with tokens := g.tokens.drop 1 }

/-- The next token is removed. -/
def take (g : Grammar) : Except Failure (Token × Grammar) := do return (← g.peek, g.drop)

def isNext (g : Grammar) (kinds : List TokenKind) : Except Failure Bool := do
  return kinds.contains (← g.peek).kind

def expecting (g : Grammar) (e : Expectation) : Grammar := { g with expected := e }

/-- Expects `e` once the current node is complete. -/
def andThen (g : Grammar) (e : Expectation) : Grammar := { g with after := e :: g.after }

/-- The current node is complete. -/
def resume (g : Grammar) : Grammar :=
  { g with expected := g.after.headD .nothing, after := g.after.drop 1 }

/-- A collection starts. -/
def enter (g : Grammar) (start : Mark) : Grammar := { g with opened := start :: g.opened }

/-- The innermost collection is complete. -/
def leave (g : Grammar) : Grammar := { g.resume with opened := g.opened.drop 1 }

/-- Where the innermost collection starts. -/
def innermost (g : Grammar) : Mark := g.opened.headD ⟨0, 0⟩

def problem (context : Context) (since : Mark) (p : Problem) (mark : Mark) : Failure :=
  .refused (.syntactic (.during context since p mark))

def plainProblem (p : Problem) (mark : Mark) : Failure := .refused (.syntactic (.plain p mark))

/-- The event of a machine, and the machine after it. -/
abbrev Step := Except Failure (Event × Grammar)

def emit (g : Grammar) (body : EventBody) (start : Mark) : Step := .ok (⟨body, start⟩, g)

/-- A node that is left out. -/
def emptyScalar (g : Grammar) (mark : Mark) : Step :=
  g.emit (.scalar .none true Text.empty) mark

/-! ## Documents -/

/-- Reads the directives before a document: the handles they define. -/
def directives (g : Grammar) : Nat → Bool → List (String × String) →
    Except Failure (List (String × String) × Grammar)
  | 0, _, handles => .ok (handles, g)
  | fuel + 1, versioned, handles => do
    let t ← g.peek
    match t.body with
    | .directive (.version major _) =>
      if versioned then throw (plainProblem .duplicateVersion t.start)
      else if major != 1 then throw (plainProblem .incompatibleVersion t.start)
      else g.drop.directives fuel true handles
    | .directive (.tagHandle handle start) =>
      if (handles.lookup handle).isSome then
        throw (plainProblem (.duplicateTagHandle handle) t.start)
      else g.drop.directives fuel versioned (handles ++ [(handle, start)])
    | .directive .reserved => g.drop.directives fuel versioned handles
    | _ => return (handles, g)

/-- Moves over document ends. -/
def skipDocumentEnds (g : Grammar) : Nat → Except Failure Grammar
  | 0 => .ok g
  | fuel + 1 => do
    if ← g.isNext [.documentEnd] then g.drop.skipDocumentEnds fuel else return g

/-- An explicit document, or the end. -/
def document (g : Grammar) : Step := do
  let g ← g.skipDocumentEnds g.tokens.length
  let t ← g.peek
  if t.kind == .streamEnd then (g.drop.expecting .nothing).emit .streamEnd t.start
  else
    let (handles, g) ← g.directives g.tokens.length false []
    let s ← g.peek
    if s.kind != .documentStart then
      throw (plainProblem (.expectedDocumentStart s.kind) s.start)
    let g := { g.drop with handles := handles ++ defaultHandles }
    ((g.andThen .documentEnd).expecting .documentContent).emit .documentStart t.start

/-- The first document may do without a start. -/
def firstDocument (g : Grammar) : Step := do
  let t ← g.peek
  if [TokenKind.directive, .documentStart, .streamEnd].contains t.kind then g.document
  else
    let g := { g with handles := defaultHandles }
    ((g.andThen .documentEnd).expecting .blockNode).emit .documentStart t.start

def documentEnd (g : Grammar) : Step := do
  let t ← g.peek
  let g := if t.kind == .documentEnd then g.drop else g
  (g.expecting .document).emit .documentEnd t.start

/-! ## Nodes -/

/-- The properties before a node, with the places where the node and its tag start. -/
structure Preamble where
  anchor : Option String
  tag : Option TagName
  start : Option Mark
  tagMark : Mark
  grammar : Grammar

/-- Reads an anchor and a tag, in either order. -/
def preamble (g : Grammar) : Except Failure Preamble := do
  let t ← g.peek
  match t.body with
  | .anchor name =>
    let g := g.drop
    let u ← g.peek
    match u.body with
    | .tag tag => return ⟨some name, some tag, some t.start, u.start, g.drop⟩
    | _ => return ⟨some name, none, some t.start, t.start, g⟩
  | .tag tag =>
    let g := g.drop
    let u ← g.peek
    match u.body with
    | .anchor name => return ⟨some name, some tag, some t.start, t.start, g.drop⟩
    | _ => return ⟨none, some tag, some t.start, t.start, g⟩
  | _ => return ⟨none, none, none, t.start, g⟩

/-- The complete tag. -/
def completeTag (p : Preamble) : Except Failure (Option String) :=
  match p.tag with
  | none => .ok none
  | some ⟨none, suffix⟩ => .ok (some suffix)
  | some ⟨some handle, suffix⟩ =>
    match p.grammar.handles.lookup handle with
    | some start => .ok (some (start ++ suffix))
    | none =>
      .error (problem .node (p.start.getD p.tagMark) (.undefinedTagHandle handle) p.tagMark)

/-- A node. Blocks are allowed in block context only, and a sequence without indentation only as the
value of a block mapping. -/
def node (g : Grammar) (block indentless : Bool) : Step := do
  let t ← g.peek
  match t.body with
  | .alias name => g.drop.resume.emit (.alias name) t.start
  | _ =>
    let p ← g.preamble
    let props : Properties := ⟨p.anchor, ← completeTag p⟩
    let g := p.grammar
    let t ← g.peek
    let start := p.start.getD t.start
    if indentless && t.kind == .blockEntry then
      (g.expecting .indentlessEntry).emit (.sequenceStart props) start
    else
      match t.body with
      | .scalar text plain =>
        let resolvable := (plain && props.tag.isNone) || props.tag == some "!"
        g.drop.resume.emit (.scalar props resolvable text) start
      | _ =>
        if t.kind == .flowSequenceStart then
          (g.expecting (.flowEntry true)).emit (.sequenceStart props) start
        else if t.kind == .flowMappingStart then
          (g.expecting (.flowKey true)).emit (.mappingStart props) start
        else if block && t.kind == .blockSequenceStart then
          (g.expecting (.sequenceEntry true)).emit (.sequenceStart props) start
        else if block && t.kind == .blockMappingStart then
          (g.expecting (.mappingKey true)).emit (.mappingStart props) start
        else if props.anchor.isSome || props.tag.isSome then
          g.resume.emit (.scalar props props.isUntagged Text.empty) start
        else
          throw (problem (if block then .blockNode else .flowNode) start
            (.expectedContent t.kind) t.start)

def documentContent (g : Grammar) : Step := do
  let t ← g.peek
  if [TokenKind.directive, .documentStart, .documentEnd, .streamEnd].contains t.kind then
    g.resume.emptyScalar t.start
  else g.node true false

/-! ## Block collections -/

/-- Removes the token that starts a collection. -/
def open? (g : Grammar) (first : Bool) : Except Failure Grammar := do
  if first then
    let (t, g) ← g.take
    return g.enter t.start
  else return g

def sequenceEntry (g : Grammar) (first : Bool) : Step := do
  let g ← g.open? first
  let (t, rest) ← g.take
  if t.kind == .blockEntry then
    if ← rest.isNext [.blockEntry, .blockEnd] then
      (rest.expecting (.sequenceEntry false)).emptyScalar t.stop
    else (rest.andThen (.sequenceEntry false)).node true false
  else if t.kind == .blockEnd then rest.leave.emit .sequenceEnd t.start
  else throw (problem .blockCollection g.innermost (.expectedBlockEnd t.kind) t.start)

def indentlessEntry (g : Grammar) : Step := do
  let (t, rest) ← g.take
  if t.kind == .blockEntry then
    if ← rest.isNext [.blockEntry, .key, .value, .blockEnd] then
      (rest.expecting .indentlessEntry).emptyScalar t.stop
    else (rest.andThen .indentlessEntry).node true false
  else g.resume.emit .sequenceEnd t.start

def mappingKey (g : Grammar) (first : Bool) : Step := do
  let g ← g.open? first
  let (t, rest) ← g.take
  if t.kind == .key then
    if ← rest.isNext [.key, .value, .blockEnd] then
      (rest.expecting .mappingValue).emptyScalar t.stop
    else (rest.andThen .mappingValue).node true true
  else if t.kind == .blockEnd then rest.leave.emit .mappingEnd t.start
  else throw (problem .blockMapping g.innermost (.expectedBlockEnd t.kind) t.start)

def mappingValue (g : Grammar) : Step := do
  let (t, rest) ← g.take
  if t.kind == .value then
    if ← rest.isNext [.key, .value, .blockEnd] then
      (rest.expecting (.mappingKey false)).emptyScalar t.stop
    else (rest.andThen (.mappingKey false)).node true true
  else (g.expecting (.mappingKey false)).emptyScalar t.start

/-! ## Flow collections -/

def endSequence (g : Grammar) : Step := do
  let (t, g) ← g.take
  g.leave.emit .sequenceEnd t.start

def endMapping (g : Grammar) : Step := do
  let (t, g) ← g.take
  g.leave.emit .mappingEnd t.start

/-- Moves over the comma before an entry that is not the first one. -/
def comma (g : Grammar) (first : Bool) (context : Context) (p : TokenKind → Problem) :
    Except Failure Grammar := do
  if first then return g
  let t ← g.peek
  if t.kind == .flowEntry then return g.drop
  else throw (problem context g.innermost (p t.kind) t.start)

def flowEntry (g : Grammar) (first : Bool) : Step := do
  let g ← g.open? first
  if ← g.isNext [.flowSequenceEnd] then g.endSequence
  else
    let g ← g.comma first .flowSequence .expectedInSequence
    let t ← g.peek
    if t.kind == .key then (g.expecting .pairKey).emit (.mappingStart .none) t.start
    else if t.kind == .flowSequenceEnd then g.endSequence
    else (g.andThen (.flowEntry false)).node false false

/-- The key of a mapping with one entry inside a flow sequence. -/
def pairKey (g : Grammar) : Step := do
  let (t, g) ← g.take
  if ← g.isNext [.value, .flowEntry, .flowSequenceEnd] then
    (g.expecting .pairValue).emptyScalar t.stop
  else (g.andThen .pairValue).node false false

def pairValue (g : Grammar) : Step := do
  let (t, rest) ← g.take
  if t.kind == .value then
    if ← rest.isNext [.flowEntry, .flowSequenceEnd] then
      (rest.expecting .pairEnd).emptyScalar t.stop
    else (rest.andThen .pairEnd).node false false
  else (g.expecting .pairEnd).emptyScalar t.start

def pairEnd (g : Grammar) : Step := do
  let t ← g.peek
  (g.expecting (.flowEntry false)).emit .mappingEnd t.start

def flowKey (g : Grammar) (first : Bool) : Step := do
  let g ← g.open? first
  if ← g.isNext [.flowMappingEnd] then g.endMapping
  else
    let g ← g.comma first .flowMapping .expectedInMapping
    let t ← g.peek
    if t.kind == .key then
      let g := g.drop
      if ← g.isNext [.value, .flowEntry, .flowMappingEnd] then
        (g.expecting .flowValue).emptyScalar t.stop
      else (g.andThen .flowValue).node false false
    else if t.kind == .flowMappingEnd then g.endMapping
    else (g.andThen .flowEmptyValue).node false false

def flowValue (g : Grammar) : Step := do
  let (t, rest) ← g.take
  if t.kind == .value then
    if ← rest.isNext [.flowEntry, .flowMappingEnd] then
      (rest.expecting (.flowKey false)).emptyScalar t.stop
    else (rest.andThen (.flowKey false)).node false false
  else (g.expecting (.flowKey false)).emptyScalar t.start

def flowEmptyValue (g : Grammar) : Step := do
  let t ← g.peek
  (g.expecting (.flowKey false)).emptyScalar t.start

def streamStart (g : Grammar) : Step := do
  let (t, g) ← g.take
  (g.expecting .firstDocument).emit .streamStart t.start

/-- The next event. -/
def step (g : Grammar) : Step :=
  match g.expected with
  | .streamStart => g.streamStart
  | .firstDocument => g.firstDocument
  | .document => g.document
  | .documentContent => g.documentContent
  | .documentEnd => g.documentEnd
  | .blockNode => g.node true false
  | .sequenceEntry first => g.sequenceEntry first
  | .indentlessEntry => g.indentlessEntry
  | .mappingKey first => g.mappingKey first
  | .mappingValue => g.mappingValue
  | .flowEntry first => g.flowEntry first
  | .pairKey => g.pairKey
  | .pairValue => g.pairValue
  | .pairEnd => g.pairEnd
  | .flowKey first => g.flowKey first
  | .flowValue => g.flowValue
  | .flowEmptyValue => g.flowEmptyValue
  | .nothing => g.streamStart

/-- Reads events until nothing is expected or there is a failure. -/
def run : Nat → Array Event → Grammar → Parsed
  | 0, events, _ => ⟨events.toList, none⟩
  | fuel + 1, events, g =>
    if g.expected == .nothing then ⟨events.toList, none⟩
    else match g.step with
      | .ok (e, g) => run fuel (events.push e) g
      | .error e => ⟨events.toList, some e⟩

end Grammar

/-- The events of a document's tokens. Between two tokens there are fewer than six events. -/
def Parsed.ofLexed (l : Lexed) : Parsed :=
  (Grammar.ofLexed l).run (6 * l.tokens.length + 16) #[]

end BootConfig.Yaml
