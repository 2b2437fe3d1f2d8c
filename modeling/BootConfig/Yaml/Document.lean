import BootConfig.Data.Value
import BootConfig.Yaml.MergeKeys
import BootConfig.Yaml.ScalarValue
import BootConfig.Yaml.Source

/-!
# Documents

The value of a document: each node gets one object, so that aliases become shared objects. The
object of a collection is made when the collection is first met and filled later, in the order in
which collections were met; a collection may therefore contain itself.

* `KeyPolicy`: whether a mapping may bind one key twice. Documents of settings are read with unique
  keys; the check looks at a mapping as it is written, before merge keys are replaced.
* `Builder.fill`: fills the object of one collection.
* `Document.ofBytes`: the value of a document given as bytes.
-/

namespace BootConfig.Yaml

/-- What happens when a mapping binds one key twice. -/
inductive KeyPolicy where
  /-- The document is refused. -/
  | unique
  /-- The last entry wins. -/
  | overriding
deriving DecidableEq, Inhabited

/-- Objects under construction. An object has the number of its node. -/
structure Builder where
  nodes : Merge.Nodes
  /-- The objects made so far. -/
  objects : Array (Option Cell)
  /-- Collections that are met but not filled, in the order in which they were met. -/
  waiting : List NodeId
deriving Inhabited

namespace Builder

def ofNodes (nodes : Merge.Nodes) : Builder :=
  ⟨nodes, Array.replicate nodes.size none, []⟩

def node (b : Builder) (id : NodeId) : Node := Merge.nodeAt b.nodes id

def object? (b : Builder) (id : NodeId) : Option Cell := (b.objects.getD id none)

def setObject (b : Builder) (id : NodeId) (c : Cell) : Builder :=
  { b with objects := b.objects.setIfInBounds id (some c) }

/-- A collection is met: its object is made and waits to be filled. -/
def await (b : Builder) (id : NodeId) (c : Cell) : Builder :=
  { b.setObject id c with waiting := b.waiting ++ [id] }

def plainProblem (b : Builder) (id : NodeId) (p : Problem) : Failure :=
  .refused (.constructive (.plain p (b.node id).start))

/-- The failure that something in a node is wrong while an enclosing node is built. -/
def problemIn (b : Builder) (context : Context) (outer : NodeId) (p : Problem) (inner : NodeId) :
    Failure :=
  .refused (.constructive (.during context (b.node outer).start p (b.node inner).start))

/-- The text of a scalar. A mapping with the key `=` stands for the scalar that is the value of this
key. -/
def scalarText (b : Builder) : Nat → NodeId → Except Failure Text
  | 0, _ => .error (.fault .endless)
  | fuel + 1, id =>
    match (b.node id).content with
    | .scalar text => .ok text
    | .mapping entries =>
      match entries.find? fun e => (b.node e.1).tag == Tag.value with
      | some e => scalarText b fuel e.2
      | none => .error (b.plainProblem id (.notA .scalar .mapping))
    | .sequence _ => .error (b.plainProblem id (.notA .scalar .sequence))

def scalar (b : Builder) (id : NodeId) (read : Text → Except Failure Scalar) :
    Except Failure Builder := do
  let text ← b.scalarText (b.nodes.size + 1) id
  return b.setObject id (.scalar (← read text))

/-- A timestamp has to be the node's own text. -/
def timestamp (b : Builder) (id : NodeId) : Except Failure Builder :=
  b.scalar id fun text =>
    match (b.node id).content with
    | .scalar _ => ScalarValue.timestamp text
    | _ => .error (.fault .timestampOfMapping)

/-- Makes the object of a node, unless there is one. -/
def construct (b : Builder) (id : NodeId) : Except Failure Builder :=
  if (b.object? id).isSome then .ok b
  else
    let n := b.node id
    if n.tag == Tag.str then b.scalar id fun text => .ok (.text text)
    else if n.tag == Tag.map then .ok (b.await id (.map []))
    else if n.tag == Tag.seq then .ok (b.await id (.list []))
    else if n.tag == Tag.null then b.scalar id fun _ => .ok .null
    else if n.tag == Tag.bool then b.scalar id ScalarValue.bool
    else if n.tag == Tag.int then b.scalar id ScalarValue.int
    else if n.tag == Tag.float then b.scalar id (ScalarValue.double (id + 1))
    else if n.tag == Tag.binary then b.scalar id fun text => ScalarValue.binary text n.start
    else if n.tag == Tag.timestamp then b.timestamp id
    else if n.tag == Tag.set then .ok (b.await id (.set []))
    else if n.tag == Tag.orderedMap || n.tag == Tag.pairs then .ok (b.await id (.pairs []))
    else .error (b.plainProblem id (.unknownTag n.tag))

/-- Makes the objects of several nodes, in order. -/
def constructAll (b : Builder) (ids : List NodeId) : Except Failure Builder :=
  ids.foldlM construct b

/-- The scalar that a node's object is, if it can be a key. -/
def key? (b : Builder) (id : NodeId) : Option Scalar :=
  match b.object? id with
  | some (.scalar s) => some s
  | _ => none

def isSet (b : Builder) (id : NodeId) : Bool :=
  match b.object? id with
  | some (.set _) => true
  | _ => false

/-- Refuses a mapping that binds one key twice. A set is no key at all; other objects that can be no
keys are left to the binding. -/
def checkUnique (id : NodeId) : Builder → List Scalar → List (NodeId × NodeId) →
    Except Failure Builder
  | b, _, [] => .ok b
  | b, seen, (key, _) :: rest =>
    if Merge.isMergeKey b.nodes key then checkUnique id b seen rest
    else do
      let b ← b.construct key
      match b.key? key with
      | none => if b.isSet key then throw (.fault .setAsKey) else checkUnique id b seen rest
      | some s =>
        if seen.any (Scalar.sameKey s) then
          match s.quoted? with
          | some quoted => throw (b.problemIn .mapping id (.duplicateKey quoted) key)
          | none => throw (.fault .unquotableKey)
        else checkUnique id b (s :: seen) rest

/-- Binds a key; of equal keys the first one stays. -/
def bind (entries : List (Scalar × CellId)) (key : Scalar) (value : CellId) :
    List (Scalar × CellId) :=
  match entries with
  | [] => [(key, value)]
  | e :: rest => if e.1.sameKey key then (e.1, value) :: rest else e :: bind rest key value

/-- Binds the entries of a mapping in order. -/
def bindAll (id : NodeId) : Builder → List (Scalar × CellId) → List (NodeId × NodeId) →
    Except Failure (Builder × List (Scalar × CellId))
  | b, bound, [] => .ok (b, bound)
  | b, bound, (key, value) :: rest => do
    let b ← b.construct key
    match b.key? key with
    | none => throw (b.problemIn .mapping id .unhashableKey key)
    | some s =>
      let b ← b.construct value
      bindAll id b (bind bound s value) rest

/-- The entries of a mapping. -/
def mapping (policy : KeyPolicy) (b : Builder) (id : NodeId) :
    Except Failure (Builder × List (Scalar × CellId)) := do
  match (b.node id).content with
  | .mapping entries =>
    let b ← match policy with
      | .unique => checkUnique id b [] entries
      | .overriding => pure b
    let nodes ← Merge.flatten b.nodes id
    bindAll id { b with nodes := nodes } [] (Merge.entriesOf nodes id)
  | other => throw (b.plainProblem id (.notA .mapping other.kind))

/-- The items of a sequence. -/
def sequence (b : Builder) (id : NodeId) : Except Failure (Builder × List CellId) :=
  match (b.node id).content with
  | .sequence items => do return (← b.constructAll items, items)
  | other => .error (b.plainProblem id (.notA .sequence other.kind))

/-- A sequence of mappings with one entry each. -/
def pairList (context : Context) (b : Builder) (id : NodeId) :
    Except Failure (Builder × List (CellId × CellId)) :=
  match (b.node id).content with
  | .sequence items =>
    items.foldlM (fun (b, pairs) item =>
      match (b.node item).content with
      | .mapping [(key, value)] => do
        return (← b.constructAll [key, value], pairs ++ [(key, value)])
      | .mapping entries =>
        .error (b.problemIn context id (.expectedSingleItem entries.length) item)
      | other => .error (b.problemIn context id (.expectedSingleMapping other.kind) item))
      (b, [])
  | other => .error (b.problemIn context id (.expectedSequence other.kind) id)

/-- Fills the object of a collection. -/
def fill (policy : KeyPolicy) (b : Builder) (id : NodeId) : Except Failure Builder := do
  let tag := (b.node id).tag
  if tag == Tag.seq then
    let (b, items) ← b.sequence id
    return b.setObject id (.list items)
  else if tag == Tag.map then
    let (b, entries) ← mapping policy b id
    return b.setObject id (.map entries)
  else if tag == Tag.set then
    let (b, entries) ← mapping policy b id
    return b.setObject id (.set (entries.map Prod.fst))
  else
    let (b, pairs) ← b.pairList (if tag == Tag.pairs then .pairs else .orderedMap) id
    return b.setObject id (.pairs pairs)

/-- Fills collections until none waits. Each is filled once, so that there are no more steps than
nodes. -/
def fillAll (policy : KeyPolicy) : Nat → Builder → Except Failure Builder
  | 0, b => .ok b
  | fuel + 1, b =>
    match b.waiting with
    | [] => .ok b
    | id :: rest => do
      fillAll policy fuel (← fill policy { b with waiting := rest } id)

end Builder

namespace Document

def ofNodes (policy : KeyPolicy) (g : NodeGraph) : Except Failure Graph := do
  let b ← (Builder.ofNodes g.nodes).construct g.root
  let b ← b.fillAll policy g.nodes.size
  return ⟨b.objects.map fun o => o.getD (.scalar .null), g.root⟩

/-- The value of a document's characters; an empty document is null. -/
def ofChars (policy : KeyPolicy) (cs : List Char) : Except Failure Value := do
  match ← NodeGraph.ofParsed (Parsed.ofLexed (Lexed.ofChars cs)) with
  | none => return .null
  | some g =>
    let graph ← ofNodes policy g
    return .ofCell graph graph.root

/-- The value of a document given as bytes. -/
def ofBytes (policy : KeyPolicy) (bs : Bytes) : Except Failure Value :=
  match Source.ofBytes bs with
  | .ok cs => ofChars policy cs
  | .error e => .error (.refused e)

/-- The value of a document given as text. -/
def ofText (policy : KeyPolicy) (t : Text) : Except Failure Value :=
  match Source.ofText t with
  | .ok cs => ofChars policy cs
  | .error e => .error (.refused e)

end Document

end BootConfig.Yaml
