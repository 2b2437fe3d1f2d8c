import BootConfig.Yaml.Event
import BootConfig.Yaml.Tag

/-!
# Nodes

The graph of nodes that a document describes: every node has a tag and a content, and collections
refer to their parts by number. An alias is the number of the node it stands for, so that a node may
occur in several places and inside itself.

* `NodeGraph.ofParsed`: the graph of a document's events.
-/

namespace BootConfig.Yaml

abbrev NodeId := Nat

inductive NodeContent where
  | scalar (text : Text)
  | sequence (items : List NodeId)
  | mapping (entries : List (NodeId × NodeId))
deriving DecidableEq, Inhabited

structure Node where
  tag : String
  content : NodeContent
  start : Mark
deriving DecidableEq, Inhabited

def NodeContent.kind : NodeContent → NodeKind
  | .scalar _ => .scalar
  | .sequence _ => .sequence
  | .mapping _ => .mapping

def Node.kind (n : Node) : NodeKind := n.content.kind

/-- The nodes of a document and the number of its root. -/
structure NodeGraph where
  nodes : Array Node
  root : NodeId
deriving DecidableEq, Inhabited

namespace NodeGraph

/-- The node with a number; numbers without a node have an empty scalar. -/
def node (g : NodeGraph) (id : NodeId) : Node :=
  g.nodes.getD id ⟨Tag.str, .scalar Text.empty, ⟨0, 0⟩⟩

end NodeGraph

/-- A collection whose parts are being read. -/
structure OpenNode where
  id : NodeId
  /-- The parts so far, in reverse order; keys and values of a mapping alternate. -/
  parts : List NodeId
  isMapping : Bool
deriving Inhabited

/-- A node graph under construction. -/
structure Composer where
  nodes : Array Node
  /-- The nodes that anchors name. -/
  anchors : List (String × NodeId)
  /-- The collections being read, innermost first. -/
  opened : List OpenNode
  /-- The root, once it is read. -/
  root : Option NodeId
  /-- Whether the document has ended. -/
  ended : Bool
deriving Inhabited

namespace Composer

def empty : Composer := ⟨#[], [], [], none, false⟩

/-- The keys and values of a mapping whose parts alternate. -/
def entriesOf : List NodeId → List (NodeId × NodeId)
  | key :: value :: rest => (key, value) :: entriesOf rest
  | _ => []

/-- Adds a complete node to the innermost open collection, or makes it the root. -/
def attach (c : Composer) (id : NodeId) : Composer :=
  match c.opened with
  | [] => { c with root := some id }
  | o :: rest => { c with opened := { o with parts := id :: o.parts } :: rest }

def startOf (c : Composer) (id : NodeId) : Mark := (c.nodes.getD id default).start

def add (c : Composer) (n : Node) (anchor : Option String) : Composer × NodeId :=
  let id := c.nodes.size
  let anchors := match anchor with
    | none => c.anchors
    | some name => (name, id) :: c.anchors
  ({ c with nodes := c.nodes.push n, anchors := anchors }, id)

/-- An anchor may be defined only once. -/
def checkAnchor (c : Composer) (anchor : Option String) (mark : Mark) : Except Failure Unit :=
  match anchor with
  | none => .ok ()
  | some name =>
    match c.anchors.lookup name with
    | none => .ok ()
    | some id => .error (.refused (.compositional
        (.during (.duplicateAnchor name) (c.startOf id) .secondOccurrence mark)))

/-- Starts a collection. -/
def openNode (c : Composer) (props : Properties) (mark : Mark) (isMapping : Bool) :
    Except Failure Composer := do
  c.checkAnchor props.anchor mark
  let tag := if props.isUntagged then (if isMapping then Tag.map else Tag.seq)
    else props.tag.getD Tag.str
  let content := if isMapping then NodeContent.mapping [] else .sequence []
  let (c, id) := c.add ⟨tag, content, mark⟩ props.anchor
  return { c with opened := ⟨id, [], isMapping⟩ :: c.opened }

/-- Ends the innermost collection. -/
def closeNode (c : Composer) : Composer :=
  match c.opened with
  | [] => c
  | o :: rest =>
    let parts := o.parts.reverse
    let content := if o.isMapping then NodeContent.mapping (entriesOf parts) else .sequence parts
    let nodes := c.nodes.modify o.id fun n => { n with content := content }
    { c with nodes := nodes, opened := rest }.attach o.id

/-- Takes an event in. After the end of the document only the end of the stream may follow. -/
def step (c : Composer) (e : Event) : Except Failure Composer :=
  match e.body with
  | .streamStart => .ok c
  | .streamEnd => .ok c
  | .documentStart =>
    if c.ended then
      .error (.refused (.compositional
        (.during .singleDocument (c.startOf (c.root.getD 0)) .anotherDocument e.start)))
    else .ok c
  | .documentEnd => .ok { c with ended := true }
  | .alias name =>
    match c.anchors.lookup name with
    | some id => .ok (c.attach id)
    | none => .error (.refused (.compositional (.plain (.undefinedAlias name) e.start)))
  | .scalar props resolvable text => do
    c.checkAnchor props.anchor e.start
    let tag := if props.isUntagged then (if resolvable then Tag.ofText text else Tag.str)
      else props.tag.getD Tag.str
    let (c, id) := c.add ⟨tag, .scalar text, e.start⟩ props.anchor
    return c.attach id
  | .sequenceStart props => c.openNode props e.start false
  | .mappingStart props => c.openNode props e.start true
  | .sequenceEnd | .mappingEnd => .ok c.closeNode

end Composer

/-- The node graph of a document's events; none for an empty document. -/
def NodeGraph.ofParsed (p : Parsed) : Except Failure (Option NodeGraph) := do
  let c ← p.events.foldlM Composer.step Composer.empty
  match p.failure with
  | some e => throw e
  | none => return c.root.map fun root => ⟨c.nodes, root⟩

end BootConfig.Yaml
