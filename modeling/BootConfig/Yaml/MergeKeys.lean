import BootConfig.Yaml.Node

/-!
# Merge keys

An entry whose key is a merge key stands for the entries of the mapping that is its value, or of
several mappings in a list. `Merge.flatten` puts these in place of it, before the mapping's own
entries; of several mappings the first one comes last, so that it wins when entries are bound in
order. The mappings that are merged are flattened first and stay so.
-/

namespace BootConfig.Yaml.Merge

/-- The nodes of a document. -/
abbrev Nodes := Array Node

def nodeAt (nodes : Nodes) (id : NodeId) : Node := nodes.getD id default

/-- The entries of a mapping. -/
def entriesOf (nodes : Nodes) (id : NodeId) : List (NodeId × NodeId) :=
  match (nodeAt nodes id).content with
  | .mapping entries => entries
  | _ => []

def setEntries (nodes : Nodes) (id : NodeId) (entries : List (NodeId × NodeId)) : Nodes :=
  nodes.modify id fun n => { n with content := .mapping entries }

def isMergeKey (nodes : Nodes) (key : NodeId) : Bool := (nodeAt nodes key).tag == Tag.merge

/-- A key that is a lone equals sign is a string from now on. -/
def retagKey (nodes : Nodes) (key : NodeId) : Nodes :=
  if (nodeAt nodes key).tag == Tag.value then
    nodes.modify key fun n => { n with tag := Tag.str }
  else nodes

def problem (nodes : Nodes) (id : NodeId) (p : Problem) (at_ : NodeId) : Failure :=
  .refused (.constructive
    (.during .mapping (nodeAt nodes id).start p (nodeAt nodes at_).start))

/-- Flattens the entries of a mapping from one position on. `merged` are the entries that merge keys
before it stand for. Each step removes one merge key, so that there are no more steps than merge
keys. -/
def flattenFrom : Nat → Nodes → NodeId → Nat → List (NodeId × NodeId) → Except Failure Nodes
  | fuel, nodes, id, position, merged =>
    let entries := entriesOf nodes id
    let plain := (entries.drop position).takeWhile fun e => !isMergeKey nodes e.1
    let nodes := plain.foldl (fun nodes e => retagKey nodes e.1) nodes
    let position := position + plain.length
    match entries.drop position, fuel with
    | [], _ | _, 0 =>
      .ok (if merged.isEmpty then nodes else setEntries nodes id (merged ++ entriesOf nodes id))
    | (_, source) :: rest, fuel + 1 => do
      let nodes := setEntries nodes id (entries.take position ++ rest)
      let sourceNode := nodeAt nodes source
      match sourceNode.content with
      | .mapping _ =>
        let nodes ← flattenFrom fuel nodes source 0 []
        flattenFrom fuel nodes id position (merged ++ entriesOf nodes source)
      | .sequence items =>
        let (nodes, parts) ← items.foldlM (fun (nodes, parts) item => do
          match (nodeAt nodes item).content with
          | .mapping _ =>
            let nodes ← flattenFrom fuel nodes item 0 []
            return (nodes, entriesOf nodes item :: parts)
          | other => throw (problem nodes id (.mergeOfNonMapping other.kind) item))
          (nodes, ([] : List (List (NodeId × NodeId))))
        flattenFrom fuel nodes id position (merged ++ parts.flatten)
      | .scalar _ => throw (problem nodes id (.mergeOfScalar .scalar) source)

def mergeKeyCount (nodes : Nodes) : Nat :=
  (nodes.toList.flatMap fun n =>
    match n.content with
    | .mapping entries => entries.filter fun e => isMergeKey nodes e.1
    | _ => []).length

/-- Puts merged entries in place of the merge keys of a mapping. -/
def flatten (nodes : Nodes) (id : NodeId) : Except Failure Nodes :=
  flattenFrom (mergeKeyCount nodes) nodes id 0 []

end BootConfig.Yaml.Merge
