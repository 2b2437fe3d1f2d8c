import BootConfig.Data.Graph

/-!
# Values

What settings hold and documents describe: scalars, lists, pairs, sets and mappings. A value is a
tree, whose subtrees may be graphs: a part taken over from a document keeps its sharing and its
cycles.

* `Value.view`: what a value is, with its direct parts; a graph is unfolded by one step.
* `Entries`: the entries of a mapping, in insertion order.
-/

namespace BootConfig

inductive Value where
  | scalar (s : Scalar)
  | list (items : List Value)
  | pair (first second : Value)
  | set (members : List Scalar)
  | map (entries : List (Scalar × Value))
  | graph (g : Graph)
deriving Inhabited

/-- A value and its direct parts. -/
inductive Value.View where
  | scalar (s : Scalar)
  | list (items : List Value)
  | pair (first second : Value)
  | set (members : List Scalar)
  | map (entries : List (Scalar × Value))
deriving Inhabited

/-- The entries of a mapping, in insertion order. -/
abbrev Entries := List (Scalar × Value)

namespace Value

/-- The part of a graph that a cell is: scalars are taken out of the graph. -/
def ofCell (g : Graph) (id : CellId) : Value :=
  match g.cell id with
  | .scalar s => .scalar s
  | _ => .graph (g.focus id)

/-- What a graph is at its root, with its direct parts. -/
def viewGraph (g : Graph) : View :=
  match g.cell g.root with
  | .scalar s => .scalar s
  | .list items => .list (items.map (ofCell g))
  | .pairs items => .list (items.map fun p => .pair (ofCell g p.1) (ofCell g p.2))
  | .set members => .set members
  | .map entries => .map (entries.map fun e => (e.1, ofCell g e.2))

/-- What a value is, with its direct parts. -/
def view : Value → View
  | .scalar s => .scalar s
  | .list items => .list items
  | .pair a b => .pair a b
  | .set members => .set members
  | .map entries => .map entries
  | .graph g => viewGraph g

def null : Value := .scalar .null
def bool (b : Bool) : Value := .scalar (.bool b)
def int (n : Int) : Value := .scalar (.int n)
def text (t : Text) : Value := .scalar (.text t)
def string (s : String) : Value := .scalar (.text (Text.ofString s))

/-- The entries of a value that is a mapping. -/
def entries? (v : Value) : Option Entries :=
  match v.view with
  | .map entries => some entries
  | _ => none

/-- What kind of value it is, in the words of the messages. -/
def kindName (v : Value) : String :=
  match v.view with
  | .scalar .null => "NoneType"
  | .scalar (.bool _) => "bool"
  | .scalar (.int _) => "int"
  | .scalar (.double _) => "float"
  | .scalar (.text _) => "str"
  | .scalar (.bytes _) => "bytes"
  | .scalar (.date _) => "date"
  | .scalar (.stamp _) => "datetime"
  | .list _ => "list"
  | .pair _ _ => "tuple"
  | .set _ => "set"
  | .map _ => "dict"

end Value

namespace Entries

def get? (es : Entries) (key : Scalar) : Option Value :=
  (es.find? fun e => e.1.sameKey key).map Prod.snd

/-- Binds a key: an entry with this key keeps its place and its key, else one is added at the
end. -/
def put (es : Entries) (key : Scalar) (v : Value) : Entries :=
  match es with
  | [] => [(key, v)]
  | e :: rest => if e.1.sameKey key then (e.1, v) :: rest else e :: put rest key v

/-- The mapping that binding keys one after the other makes. -/
def ofList (es : Entries) : Entries := es.foldl (fun m e => m.put e.1 e.2) []

/-- The entries of `upper` whose keys are not bound in `base`. -/
def unbound (base upper : Entries) : Entries :=
  upper.filter fun e => !base.any fun b => b.1.sameKey e.1

end Entries

/-! ## Unfolding -/

namespace Graph

/-- The tree below a cell, if no path from it is longer than `fuel`. -/
def treeFrom (g : Graph) : Nat → CellId → Option Value
  | 0, _ => none
  | fuel + 1, id =>
    match g.cell id with
    | .scalar s => some (.scalar s)
    | .list items => (items.mapM (g.treeFrom fuel)).map .list
    | .pairs items =>
      (items.mapM fun (p : CellId × CellId) => do
        let a ← g.treeFrom fuel p.1
        let b ← g.treeFrom fuel p.2
        return Value.pair a b).map .list
    | .set members => some (.set members)
    | .map entries =>
      (entries.mapM fun (e : Scalar × CellId) => (g.treeFrom fuel e.2).map fun v => (e.1, v)).map .map

/-- The tree that a graph unfolds to; nothing if it contains a cycle. -/
def tree? (g : Graph) : Option Value := g.treeFrom (g.cells.size + 1) g.root

end Graph

mutual

/-- The value with every graph in it unfolded; nothing if one contains a cycle. -/
def Value.tree? : Value → Option Value
  | .scalar s => some (.scalar s)
  | .list items => (treeItems items).map .list
  | .pair a b => match a.tree?, b.tree? with
    | some a, some b => some (.pair a b)
    | _, _ => none
  | .set members => some (.set members)
  | .map entries => (treeEntries entries).map .map
  | .graph g => g.tree?

def treeItems : List Value → Option (List Value)
  | [] => some []
  | v :: vs => match v.tree?, treeItems vs with
    | some v, some vs => some (v :: vs)
    | _, _ => none

def treeEntries : List (Scalar × Value) → Option (List (Scalar × Value))
  | [] => some []
  | (key, v) :: es => match v.tree?, treeEntries es with
    | some v, some es => some ((key, v) :: es)
    | _, _ => none

end

end BootConfig
