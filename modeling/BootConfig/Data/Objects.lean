import BootConfig.Data.Graph

/-!
# Objects

Settings and documents are held as objects in one store. An object has a number, by which others
hold it, so that it may be shared and may hold itself. Objects are added at the end and keep their
numbers.

* `Copying.visit`: copies an object and all that it holds, each object once.
* `Objects.copy`: a deep copy.
-/

namespace BootConfig

namespace Cell

/-- The objects that an object holds, in order. -/
def parts : Cell → List CellId
  | .scalar _ | .set _ => []
  | .list items => items
  | .pairs items => items.flatMap fun p => [p.1, p.2]
  | .map entries => entries.map Prod.snd

/-- The same with other objects in the places of the parts. -/
def rename (f : CellId → CellId) : Cell → Cell
  | .scalar s => .scalar s
  | .list items => .list (items.map f)
  | .pairs items => .pairs (items.map fun p => (f p.1, f p.2))
  | .set members => .set members
  | .map entries => .map (entries.map fun e => (e.1, f e.2))

/-- A collection of the same kind that is still empty. -/
def emptied : Cell → Cell
  | .scalar s => .scalar s
  | .list _ => .list []
  | .pairs _ => .pairs []
  | .set _ => .set []
  | .map _ => .map []

def isScalar : Cell → Bool
  | .scalar _ => true
  | _ => false

end Cell

/-- Objects by their numbers. -/
abbrev Objects := Array Cell

namespace Objects

/-- The object with a number; numbers without an object stand for null. -/
def cell (h : Objects) (id : CellId) : Cell := h.getD id (.scalar .null)

/-- The entries of an object that is a mapping. -/
def entries? (h : Objects) (id : CellId) : Option (List (Scalar × CellId)) :=
  match h.cell id with
  | .map entries => some entries
  | _ => none

/-- The object that a mapping binds to a key. -/
def child? (h : Objects) (id : CellId) (key : Scalar) : Option CellId :=
  (h.entries? id).bind fun es => (es.find? fun e => e.1.sameKey key).map Prod.snd

/-- The object at a path of keys. -/
def at? (h : Objects) (id : CellId) : List Scalar → Option CellId
  | [] => some id
  | key :: path => (h.child? id key).bind fun part => h.at? part path

end Objects

/-! ## Copies -/

/-- A copy that is being made. -/
structure Copying where
  objects : Objects
  /-- The objects that have been met, with their copies. -/
  copies : List (CellId × CellId)

namespace Copying

/-- What stands for an object in the copy. A scalar is never copied and stands for itself. -/
def copyOf (c : Copying) (id : CellId) : CellId := (c.copies.lookup id).getD id

def isDone (c : Copying) (id : CellId) : Bool :=
  (c.objects.cell id).isScalar || (c.copies.lookup id).isSome

/-- An object is met: its copy is made and filled later, so that what it holds may hold it. -/
def meet (c : Copying) (id : CellId) : Copying :=
  ⟨c.objects.push (c.objects.cell id).emptied, (id, c.objects.size) :: c.copies⟩

/-- The copy of an object gets what stands for its parts. -/
def fill (c : Copying) (id : CellId) : Copying :=
  { c with
    objects := c.objects.setIfInBounds (c.copyOf id) ((c.objects.cell id).rename c.copyOf) }

/-- Copies an object and what it holds, unless this is done already. Nothing if visits would have to
be nested deeper than `depth`. -/
def visit : Nat → Copying → CellId → Option Copying
  | 0, _, _ => none
  | depth + 1, c, id =>
    if c.isDone id then some c
    else do
      let filled ← (c.objects.cell id).parts.foldlM (visit depth) (c.meet id)
      return filled.fill id

end Copying

/-- A deep copy: an object and all that it holds, anew. Visits that are nested are of different
objects, so that there is a bound for their depth. -/
def Objects.copy (h : Objects) (id : CellId) : Option (Objects × CellId) :=
  (Copying.visit (h.size + 1) ⟨h, []⟩ id).map fun c => (c.objects, c.copyOf id)

end BootConfig
