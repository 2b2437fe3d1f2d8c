import BootConfig.Data.Objects
import BootConfig.Yaml.Document

/-!
# Merging objects

How a document is laid over settings, object by object: the lower mapping is copied, and the entries
of the upper one are bound in the copy, one after the other. Where both bind a key to a mapping
these are merged first, and any other value of the upper mapping is copied. Neither of the two is
changed.

* `Objects.mergeValue`: what becomes of one entry of the upper mapping.
* `Objects.merge`: merges one mapping into a copy of the other.
-/

namespace BootConfig.Objects

/-- Binds a key of a mapping; nothing if the object is no mapping. -/
def bind? (h : Objects) (id : CellId) (key : Scalar) (value : CellId) : Option Objects :=
  (h.entries? id).map fun es => h.setIfInBounds id (.map (Yaml.Builder.bind es key value))

/-- The mapping that a mapping binds to a key. -/
def mappingUnder? (h : Objects) (id : CellId) (key : Scalar) : Option CellId :=
  (h.child? id key).filter fun value => (h.entries? value).isSome

/-- What becomes of an entry of the upper mapping in the merged one. -/
def mergeValue (mergeMappings : Objects → CellId → CellId → Option (Objects × CellId))
    (merged : CellId) (h : Objects) (e : Scalar × CellId) : Option (Objects × CellId) :=
  match h.mappingUnder? merged e.1, h.entries? e.2 with
  | some lower, some _ => mergeMappings h lower e.2
  | _, _ => h.copy e.2

/-- Binds what becomes of an entry of the upper mapping in the merged one. -/
def mergeEntry (mergeMappings : Objects → CellId → CellId → Option (Objects × CellId))
    (merged : CellId) (h : Objects) (e : Scalar × CellId) : Option Objects := do
  let (h, value) ← mergeValue mergeMappings merged h e
  h.bind? merged e.1 value

/-- Merges two mappings: all objects afterwards, and the new mapping. Nothing if merges would have
to be nested deeper than `depth`, or if one of the two is no mapping. -/
def merge : Nat → Objects → CellId → CellId → Option (Objects × CellId)
  | 0, _, _, _ => none
  | depth + 1, h, lower, upper => do
    let (h, merged) ← h.copy lower
    let entries ← h.entries? upper
    let h ← entries.foldlM (mergeEntry (merge depth) merged) h
    return (h, merged)

end BootConfig.Objects
