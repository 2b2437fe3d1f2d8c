import BootConfig.Data.Scalar

/-!
# Value graphs

The value of a document is a rooted graph: an alias makes two places hold one object, and an object
may hold itself. Cells are numbered; a cell holds a scalar, or the numbers of its parts.
-/

namespace BootConfig

abbrev CellId := Nat

/-- An object of a graph. -/
inductive Cell where
  | scalar (s : Scalar)
  | list (items : List CellId)
  /-- A list of pairs. -/
  | pairs (items : List (CellId × CellId))
  | set (members : List Scalar)
  /-- Keys with their values, in the order in which the keys were first bound. -/
  | map (entries : List (Scalar × CellId))
deriving DecidableEq, Inhabited

/-- A graph with the number of its root. -/
structure Graph where
  cells : Array Cell
  root : CellId
deriving DecidableEq, Inhabited

namespace Graph

/-- The cell with a number; numbers without a cell hold null. -/
def cell (g : Graph) (id : CellId) : Cell := g.cells.getD id (.scalar .null)

/-- The same graph seen from another cell. -/
def focus (g : Graph) (id : CellId) : Graph := { g with root := id }

end Graph

end BootConfig
