import Wireframe.Cell.Flag
import Wireframe.Error
/-!
# Labelled grids

A grid of labels is a box of points, kept in one list with the first axis
running fastest. Between every eight neighbouring points lies a cell, so there
is one cell less than points along each axis.

The flags of all cells are computed number by number; `cells` lists the cells
in the same order by their positions.
-/

namespace Wireframe

/-- A box of labelled points. -/
structure LabelGrid where
  dims : Dims
  labels : Array Int32
  size_labels : labels.size = dims.volume

/-- The position of a point, or of a cell by its lowest point. -/
structure GridPos where
  x : Nat
  y : Nat
  z : Nat
  deriving DecidableEq, Repr

theorem volume_of_count? {d : Dims} {n : Nat} (h : d.count? = some n) : d.volume = n := by
  simp only [Dims.count?, Dims.toList, List.foldlM_cons, List.foldlM_nil, mulCount?,
    Option.bind_eq_bind, Option.pure_def, Nat.one_mul] at h
  split at h
  · simp only [Option.bind_some] at h
    split at h
    · simp only [Option.bind_some] at h
      split at h
      · simpa [Dims.volume] using h
      · cases h
    · cases h
  · cases h

namespace LabelGrid

/-- The grid over a given buffer, which must have as many labels as the grid
has points by the count of 64 bits. Dimensions without a count are always
refused. -/
def ofLabels (dims : Dims) (labels : Array Int32) : Except Error LabelGrid :=
  match h : dims.count? with
  | some n =>
    if hn : labels.size = n then .ok ⟨dims, labels, hn.trans (volume_of_count? h).symm⟩
    else .error (.labelCountMismatch dims n labels.size)
  | none => .error (.labelCountMismatch dims maxCount labels.size)

/-- The label at a point. -/
def label? (g : LabelGrid) (x y z : Nat) : Option Int32 :=
  if x < g.dims.nx ∧ y < g.dims.ny ∧ z < g.dims.nz then
    g.labels[x + g.dims.nx * (y + g.dims.ny * z)]?
  else none

/-! ## Cells -/

/-- The number of cells along each axis. -/
def cellDims (g : LabelGrid) : Dims := ⟨g.dims.nx - 1, g.dims.ny - 1, g.dims.nz - 1⟩

/-- The number of cells. -/
def numCells (g : LabelGrid) : Nat := g.cellDims.volume

/-- The positions of all cells, the first axis running fastest. No position is
gone through where there is no cell. -/
def cells (g : LabelGrid) : List GridPos :=
  if g.numCells = 0 then []
  else (List.range g.cellDims.nz).flatMap fun z =>
    (List.range g.cellDims.ny).flatMap fun y =>
      (List.range g.cellDims.nx).map fun x => ⟨x, y, z⟩

/-- The labels at the corners of a cell, if all of them are points of the grid. -/
def cellLabels? (g : LabelGrid) (x y z : Nat) : Option CornerLabels :=
  let label := fun c : Corner => g.label? (x + c.offset.1) (y + c.offset.2.1) (z + c.offset.2.2)
  if Corner.all.all fun c => (label c).isSome then some fun c => (label c).getD 0 else none

/-- The flag of a cell. -/
def cellFlag (g : LabelGrid) (p : GridPos) : CellFlag :=
  match g.cellLabels? p.x p.y p.z with
  | some labels => .ofLabels labels
  | none => .zero

/-- The position of the cell of a number. -/
def cellOfIndex (g : LabelGrid) (i : Nat) : GridPos where
  x := i % g.cellDims.nx
  y := i / g.cellDims.nx % g.cellDims.ny
  z := i / (g.cellDims.nx * g.cellDims.ny)

/-- The flags of all cells, in the order of their numbers. -/
def cellFlags (g : LabelGrid) : List CellFlag :=
  (List.range g.numCells).map fun i => g.cellFlag (g.cellOfIndex i)

/-- The words of a list of flags. -/
def words (flags : List CellFlag) : List UInt32 := flags.map CellFlag.bits

end LabelGrid

end Wireframe
