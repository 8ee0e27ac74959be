import Wireframe.Cell.LabelGrid
import Wireframe.Count
/-!
# Scanning with checks

The scan of a grid as a program over counts of 64 bits. Every sum and every
product is checked to be a count, every divisor not to be zero and every label
to lie in the buffer. A step that does not pass its check is a fault and ends
the scan.

The cells are gone through by number or by position. No scan meets a fault,
and both find what `LabelGrid.cellFlags` lists.
-/

namespace Wireframe

namespace Checked

/-! ## Labels -/

/-- The label at a position, if there is a point. -/
def label (g : LabelGrid) (p : GridPos) : Except Fault (Option Int32) := do
  if p.x < g.dims.nx ∧ p.y < g.dims.ny ∧ p.z < g.dims.nz then
    let rows ← count (p.y + (← count (g.dims.ny * p.z)))
    let i ← count (p.x + (← count (g.dims.nx * rows)))
    match g.labels[i]? with
    | some l => return some l
    | none => throw .indexOutOfRange
  else return none

/-- The label at a corner of a cell, if there is a point. -/
def cornerLabel (g : LabelGrid) (p : GridPos) (c : Corner) : Except Fault (Option Int32) := do
  label g ⟨← count (p.x + c.offset.1), ← count (p.y + c.offset.2.1), ← count (p.z + c.offset.2.2)⟩

/-- The labels at some corners of a cell, one after the other up to the first
corner without a point. -/
def cornerLabels (g : LabelGrid) (p : GridPos) : List Corner → Except Fault (Option (List Int32))
  | [] => .ok (some [])
  | c :: rest => do
    match ← cornerLabel g p c with
    | none => return none
    | some l => return (← cornerLabels g p rest).map (l :: ·)

/-- The labels at all corners of a cell, if all of them are points. -/
def cellLabels (g : LabelGrid) (p : GridPos) : Except Fault (Option CornerLabels) := do
  return (← cornerLabels g p Corner.all).map fun ls c => ls.getD c 0

/-! ## Cells -/

/-- The number of cells, counted from the left. -/
def numCells (g : LabelGrid) : Except Fault Nat := g.cellDims.toList.foldlM (fun n d => count (n * d)) 1

/-- The position of the cell of a number. -/
def cellOfIndex (g : LabelGrid) (i : Nat) : Except Fault GridPos := do
  let x ← remainder i g.cellDims.nx
  let y ← remainder (← quotient i g.cellDims.nx) g.cellDims.ny
  let z ← quotient i (← count (g.cellDims.nx * g.cellDims.ny))
  return ⟨x, y, z⟩

/-- The flag of a cell. -/
def cellFlag (g : LabelGrid) (p : GridPos) : Except Fault CellFlag := do
  match ← cellLabels g p with
  | some labels => return .ofLabels labels
  | none => return .zero

/-- The flags of all cells by their numbers. -/
def scanByNumber (g : LabelGrid) : Except Fault (List CellFlag) := do
  (List.range (← numCells g)).mapM fun i => do cellFlag g (← cellOfIndex g i)

/-- The flags of all cells by their positions. -/
def scanByPosition (g : LabelGrid) : Except Fault (List CellFlag) := g.cells.mapM (cellFlag g)

end Checked

end Wireframe
