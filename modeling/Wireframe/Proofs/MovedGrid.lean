import Mathlib.Logic.Equiv.Basic
import Wireframe.Proofs.CellSymmetry
/-!
# Grids under symmetries

A symmetry of the lattice moves the points of a grid and its cells, both by
one rule: the coordinate along an axis becomes that along the moved axis,
counted from the other end if the axis is reversed. The corners of a cell move
to the corners of the moved cell. So the scan of the moved grid finds there
the flag of the cell, with its faces and edges moved along.
-/

namespace Wireframe

/-! ## Positions by axes -/

namespace GridPos

/-- The coordinate of a position along an axis. -/
def coord (p : GridPos) : Axis → Nat
  | .x => p.x
  | .y => p.y
  | .z => p.z

/-- The position with the given coordinates. -/
def ofCoords (coords : Axis → Nat) : GridPos := ⟨coords .x, coords .y, coords .z⟩

@[simp]
theorem coord_ofCoords (coords : Axis → Nat) (a : Axis) : (ofCoords coords).coord a = coords a := by
  cases a <;> rfl

theorem ext_coord {p q : GridPos} (h : ∀ a, p.coord a = q.coord a) : p = q := by
  cases p
  cases q
  rw [mk.injEq]
  exact ⟨h .x, h .y, h .z⟩

@[simp]
theorem coord_corner (p : GridPos) (c : Corner) (a : Axis) :
    (p.corner c).coord a = p.coord a + (c.upper a).toNat := by
  have htable : ∀ c : Corner, c.offset = ((c.upper .x).toNat, (c.upper .y).toNat, (c.upper .z).toNat) := by decide
  cases a <;> simp only [corner, coord, htable]

end GridPos

namespace Dims

/-- The extent along an axis. -/
def extent (d : Dims) : Axis → Nat
  | .x => d.nx
  | .y => d.ny
  | .z => d.nz

/-- The dimensions with the given extents. -/
def ofExtents (extents : Axis → Nat) : Dims := ⟨extents .x, extents .y, extents .z⟩

variable {d d' : Dims} {p : GridPos}

@[simp]
theorem extent_ofExtents (extents : Axis → Nat) (a : Axis) : (ofExtents extents).extent a = extents a := by
  cases a <;> rfl

theorem ext_extent (h : ∀ a, d.extent a = d'.extent a) : d = d' := by
  cases d
  cases d'
  rw [mk.injEq]
  exact ⟨h .x, h .y, h .z⟩

theorem has_iff : d.Has p ↔ ∀ a, p.coord a < d.extent a :=
  ⟨fun h a => by cases a <;> simp only [GridPos.coord, extent, h.1, h.2.1, h.2.2], fun h => ⟨h .x, h .y, h .z⟩⟩

end Dims

/-! ## Moving positions -/

namespace Symmetry

/-- The dimensions with the axes moved. -/
def dims (s : Symmetry) (d : Dims) : Dims := .ofExtents fun a => d.extent (s.axes.symm a)

/-- The coordinate along an axis of some extent, counted from the other end if
the axis is reversed. -/
def coord (s : Symmetry) (d : Dims) (p : GridPos) (a : Axis) : Nat :=
  if s.reverses a then d.extent a - 1 - p.coord a else p.coord a

/-- Where a position moves to within dimensions that move along. -/
def move (s : Symmetry) (d : Dims) (p : GridPos) : GridPos := .ofCoords fun a => s.coord d p (s.axes.symm a)

variable {s : Symmetry} {d : Dims} {p : GridPos} {a : Axis}

@[simp]
theorem extent_dims : (s.dims d).extent (s.axes a) = d.extent a := by
  rw [dims, Dims.extent_ofExtents, Equiv.symm_apply_apply]

@[simp]
theorem coord_move : (s.move d p).coord (s.axes a) = s.coord d p a := by
  rw [move, GridPos.coord_ofCoords, Equiv.symm_apply_apply]

theorem has_move (h : d.Has p) : (s.dims d).Has (s.move d p) := by
  rw [Dims.has_iff] at h ⊢
  intro b
  obtain ⟨a, rfl⟩ := s.axes.surjective b
  have ha := h a
  rw [coord_move, extent_dims, coord]
  split <;> omega

/-- A moved position moves back. -/
theorem symm_move (h : d.Has p) : s.symm.move (s.dims d) (s.move d p) = p := by
  refine GridPos.ext_coord fun a => ?_
  have ha := Dims.has_iff.1 h a
  have hrev : s.symm.reverses (s.axes a) = s.reverses a := by simp [symm]
  have hcoord : (s.symm.move (s.dims d) (s.move d p)).coord a = s.symm.coord (s.dims d) (s.move d p) (s.axes a) :=
    GridPos.coord_ofCoords _ a
  rw [hcoord, coord, hrev, extent_dims, coord_move, coord]
  split <;> omega

end Symmetry

/-! ## Moving grids -/

namespace LabelGrid

variable {g : LabelGrid} {s : Symmetry} {p : GridPos}

/-- The grid with its dimensions and labels moved: a point has the label of
the point that moves there. -/
def moved (g : LabelGrid) (s : Symmetry) : LabelGrid where
  dims := s.dims g.dims
  labels := .ofFn fun i : Fin (s.dims g.dims).volume =>
    (g.labelAt? (s.symm.move (s.dims g.dims) ((s.dims g.dims).position i))).getD 0
  size_labels := Array.size_ofFn

/-- A label moves with its point. -/
theorem labelAt?_moved (h : g.IsPoint p) : (g.moved s).labelAt? (s.move g.dims p) = g.labelAt? p := by
  have hpoint : (g.moved s).dims.Has (s.move g.dims p) := Symmetry.has_move h
  obtain ⟨l, hl⟩ := Option.isSome_iff_exists.1 (isSome_labelAt? h)
  have hlt : (g.moved s).dims.number (s.move g.dims p) < (g.moved s).labels.size := by
    rw [size_labels]
    exact Dims.number_lt hpoint
  rw [labelAt?_of_isPoint hpoint, Array.getElem?_eq_getElem hlt, hl]
  simp only [moved, Array.getElem_ofFn, Dims.position_number (Symmetry.has_move h), Symmetry.symm_move h, hl,
    Option.getD_some]

theorem extent_cellDims (g : LabelGrid) (a : Axis) : g.cellDims.extent a = g.dims.extent a - 1 := by
  cases a <;> rfl

theorem cellDims_moved : (g.moved s).cellDims = s.dims g.cellDims := by
  refine Dims.ext_extent fun b => ?_
  obtain ⟨a, rfl⟩ := s.axes.surjective b
  rw [extent_cellDims, Symmetry.extent_dims, extent_cellDims]
  exact congrArg (· - 1) Symmetry.extent_dims

theorem isCell_moved (h : g.IsCell p) : (g.moved s).IsCell (s.move g.cellDims p) := by
  have hmove : (s.dims g.cellDims).Has (s.move g.cellDims p) := Symmetry.has_move h
  rw [← cellDims_moved] at hmove
  exact hmove

/-- The corners of a cell move to the corners of the moved cell. -/
theorem move_corner (h : g.IsCell p) (c : Corner) :
    s.move g.dims (p.corner c) = (s.move g.cellDims p).corner (s.corner c) := by
  refine GridPos.ext_coord fun b => ?_
  obtain ⟨a, rfl⟩ := s.axes.surjective b
  have ha : p.coord a < g.cellDims.extent a := Dims.has_iff.1 h a
  rw [extent_cellDims] at ha
  rw [GridPos.coord_corner, Symmetry.coord_move, Symmetry.coord_move, Symmetry.upper_corner, Symmetry.coord,
    Symmetry.coord, extent_cellDims, GridPos.coord_corner]
  cases c.upper a <;> cases s.reverses a <;> simp <;> omega

/-- The scan respects the symmetries of the lattice: the flag of a moved cell
is that of the cell, moved along. The label of every point, the corners of the
cell, its faces and its edges move together. -/
theorem moved_flag (g : LabelGrid) (s : Symmetry) (p : GridPos) (h : g.IsCell p) :
    (g.moved s).dims = s.dims g.dims ∧
      (∀ q, g.IsPoint q → (g.moved s).IsPoint (s.move g.dims q) ∧
        (g.moved s).labelAt? (s.move g.dims q) = g.labelAt? q) ∧
      (g.moved s).IsCell (s.move g.cellDims p) ∧
      (∀ c, s.move g.dims (p.corner c) = (s.move g.cellDims p).corner (s.corner c)) ∧
      (∀ f c, s.corner c ∈ (s.face f).corners.toList ↔ c ∈ f.corners.toList) ∧
      (∀ e c d, e.Joins c d → (s.edge e).Joins (s.corner c) (s.corner d)) ∧
      ∃ old new, g.cellFlags[g.number p]? = some old ∧
        (g.moved s).cellFlags[(g.moved s).number (s.move g.cellDims p)]? = some new ∧ old.MovesTo s new := by
  have hcell : (g.moved s).IsCell (s.move g.cellDims p) := isCell_moved h
  obtain ⟨labels, hold, hlabels⟩ := exists_flag h
  obtain ⟨moved, hnew, hmoved⟩ := exists_flag hcell
  have hmove : ∀ c, moved (s.corner c) = labels c := by
    intro c
    apply Option.some.inj
    rw [← hlabels, ← hmoved, ← move_corner h, labelAt?_moved (h.corner c)]
  exact ⟨rfl, fun q hq => ⟨Symmetry.has_move hq, labelAt?_moved hq⟩, hcell, move_corner h,
    fun f c => Symmetry.corner_mem_face, fun e c d => Symmetry.joins_edge,
    .ofLabels labels, .ofLabels moved, hold, hnew, CellFlag.movesTo_ofLabels hmove⟩

/-- A quarter turn around the third axis. -/
def quarterTurn : Symmetry := ⟨Equiv.swap .x .y, fun a => a = .y⟩

theorem moved_flag_checkered : checkered.IsCell ⟨0, 0, 0⟩ ∧
    ∃ old new, checkered.cellFlags[0]? = some old ∧ (checkered.moved quarterTurn).cellFlags[1]? = some new ∧
      old.face .front = .junction ∧ new.face .left = .junction ∧ old.MovesTo quarterTurn new := by
  have hc : checkered.IsCell ⟨0, 0, 0⟩ := by decide
  obtain ⟨-, -, -, -, -, -, old, new, hold, hnew, hmoves⟩ := moved_flag checkered quarterTurn ⟨0, 0, 0⟩ hc
  have hj : checkered.cellFlags[0]?.map (·.face .front) = some .junction := by decide +kernel
  have hfront : old.face .front = .junction := Option.some.inj ((congrArg _ hold).symm.trans hj)
  exact ⟨hc, old, new, hold, hnew, hfront, (hmoves.face .front).trans hfront, hmoves⟩

end LabelGrid

end Wireframe
