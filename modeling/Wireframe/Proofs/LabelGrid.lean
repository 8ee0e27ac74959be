import Wireframe.Cell.LabelGrid
/-!
# The cells of a grid by number

A cell is a position with a point on every corner. The cells are numbered
without gaps, the first axis running fastest, and the scan by numbers finds at
each number the flag of its cell, whose corners all have labels.
-/

namespace Wireframe

/-- A pair of counters, the first running fastest, stays below the product of
their bounds. -/
theorem add_mul_lt_mul {i n k m : Nat} (hi : i < n) (hk : k < m) : i + n * k < n * m :=
  calc i + n * k < n + n * k := Nat.add_lt_add_right hi _
    _ = n * (k + 1) := by rw [Nat.mul_succ, Nat.add_comm]
    _ ≤ n * m := Nat.mul_le_mul_left n hk

/-- The point at a corner of a cell. -/
def GridPos.corner (p : GridPos) (c : Corner) : GridPos :=
  ⟨p.x + c.offset.1, p.y + c.offset.2.1, p.z + c.offset.2.2⟩

theorem Corner.offset_le_one (c : Corner) : c.offset.1 ≤ 1 ∧ c.offset.2.1 ≤ 1 ∧ c.offset.2.2 ≤ 1 := by
  revert c
  decide

/-! ## Positions by number -/

namespace Dims

variable {d : Dims} {p : GridPos}

/-- Whether a position lies within the extents. -/
def Has (d : Dims) (p : GridPos) : Prop := p.x < d.nx ∧ p.y < d.ny ∧ p.z < d.nz

instance (d : Dims) (p : GridPos) : Decidable (d.Has p) := inferInstanceAs (Decidable (_ ∧ _ ∧ _))

/-- The number of a position. -/
def number (d : Dims) (p : GridPos) : Nat := p.x + d.nx * (p.y + d.ny * p.z)

/-- The position of a number. -/
def position (d : Dims) (i : Nat) : GridPos := ⟨i % d.nx, i / d.nx % d.ny, i / (d.nx * d.ny)⟩

theorem number_lt (h : d.Has p) : d.number p < d.volume := by
  rw [number, volume, Nat.mul_assoc]
  exact add_mul_lt_mul h.1 (add_mul_lt_mul h.2.1 h.2.2)

/-- A position is found by its number. -/
theorem position_number (h : d.Has p) : d.position (d.number p) = p := by
  obtain ⟨hx, hy, hz⟩ := h
  have hrow : d.number p / d.nx = p.y + d.ny * p.z := by
    rw [number, Nat.add_mul_div_left _ _ (Nat.zero_lt_of_lt hx), Nat.div_eq_of_lt hx, Nat.zero_add]
  rw [position, ← Nat.div_div_eq_div_mul, hrow]
  congr 1
  · rw [number, Nat.add_mul_mod_self_left, Nat.mod_eq_of_lt hx]
  · rw [Nat.add_mul_mod_self_left, Nat.mod_eq_of_lt hy]
  · rw [Nat.add_mul_div_left _ _ (Nat.zero_lt_of_lt hy), Nat.div_eq_of_lt hy, Nat.zero_add]

end Dims

namespace LabelGrid

variable {g : LabelGrid} {p : GridPos}

/-- Whether a position is one of a point. -/
def IsPoint (g : LabelGrid) (p : GridPos) : Prop := g.dims.Has p

/-- Whether a position is one of a cell. -/
def IsCell (g : LabelGrid) (p : GridPos) : Prop := g.cellDims.Has p

instance (g : LabelGrid) (p : GridPos) : Decidable (g.IsCell p) := inferInstanceAs (Decidable (g.cellDims.Has p))

/-- The number of a cell. -/
def number (g : LabelGrid) (p : GridPos) : Nat := g.cellDims.number p

/-! ## Labels -/

/-- The label at a position. -/
def labelAt? (g : LabelGrid) (p : GridPos) : Option Int32 := g.label? p.x p.y p.z

theorem labelAt?_of_isPoint (h : g.IsPoint p) : g.labelAt? p = g.labels[g.dims.number p]? :=
  if_pos h

theorem isSome_labelAt? (h : g.IsPoint p) : (g.labelAt? p).isSome = true := by
  have hlt : g.dims.number p < g.labels.size := Nat.lt_of_lt_of_eq (Dims.number_lt h) g.size_labels.symm
  rw [labelAt?_of_isPoint h, Array.getElem?_eq_getElem hlt, Option.isSome_some]

theorem IsCell.corner (h : g.IsCell p) (c : Corner) : g.IsPoint (p.corner c) := by
  obtain ⟨hx, hy, hz⟩ := h
  obtain ⟨hcx, hcy, hcz⟩ := c.offset_le_one
  simp only [cellDims] at hx hy hz
  simp only [IsPoint, Dims.Has, GridPos.corner]
  omega

/-- A cell has labels, those at its corners. -/
theorem exists_cellLabels (h : g.IsCell p) : ∃ labels : CornerLabels,
    g.cellLabels? p.x p.y p.z = some labels ∧ ∀ c, g.labelAt? (p.corner c) = some (labels c) := by
  have hsome : ∀ c : Corner, (g.labelAt? (p.corner c)).isSome = true := fun c => isSome_labelAt? (h.corner c)
  refine ⟨fun c => (g.labelAt? (p.corner c)).getD 0, if_pos ?_, fun c => ?_⟩
  · exact List.all_eq_true.2 fun c _ => hsome c
  · obtain ⟨l, hl⟩ := Option.isSome_iff_exists.1 (hsome c)
    simp only [hl, Option.getD_some]

/-! ## Numbers -/

theorem number_lt (h : g.IsCell p) : g.number p < g.numCells :=
  Dims.number_lt h

/-- A cell is found by its number. -/
theorem cellOfIndex_number (h : g.IsCell p) : g.cellOfIndex (g.number p) = p :=
  Dims.position_number h

theorem getElem?_cellFlags (h : g.IsCell p) : g.cellFlags[g.number p]? = some (g.cellFlag p) := by
  rw [cellFlags, List.getElem?_map, List.getElem?_range (number_lt h), Option.map_some, cellOfIndex_number h]

/-- The flag at the number of a cell is the flag of the labels at its corners. -/
theorem exists_flag (h : g.IsCell p) : ∃ labels : CornerLabels,
    g.cellFlags[g.number p]? = some (.ofLabels labels) ∧ ∀ c, g.labelAt? (p.corner c) = some (labels c) := by
  obtain ⟨labels, hl, hc⟩ := exists_cellLabels h
  refine ⟨labels, ?_, hc⟩
  rw [getElem?_cellFlags h, cellFlag, hl]

end LabelGrid

end Wireframe
