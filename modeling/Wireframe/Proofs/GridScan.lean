import Mathlib.Data.List.Forall2
import Wireframe.Cell.CheckedScan
import Wireframe.Proofs.GridSize
import Wireframe.Proofs.LabelGrid
import Wireframe.Proofs.Lists
import Wireframe.Proofs.Neighbours
/-!
# The scan of a grid

The cells by position are the cells by number: the nested passes over the
three axes count `x + cx * (y + cy * z)` upwards, and a number is taken apart
again by its quotients and remainders.

Every step of a scan passes its check. A number below the number of cells comes
with extents that are not zero, and what is added or multiplied on the way to a
label stays below the number of points, which was found to be a count when the
grid was made.
-/

namespace Wireframe

/-! ## Numbers of positions -/

/-- Two nested passes, the inner one over `i`, as one pass over `i + n * k`. -/
theorem flatMap_range_map {α : Type} (f : Nat → Nat → α) (n m : Nat) :
    ((List.range m).flatMap fun k => (List.range n).map fun i => f i k) =
      (List.range (n * m)).map fun j => f (j % n) (j / n) := by
  induction m with
  | zero => rfl
  | succ m ih =>
    have hrow : ∀ i ∈ List.range n, f i m = f ((n * m + i) % n) ((n * m + i) / n) := fun i hi => by
      have hi := List.mem_range.1 hi
      rw [Nat.mul_add_mod, Nat.mod_eq_of_lt hi, Nat.mul_add_div (Nat.zero_lt_of_lt hi), Nat.div_eq_of_lt hi,
        Nat.add_zero]
    rw [List.range_succ, List.flatMap_append, ih, List.flatMap_singleton, Nat.mul_succ, List.range_add,
      List.map_append, List.map_map, List.map_congr_left hrow]
    rfl

namespace Dims

variable {d : Dims}

/-- All positions, the first axis running fastest. -/
def positions (d : Dims) : List GridPos :=
  (List.range d.nz).flatMap fun z => (List.range d.ny).flatMap fun y => (List.range d.nx).map fun x => ⟨x, y, z⟩

/-- The positions are listed by their numbers. -/
theorem positions_eq (d : Dims) : d.positions = (List.range d.volume).map d.position := by
  have hplane : ∀ z, ((List.range d.ny).flatMap fun y => (List.range d.nx).map fun x => GridPos.mk x y z) =
      (List.range (d.nx * d.ny)).map fun j => ⟨j % d.nx, j / d.nx, z⟩ :=
    fun z => flatMap_range_map (fun x y => GridPos.mk x y z) d.nx d.ny
  simp only [positions, hplane]
  rw [flatMap_range_map (fun j z => GridPos.mk (j % d.nx) (j / d.nx) z)]
  simp only [Nat.mod_mul_right_mod, Nat.mod_mul_right_div_self]
  rfl

theorem has_position {i : Nat} (h : i < d.volume) : d.Has (d.position i) := by
  have hplane : 0 < d.nx * d.ny := Nat.pos_of_ne_zero fun h0 => by
    rw [volume, h0, Nat.zero_mul] at h
    exact Nat.not_lt_zero _ h
  have hx := Nat.pos_of_mul_pos_right hplane
  have hy := Nat.pos_of_mul_pos_left hplane
  exact ⟨Nat.mod_lt _ hx, Nat.mod_lt _ hy, Nat.div_lt_of_lt_mul h⟩

/-- Where the first two extents are not zero all of them are counts. -/
theorem Counted.extents (h : d.Counted) (hx : 0 < d.nx) (hy : 0 < d.ny) :
    d.nx ≤ maxCount ∧ d.ny ≤ maxCount ∧ d.nz ≤ maxCount :=
  ⟨h.row, Nat.le_trans (Nat.le_mul_of_pos_left _ hx) h.plane,
    Nat.le_trans (Nat.le_mul_of_pos_left _ (Nat.mul_pos hx hy)) h.volume⟩

end Dims

namespace LabelGrid

variable {g : LabelGrid} {p : GridPos}

/-- The products of the cells along the axes are counts as those of the points are. -/
theorem counted_cellDims (h : g.dims.Counted) : g.cellDims.Counted where
  row := Nat.le_trans (Nat.sub_le _ _) h.row
  plane := Nat.le_trans (Nat.mul_le_mul (Nat.sub_le _ _) (Nat.sub_le _ _)) h.plane
  volume := Nat.le_trans (Nat.mul_le_mul (Nat.mul_le_mul (Nat.sub_le _ _) (Nat.sub_le _ _)) (Nat.sub_le _ _)) h.volume

/-- The cells by position are the cells by number. -/
theorem cells_eq (g : LabelGrid) : g.cells = (List.range g.numCells).map g.cellOfIndex := by
  have hcells : g.cells = if g.numCells = 0 then [] else g.cellDims.positions := rfl
  rw [hcells]
  split
  next h => rw [h]; rfl
  next => exact g.cellDims.positions_eq

theorem isCell_of_mem (h : p ∈ g.cells) : g.IsCell p := by
  rw [cells_eq, List.mem_map] at h
  obtain ⟨i, hi, rfl⟩ := h
  exact Dims.has_position (List.mem_range.1 hi)

theorem labelAt?_eq_none (h : ¬g.IsPoint p) : g.labelAt? p = none := if_neg h

/-- The cells are the positions with labels on all corners. -/
theorem isSome_cellLabels?_iff : (g.cellLabels? p.x p.y p.z).isSome = true ↔ g.IsCell p := by
  constructor
  · intro h
    obtain ⟨labels, hl⟩ := Option.isSome_iff_exists.1 h
    rw [cellLabels?, Option.ite_none_right_eq_some, List.all_eq_true] at hl
    have hlast : (g.labelAt? (p.corner 6)).isSome = true := hl.1 6 (by decide)
    -- the corner that lies right, in front and on top is a point
    have hpoint : g.IsPoint (p.corner 6) := by
      by_contra hno
      rw [labelAt?_eq_none hno] at hlast
      cases hlast
    obtain ⟨hx, hy, hz⟩ := hpoint
    exact ⟨Nat.lt_sub_of_add_lt hx, Nat.lt_sub_of_add_lt hy, Nat.lt_sub_of_add_lt hz⟩
  · intro h
    obtain ⟨labels, hl, -⟩ := exists_cellLabels h
    rw [hl]
    rfl

end LabelGrid

/-! ## Checks that are passed -/

namespace Checked

variable {g : LabelGrid} {p : GridPos}

/-- The number of a point and what is computed on the way to it are counts,
and the buffer has a label there. -/
theorem label_eq (hg : g.dims.Counted) (p : GridPos) : label g p = .ok (g.labelAt? p) := by
  unfold label
  split
  next h =>
    have hlt := Dims.number_lt (d := g.dims) h
    have hn : p.x + g.dims.nx * (p.y + g.dims.ny * p.z) ≤ maxCount := Nat.le_trans hlt.le hg.volume
    have hrows : p.y + g.dims.ny * p.z ≤ g.dims.nx * (p.y + g.dims.ny * p.z) :=
      Nat.le_mul_of_pos_left _ (Nat.zero_lt_of_lt h.1)
    obtain ⟨l, hl⟩ := Option.isSome_iff_exists.1 (LabelGrid.isSome_labelAt? h)
    have hi : g.labels[p.x + g.dims.nx * (p.y + g.dims.ny * p.z)]? = some l :=
      (LabelGrid.labelAt?_of_isPoint h).symm.trans hl
    simp only [bind, Except.bind, count_of_le (show g.dims.ny * p.z ≤ maxCount by omega),
      count_of_le (show p.y + g.dims.ny * p.z ≤ maxCount by omega),
      count_of_le (show g.dims.nx * (p.y + g.dims.ny * p.z) ≤ maxCount by omega), count_of_le hn, hi, hl]
    rfl
  next h => rw [LabelGrid.labelAt?_eq_none h]; rfl

/-- The corners of a cell that begins at a point are reached by counts. -/
theorem cornerLabel_eq (hg : g.dims.Counted) (hp : g.IsPoint p) (c : Corner) :
    cornerLabel g p c = .ok (g.labelAt? (p.corner c)) := by
  obtain ⟨hx, hy, hz⟩ := hp
  obtain ⟨hnx, hny, hnz⟩ := hg.extents (Nat.zero_lt_of_lt hx) (Nat.zero_lt_of_lt hy)
  obtain ⟨hcx, hcy, hcz⟩ := c.offset_le_one
  simp only [cornerLabel, bind, Except.bind, count_of_le (show p.x + c.offset.1 ≤ maxCount by omega),
    count_of_le (show p.y + c.offset.2.1 ≤ maxCount by omega),
    count_of_le (show p.z + c.offset.2.2 ≤ maxCount by omega)]
  exact label_eq hg _

theorem cornerLabels_eq (hg : g.dims.Counted) (hp : g.IsPoint p) (cs : List Corner) :
    cornerLabels g p cs = .ok (if cs.all fun c => (g.labelAt? (p.corner c)).isSome then
      some (cs.map fun c => (g.labelAt? (p.corner c)).getD 0) else none) := by
  induction cs with
  | nil => rfl
  | cons c cs ih =>
    rw [cornerLabels, cornerLabel_eq hg hp, ih, List.all_cons, List.map_cons]
    cases g.labelAt? (p.corner c) with
    | none => rfl
    | some l => cases cs.all fun c => (g.labelAt? (p.corner c)).isSome <;> rfl

theorem cellLabels_eq (hg : g.dims.Counted) (hx : p.x ≤ maxCount) (hy : p.y ≤ maxCount) (hz : p.z ≤ maxCount) :
    cellLabels g p = .ok (g.cellLabels? p.x p.y p.z) := by
  by_cases hp : g.IsPoint p
  · have hat : ∀ (f : CornerLabels) (c : Corner), (Corner.all.map f).getD c 0 = f c := fun f c => by
      have hc : Corner.all[c.val]? = some c := by revert c; decide
      rw [List.getD_eq_getElem?_getD, List.getElem?_map, hc]
      rfl
    have hpure : g.cellLabels? p.x p.y p.z = if Corner.all.all fun c => (g.labelAt? (p.corner c)).isSome then
        some fun c => (g.labelAt? (p.corner c)).getD 0 else none := rfl
    rw [cellLabels, cornerLabels_eq hg hp, hpure]
    split
    next => exact congrArg (fun labels => Except.ok (some labels)) (funext fun c => hat _ c)
    next => rfl
  · -- the first corner has no label, so nothing is added to the coordinates
    have hfirst : cornerLabel g p 0 = .ok none := by
      simp only [cornerLabel, bind, Except.bind, Corner.offset, Nat.add_zero, count_of_le hx, count_of_le hy,
        count_of_le hz, label_eq hg, LabelGrid.labelAt?_eq_none hp]
    have hno : g.cellLabels? p.x p.y p.z = none := by
      rw [← Option.not_isSome_iff_eq_none, LabelGrid.isSome_cellLabels?_iff]
      exact fun hcell => hp (hcell.corner 0)
    rw [hno, cellLabels, Corner.all, cornerLabels, hfirst]
    rfl

theorem cellFlag_eq (hg : g.dims.Counted) (hp : g.IsCell p) : cellFlag g p = .ok (g.cellFlag p) := by
  obtain ⟨hx, hy, hz⟩ : g.IsPoint p := hp.corner 0
  obtain ⟨hnx, hny, hnz⟩ := hg.extents (Nat.zero_lt_of_lt hx) (Nat.zero_lt_of_lt hy)
  rw [cellFlag, cellLabels_eq hg (by omega) (by omega) (by omega), LabelGrid.cellFlag]
  cases g.cellLabels? p.x p.y p.z <;> rfl

/-! ## Scans -/

theorem numCells_eq (hg : g.dims.Counted) : numCells g = .ok g.numCells := by
  obtain ⟨hrow, hplane, hvolume⟩ := LabelGrid.counted_cellDims hg
  rw [Dims.volume] at hvolume
  simp only [numCells, Dims.toList, List.foldlM_cons, List.foldlM_nil, Nat.one_mul, bind, Except.bind,
    count_of_le hrow, count_of_le hplane, count_of_le hvolume]
  rfl

/-- The extents that a number is divided by are not zero where there is a cell. -/
theorem cellOfIndex_eq (hg : g.dims.Counted) {i : Nat} (hi : i < g.numCells) :
    cellOfIndex g i = .ok (g.cellOfIndex i) := by
  obtain ⟨hx, hy, -⟩ : g.IsCell (g.cellOfIndex i) := Dims.has_position hi
  have hx := Nat.zero_lt_of_lt hx
  have hy := Nat.zero_lt_of_lt hy
  simp only [cellOfIndex, bind, Except.bind, remainder_of_pos hx, quotient_of_pos hx, remainder_of_pos hy,
    count_of_le (LabelGrid.counted_cellDims hg).plane, quotient_of_pos (Nat.mul_pos hx hy)]
  rfl

/-- The scan by position finds the flags of the cells in the order of their numbers. -/
theorem map_cellFlag_cells (g : LabelGrid) : g.cells.map g.cellFlag = g.cellFlags := by
  rw [LabelGrid.cells_eq, List.map_map]
  rfl

theorem scanByNumber_eq (hg : g.dims.Counted) : scanByNumber g = .ok g.cellFlags := by
  rw [scanByNumber, numCells_eq hg]
  refine mapM_eq_ok.2 (List.forall₂_map_right_iff.2 (List.forall₂_same.2 fun i hi => ?_))
  have hi := List.mem_range.1 hi
  rw [cellOfIndex_eq hg hi]
  exact cellFlag_eq hg (Dims.has_position hi)

theorem scanByPosition_eq (hg : g.dims.Counted) : scanByPosition g = .ok g.cellFlags := by
  rw [scanByPosition, ← map_cellFlag_cells]
  exact mapM_eq_ok.2 (List.forall₂_map_right_iff.2 (List.forall₂_same.2 fun p hp =>
    cellFlag_eq hg (LabelGrid.isCell_of_mem hp)))

end Checked

namespace LabelGrid

/-- A grid that was made of a buffer is scanned without a fault, by number and
by position with the same result. There is one flag for each cell, at its
number, that of the labels in the buffer at the corners of the cell. Labels are
found for all cells and for no other position. -/
theorem scans_agree {dims : Dims} {labels : Array Int32} {g : LabelGrid} (h : ofLabels dims labels = .ok g) :
    Checked.scanByNumber g = .ok g.cellFlags ∧ Checked.scanByPosition g = .ok g.cellFlags ∧
      Checked.numCells g = .ok g.numCells ∧ g.cellFlags.length = g.numCells ∧
      (∀ x y z : UInt64, Checked.cellLabels g ⟨x.toNat, y.toNat, z.toNat⟩ =
        .ok (g.cellLabels? x.toNat y.toNat z.toNat)) ∧
      (∀ x y z, (g.cellLabels? x y z).isSome = true ↔
        x < g.cellDims.nx ∧ y < g.cellDims.ny ∧ z < g.cellDims.nz) ∧
      ∀ p, g.IsCell p → ∃ corner : CornerLabels, g.cellLabels? p.x p.y p.z = some corner ∧
        (∀ c, labels[dims.number (p.corner c)]? = some (corner c)) ∧
        g.cellFlags[g.number p]? = some (.ofLabels corner) := by
  obtain ⟨hg, rfl, rfl⟩ := ofLabels_eq_ok.1 h
  refine ⟨Checked.scanByNumber_eq hg, Checked.scanByPosition_eq hg, Checked.numCells_eq hg, ?_, ?_, ?_, ?_⟩
  · rw [cellFlags, List.length_map, List.length_range]
  · intro x y z
    have hcount : ∀ n : UInt64, n.toNat ≤ maxCount := fun n => Nat.le_sub_one_of_lt n.toNat_lt_size
    exact Checked.cellLabels_eq hg (hcount x) (hcount y) (hcount z)
  · intro x y z
    exact isSome_cellLabels?_iff (p := ⟨x, y, z⟩)
  · intro p hp
    obtain ⟨corner, hl, hc⟩ := exists_cellLabels hp
    refine ⟨corner, hl, fun c => ?_, ?_⟩
    · rw [← labelAt?_of_isPoint (hp.corner c), hc]
    · rw [getElem?_cellFlags hp, cellFlag, hl]

/-- Two cells, and a grid without points whose other extents are large. -/
theorem scans_agree_checkered :
    ofLabels ⟨2, 3, 2⟩ #[0, 0, 1, 0, 2, 2, 0, 0, 0, 1, 2, 0] = .ok checkered ∧
      Checked.scanByNumber checkered = .ok checkered.cellFlags ∧
      Checked.scanByPosition checkered = .ok checkered.cellFlags ∧ checkered.cellFlags.length = 2 ∧
      ∃ g, ofLabels ⟨0, maxCount, maxCount⟩ #[] = .ok g ∧ Checked.scanByNumber g = .ok [] ∧
        Checked.scanByPosition g = .ok [] := by
  have hc : ofLabels ⟨2, 3, 2⟩ #[0, 0, 1, 0, 2, 2, 0, 0, 0, 1, 2, 0] = .ok checkered :=
    ofLabels_eq_ok.2 ⟨⟨by decide, by decide, by decide⟩, rfl, rfl⟩
  obtain ⟨hn, hp, -, hlen, -⟩ := scans_agree hc
  obtain ⟨g, hg⟩ := exists_ofLabels_iff.2
    (⟨⟨by decide, by decide, by decide⟩, rfl⟩ : Dims.Counted ⟨0, maxCount, maxCount⟩ ∧ (#[] : Array Int32).size = _)
  obtain ⟨hn', hp', -⟩ := scans_agree hg
  obtain ⟨-, hd, -⟩ := ofLabels_eq_ok.1 hg
  have hnil : g.cellFlags = [] := by
    have h0 : g.numCells = 0 := by rw [numCells, cellDims, hd, Dims.volume, Nat.zero_sub, Nat.zero_mul, Nat.zero_mul]
    rw [cellFlags, h0]
    rfl
  rw [hnil] at hn' hp'
  exact ⟨hc, hn, hp, hlen, g, hg, hn', hp'⟩

end LabelGrid

end Wireframe
