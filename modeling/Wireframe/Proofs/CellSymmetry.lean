import Mathlib.Data.List.Nodup
import Mathlib.Logic.Equiv.Defs
import Wireframe.Proofs.FaceSides
import Wireframe.Proofs.Neighbours
/-!
# Symmetries of a cell

A symmetry permutes the axes and reverses some of them. It moves the corners
of a cell, and with them its faces and edges: a face is one of the two sides
along an axis, and an edge runs along an axis through a corner. The sides of a
face stay sides where the face has moved to. So if the labels move along with
the corners, as many sides of the face are crossed, and the flag of the moved
cell tells of every face and edge what the flag of the cell did before.
-/

namespace Wireframe

/-- A list is permuted onto another by what carries its members to those of
the other. -/
theorem map_perm_of_bijective {α β : Type} {φ : α → β} (hφ : Function.Bijective φ) {l : List α} {m : List β}
    (hl : l.Nodup) (hm : m.Nodup) (h : ∀ x, φ x ∈ m ↔ x ∈ l) : (l.map φ).Perm m := by
  rw [List.perm_ext_iff_of_nodup (hl.map hφ.1) hm]
  intro y
  obtain ⟨x, rfl⟩ := hφ.2 y
  rw [List.mem_map_of_injective hφ.1, h]

/-! ## Sides of space -/

namespace Corner

/-- Whether a corner lies on the upper side along an axis. -/
def upper (c : Corner) : Axis → Bool
  | .x => c.offset.1 = 1
  | .y => c.offset.2.1 = 1
  | .z => c.offset.2.2 = 1

/-- The corner that lies on the given side along every axis. The numbers go
around, so the lowest bit tells right from left at the back, and the other way
round in front. -/
def ofSides (upper : Axis → Bool) : Corner where
  val := (upper .x ^^ upper .y).toNat + 2 * (upper .y).toNat + 4 * (upper .z).toNat
  isLt := by
    have hxy := (upper .x ^^ upper .y).toNat_lt
    have hy := (upper .y).toNat_lt
    have hz := (upper .z).toNat_lt
    omega

variable {c d : Corner} {a b : Axis}

@[simp]
theorem upper_ofSides (upper : Axis → Bool) (a : Axis) : (ofSides upper).upper a = upper a := by
  cases a <;> cases hx : upper .x <;> cases hy : upper .y <;> cases hz : upper .z <;>
    simp only [ofSides, hx, hy, hz] <;> rfl

theorem ofSides_upper (c : Corner) : ofSides c.upper = c := by
  revert c
  decide

/-- Corners on the same sides are the same. -/
theorem ext_upper (h : ∀ a, c.upper a = d.upper a) : c = d := by
  rw [← ofSides_upper c, ← ofSides_upper d, funext h]

/-- The corner at the other end along an axis. -/
def across (c : Corner) (a : Axis) : Corner := ofSides fun b => c.upper b ^^ decide (b = a)

@[simp]
theorem upper_across : (c.across a).upper b = (c.upper b ^^ decide (b = a)) :=
  upper_ofSides _ b

end Corner

namespace Axis

/-- The face on one side along an axis. -/
def face (a : Axis) (upper : Bool) : Face := if upper then a.upperFace else a.lowerFace

end Axis

namespace Face

/-- The axis that a face is a side of. -/
def axis : Face → Axis
  | left | right => .x
  | back | front => .y
  | bottom | top => .z

/-- Whether a face is the upper side along its axis. -/
def upper : Face → Bool
  | left | back | bottom => false
  | right | front | top => true

variable {f : Face}

@[simp]
theorem axis_face (a : Axis) (upper : Bool) : (a.face upper).axis = a := by
  cases a <;> cases upper <;> rfl

@[simp]
theorem upper_face (a : Axis) (upper : Bool) : (a.face upper).upper = upper := by
  cases a <;> cases upper <;> rfl

theorem face_axis_upper (f : Face) : f.axis.face f.upper = f := by
  cases f <;> rfl

/-- A face has the corners on its side. -/
theorem mem_corners {c : Corner} : c ∈ f.corners.toList ↔ c.upper f.axis = f.upper := by
  revert c
  cases f <;> decide

theorem sides_nodup (f : Face) : f.sides.toList.Nodup := by
  cases f <;> decide

end Face

namespace CellEdge

/-- The axis that an edge runs along. -/
def axis : CellEdge → Axis
  | backBottom | frontBottom | backTop | frontTop => .x
  | leftBottom | rightBottom | leftTop | rightTop => .y
  | leftBack | rightBack | leftFront | rightFront => .z

/-- The edge along an axis at a corner. -/
def along : Axis → Corner → CellEdge
  | .x, c => if c.upper .z then if c.upper .y then frontTop else backTop
    else if c.upper .y then frontBottom else backBottom
  | .y, c => if c.upper .z then if c.upper .x then rightTop else leftTop
    else if c.upper .x then rightBottom else leftBottom
  | .z, c => if c.upper .y then if c.upper .x then rightFront else leftFront
    else if c.upper .x then rightBack else leftBack

variable {e e' : CellEdge} {c d : Corner}

theorem joins_along (a : Axis) (c : Corner) : (along a c).Joins c (c.across a) := by
  revert c
  cases a <;> decide

theorem across_axis (e : CellEdge) : e.ends.1.across e.axis = e.ends.2 := by
  cases e <;> decide

theorem joins_ends (e : CellEdge) : e.Joins e.ends.1 e.ends.2 := .inl rfl

theorem Joins.symm (h : e.Joins c d) : e.Joins d c := Or.symm h

/-- No two edges join the same corners. -/
theorem Joins.unique (h : e.Joins c d) (h' : e'.Joins c d) : e = e' := by
  have htable : ∀ e ∈ all, ∀ e' ∈ all, e.Joins e'.ends.1 e'.ends.2 → e = e' := by decide
  rcases h' with h' | h'
  · exact htable e e.mem_all e' e'.mem_all (by rwa [h'])
  · exact htable e e.mem_all e' e'.mem_all (by rw [h']; exact h.symm)

/-- The sides of a face are the edges with both ends on it. -/
theorem mem_sides_iff {f : Face} (h : e.Joins c d) :
    e ∈ f.sides.toList ↔ c ∈ f.corners.toList ∧ d ∈ f.corners.toList := by
  have htable : ∀ f ∈ Face.all, ∀ e ∈ all,
      e ∈ f.sides.toList ↔ e.ends.1 ∈ f.corners.toList ∧ e.ends.2 ∈ f.corners.toList := by decide
  rw [htable f f.mem_all e e.mem_all]
  rcases h with h | h
  · rw [h]
  · rw [h, and_comm]

end CellEdge

/-! ## Symmetries -/

/-- A symmetry of the lattice: every axis becomes another one, and some are
reversed. -/
structure Symmetry where
  axes : Equiv.Perm Axis
  reverses : Axis → Bool

namespace Symmetry

/-- The symmetry that moves everything back. -/
def symm (s : Symmetry) : Symmetry := ⟨s.axes.symm, fun a => s.reverses (s.axes.symm a)⟩

/-- Where a corner moves to. -/
def corner (s : Symmetry) (c : Corner) : Corner :=
  .ofSides fun a => c.upper (s.axes.symm a) ^^ s.reverses (s.axes.symm a)

/-- Where a face moves to. -/
def face (s : Symmetry) (f : Face) : Face := (s.axes f.axis).face (f.upper ^^ s.reverses f.axis)

/-- Where an edge moves to. -/
def edge (s : Symmetry) (e : CellEdge) : CellEdge := .along (s.axes e.axis) (s.corner e.ends.1)

variable {s : Symmetry} {c d : Corner} {f : Face} {e : CellEdge} {a : Axis}

@[simp]
theorem upper_corner : (s.corner c).upper (s.axes a) = (c.upper a ^^ s.reverses a) := by
  rw [corner, Corner.upper_ofSides, Equiv.symm_apply_apply]

/-- The other end along an axis moves to the other end along the moved axis. -/
theorem corner_across : s.corner (c.across a) = (s.corner c).across (s.axes a) := by
  refine Corner.ext_upper fun b => ?_
  obtain ⟨b, rfl⟩ := s.axes.surjective b
  simp only [upper_corner, Corner.upper_across, s.axes.apply_eq_iff_eq]
  rw [Bool.xor_right_comm]

/-- Corners that an edge joins are joined where they have moved to. -/
theorem joins_edge (h : e.Joins c d) : (s.edge e).Joins (s.corner c) (s.corner d) := by
  have hends : (s.edge e).Joins (s.corner e.ends.1) (s.corner e.ends.2) := by
    rw [← e.across_axis, corner_across]
    exact CellEdge.joins_along _ _
  rcases h with h | h
  · rwa [h] at hends
  · rw [h] at hends
    exact hends.symm

theorem corner_mem_face : s.corner c ∈ (s.face f).corners.toList ↔ c ∈ f.corners.toList := by
  rw [Face.mem_corners, Face.mem_corners, face, Face.axis_face, Face.upper_face, upper_corner, Bool.xor_left_inj]

theorem edge_mem_sides : s.edge e ∈ (s.face f).sides.toList ↔ e ∈ f.sides.toList := by
  rw [CellEdge.mem_sides_iff (joins_edge e.joins_ends), CellEdge.mem_sides_iff e.joins_ends, corner_mem_face,
    corner_mem_face]

/-! ### Moving back -/

variable (s)

theorem symm_symm : s.symm.symm = s := by
  simp [symm]

theorem symm_corner (c : Corner) : s.symm.corner (s.corner c) = c := by
  refine Corner.ext_upper fun a => ?_
  simp [corner, symm]

theorem symm_face (f : Face) : s.symm.face (s.face f) = f := by
  simp only [face, symm, Face.axis_face, Face.upper_face, Equiv.symm_apply_apply, Bool.xor_assoc, Bool.xor_self,
    Bool.xor_false, Face.face_axis_upper]

theorem symm_edge (e : CellEdge) : s.symm.edge (s.edge e) = e := by
  have h := joins_edge (s := s.symm) (joins_edge (s := s) e.joins_ends)
  rw [symm_corner, symm_corner] at h
  exact h.unique e.joins_ends

/-- What symmetries move, and move back, they permute. -/
theorem bijective_of_symm {α : Type} {move : Symmetry → α → α} (h : ∀ s x, move s.symm (move s x) = x) :
    Function.Bijective (move s) := by
  have hback : Function.LeftInverse (move s) (move s.symm) := by
    intro x
    have hx := h s.symm x
    rwa [symm_symm] at hx
  exact ⟨Function.LeftInverse.injective (h s), hback.surjective⟩

theorem edge_bijective : Function.Bijective s.edge :=
  s.bijective_of_symm symm_edge

theorem face_bijective : Function.Bijective s.face :=
  s.bijective_of_symm symm_face

theorem sides_perm (f : Face) : (f.sides.toList.map s.edge).Perm (s.face f).sides.toList :=
  map_perm_of_bijective s.edge_bijective f.sides_nodup (s.face f).sides_nodup fun _ => edge_mem_sides

theorem faces_perm : (Face.all.map s.face).Perm Face.all :=
  map_perm_of_bijective s.face_bijective (by decide) (by decide) fun f => iff_of_true (Face.mem_all _) f.mem_all

end Symmetry

/-! ## Labels that move along -/

namespace CornerLabels

variable {s : Symmetry} {labels moved : CornerLabels}

theorem crosses_moved (h : ∀ c, moved (s.corner c) = labels c) (e : CellEdge) :
    moved.crosses (s.edge e) = labels.crosses e := by
  rw [crosses_of_joins (s.joins_edge e.joins_ends), h, h, crosses]

theorem crossedSides_moved (h : ∀ c, moved (s.corner c) = labels c) (f : Face) :
    moved.crossedSides (s.face f) = labels.crossedSides f := by
  have hside : moved.crosses ∘ s.edge = labels.crosses := funext (crosses_moved h)
  rw [crossedSides, ← (s.sides_perm f).countP_eq, List.countP_map, hside, crossedSides]

theorem crossing_moved (h : ∀ c, moved (s.corner c) = labels c) (f : Face) :
    moved.crossing (s.face f) = labels.crossing f := by
  rw [crossing_eq, crossing_eq, crossedSides_moved h]

theorem junctionCount_moved (h : ∀ c, moved (s.corner c) = labels c) :
    moved.junctionCount = labels.junctionCount := by
  rw [junctionCount, ← s.faces_perm.countP_eq, List.countP_map, junctionCount]
  congr 1
  funext f
  rw [Function.comp_apply, crossing_moved h]

/-- The vertex of a cell keeps its kind. -/
theorem vertex_moved (h : ∀ c, moved (s.corner c) = labels c) : moved.classify.vertex = labels.classify.vertex := by
  rcases labels.uncrossed_or_crossed with hl | ⟨e, he⟩
  · have hm : ∀ e, moved.crosses e = false := by
      intro e
      obtain ⟨e, rfl⟩ := s.edge_bijective.2 e
      rw [crosses_moved h, hl]
    rw [classify_of_uncrossed hl, classify_of_uncrossed hm]
  · have hm : moved.crosses (s.edge e) = true := (crosses_moved h e).trans he
    rw [classify_of_crossed he, classify_of_crossed hm, junctionCount_moved h]

end CornerLabels

/-! ## Flags of moved cells -/

namespace CellFlag

/-- The flag of a cell and that of the moved cell: the vertex is the same, and
every face and edge is told of where it has moved to. -/
structure MovesTo (s : Symmetry) (old new : CellFlag) : Prop where
  vertex : new.vertex = old.vertex
  junctions : new.junctions = old.junctions
  face : ∀ f, new.face (s.face f) = old.face f
  edge : ∀ e, new.edge (s.edge e) = old.edge e

theorem movesTo_ofLabels {s : Symmetry} {labels moved : CornerLabels} (h : ∀ c, moved (s.corner c) = labels c) :
    MovesTo s (ofLabels labels) (ofLabels moved) where
  vertex := by
    rw [ofLabels, ofLabels, Crossings.vertex_pack, Crossings.vertex_pack, CornerLabels.vertex_moved h]
  junctions := by
    rw [ofLabels, ofLabels, Crossings.junctions_pack, Crossings.junctions_pack, CornerLabels.junctions_classify,
      CornerLabels.junctions_classify, CornerLabels.junctionCount_moved h]
  face f := by rw [face_ofLabels, face_ofLabels, CornerLabels.crossing_moved h]
  edge e := by rw [edge_ofLabels, edge_ofLabels, CornerLabels.crosses_moved h]

end CellFlag

end Wireframe
