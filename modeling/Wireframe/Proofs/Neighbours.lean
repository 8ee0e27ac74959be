import Wireframe.Proofs.CellFlag
import Wireframe.Proofs.LabelGrid
import Wireframe.Space.Point
/-!
# Neighbouring cells

Two cells that are neighbours along an axis have a face in common: the upper
one of the lower cell, and the lower one of the upper cell. Each face lists
the common points in the same order, so the flags of both cells tell the same
crossings of the face and of its four edges, and the surface pieces in them
fit together.
-/

namespace Wireframe

/-- The neighbour of a cell on the upper side along an axis. -/
def GridPos.next (p : GridPos) : Axis → GridPos
  | .x => { p with x := p.x + 1 }
  | .y => { p with y := p.y + 1 }
  | .z => { p with z := p.z + 1 }

namespace Axis

/-- The face that a cell turns to its lower neighbour. -/
def lowerFace : Axis → Face
  | x => .left
  | y => .back
  | z => .bottom

/-- The face that a cell turns to its upper neighbour. -/
def upperFace : Axis → Face
  | x => .right
  | y => .front
  | z => .top

/-- The edges around the common face of two neighbours, as named in the lower
and in the upper cell. -/
def sharedEdges : Axis → List (CellEdge × CellEdge)
  | x => [(.rightBottom, .leftBottom), (.rightTop, .leftTop), (.rightBack, .leftBack), (.rightFront, .leftFront)]
  | y => [(.frontBottom, .backBottom), (.frontTop, .backTop), (.leftFront, .leftBack), (.rightFront, .rightBack)]
  | z => [(.leftTop, .leftBottom), (.rightTop, .rightBottom), (.backTop, .backBottom), (.frontTop, .frontBottom)]

/-- Two corners, of a cell and of its upper neighbour, that are one point. -/
def Meet (a : Axis) (c d : Corner) : Prop := ∀ p : GridPos, p.corner c = (p.next a).corner d

variable {a : Axis} {c d : Corner}

/-- Corners meet everywhere if they meet at the origin. -/
theorem meet_iff : a.Meet c d ↔ GridPos.corner ⟨0, 0, 0⟩ c = (GridPos.next ⟨0, 0, 0⟩ a).corner d := by
  refine ⟨fun h => h _, fun h p => ?_⟩
  cases a <;>
  · simp only [GridPos.corner, GridPos.next, GridPos.mk.injEq] at h ⊢
    omega

instance : Decidable (a.Meet c d) := decidable_of_iff' _ meet_iff

/-- The common face has its corners in one order on both sides. -/
theorem meet_corners (a : Axis) (i : Fin 4) : a.Meet a.upperFace.corners[i] a.lowerFace.corners[i] := by
  revert i
  cases a <;> decide

/-- The ends of a common edge meet, in the same order or crosswise. -/
theorem meet_ends {e : CellEdge × CellEdge} (he : e ∈ a.sharedEdges) :
    a.Meet e.1.ends.1 e.2.ends.1 ∧ a.Meet e.1.ends.2 e.2.ends.2 ∨
      a.Meet e.1.ends.1 e.2.ends.2 ∧ a.Meet e.1.ends.2 e.2.ends.1 := by
  revert e
  cases a <;> decide

end Axis

namespace CornerLabels

variable {a : Axis} {lower upper : CornerLabels}

theorem crossing_eq_of_meet (h : ∀ c d, a.Meet c d → lower c = upper d) :
    lower.crossing a.upperFace = upper.crossing a.lowerFace := by
  have hi : ∀ (i : Nat) (_ : i < 4), lower a.upperFace.corners[i] = upper a.lowerFace.corners[i] :=
    fun i hi => h _ _ (a.meet_corners ⟨i, hi⟩)
  simp only [crossing, hi]

theorem crosses_eq_of_meet (h : ∀ c d, a.Meet c d → lower c = upper d) {e : CellEdge × CellEdge}
    (he : e ∈ a.sharedEdges) : lower.crosses e.1 = upper.crosses e.2 := by
  rcases Axis.meet_ends he with ⟨h₁, h₂⟩ | ⟨h₁, h₂⟩
  · rw [crosses, crosses, h _ _ h₁, h _ _ h₂]
  · rw [crosses, crosses, h _ _ h₁, h _ _ h₂]
    exact decide_eq_decide.2 ne_comm

end CornerLabels

namespace LabelGrid

variable {g : LabelGrid} {p : GridPos}

theorem isCell_of_next {a : Axis} (h : g.IsCell (p.next a)) : g.IsCell p := by
  obtain ⟨hx, hy, hz⟩ := h
  cases a with
  | x => exact ⟨Nat.lt_of_succ_lt hx, hy, hz⟩
  | y => exact ⟨hx, Nat.lt_of_succ_lt hy, hz⟩
  | z => exact ⟨hx, hy, Nat.lt_of_succ_lt hz⟩

/-- The flags of neighbours agree on the common face and on its edges. -/
theorem neighbours_agree (g : LabelGrid) (a : Axis) (p : GridPos) (h : g.IsCell (p.next a)) :
    ∃ lower upper, g.cellFlags[g.number p]? = some lower ∧ g.cellFlags[g.number (p.next a)]? = some upper ∧
      lower.face a.upperFace = upper.face a.lowerFace ∧
      ∀ e ∈ a.sharedEdges, lower.edge e.1 = upper.edge e.2 := by
  obtain ⟨lower, hl, hlower⟩ := exists_flag (isCell_of_next h)
  obtain ⟨upper, hu, hupper⟩ := exists_flag h
  have hmeet : ∀ c d, a.Meet c d → lower c = upper d := by
    intro c d hcd
    apply Option.some.inj
    rw [← hlower, ← hupper, hcd p]
  refine ⟨.ofLabels lower, .ofLabels upper, hl, hu, ?_, fun e he => ?_⟩
  · rw [CellFlag.face_ofLabels, CellFlag.face_ofLabels, CornerLabels.crossing_eq_of_meet hmeet]
  · rw [CellFlag.edge_ofLabels, CellFlag.edge_ofLabels, CornerLabels.crosses_eq_of_meet hmeet he]

/-- Two cells along the second axis, whose common face has two labels at
alternate corners. -/
def checkered : LabelGrid where
  dims := ⟨2, 3, 2⟩
  labels := #[0, 0, 1, 0, 2, 2, 0, 0, 0, 1, 2, 0]
  size_labels := by decide

theorem neighbours_agree_checkered : checkered.IsCell (GridPos.next ⟨0, 0, 0⟩ .y) ∧
    ∃ lower upper, checkered.cellFlags[0]? = some lower ∧ checkered.cellFlags[1]? = some upper ∧
      lower.face .front = .junction ∧ upper.face .back = .junction ∧
      ∀ e ∈ Axis.sharedEdges .y, lower.edge e.1 = upper.edge e.2 := by
  have hc : checkered.IsCell (GridPos.next ⟨0, 0, 0⟩ .y) := by decide
  obtain ⟨lower, upper, hl, hu, hface, hedge⟩ := neighbours_agree checkered .y ⟨0, 0, 0⟩ hc
  have hj : checkered.cellFlags[0]?.map (·.face .front) = some .junction := by decide +kernel
  have hlower : lower.face .front = .junction := Option.some.inj ((congrArg _ hl).symm.trans hj)
  exact ⟨hc, lower, upper, hl, hu, hlower, hface.symm.trans hlower, hedge⟩

end LabelGrid

end Wireframe
