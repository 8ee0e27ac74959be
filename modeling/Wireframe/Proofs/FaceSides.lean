import Wireframe.Proofs.CellFlag
/-!
# What the edges tell of a cell

The sides of a face are the edges between its corners, taken around. Where the
label changes on the way around, a side is crossed, and the number of crossed
sides tells how the surfaces cross the face. Every edge is a side of some face,
so a cell with a crossed edge has a vertex, whose kind follows from the faces.
In the end the twelve edges determine the whole flag.
-/

namespace Wireframe

/-! ## Labels around a face -/

/-- How often the label changes on the way around a face. -/
def labelChanges (a b c d : Int32) : Nat :=
  (if a = b then 0 else 1) + (if b = c then 0 else 1) + (if c = d then 0 else 1) + if d = a then 0 else 1

section Around
variable {a b c d : Int32}

/-- The label cannot change on the way around without changing back. -/
theorem labelChanges_ne_one : labelChanges a b c d ≠ 1 := by
  unfold labelChanges
  grind

theorem distinctLabels_four : distinctLabels [a, b, c, d] =
    1 + (if c = d then 0 else 1) + (if b = c ∨ b = d then 0 else 1) + if a = b ∨ a = c ∨ a = d then 0 else 1 := by
  simp [distinctLabels]

/-- There is one label if none changes on the way around, and only then. -/
theorem distinctLabels_eq_one_iff : distinctLabels [a, b, c, d] = 1 ↔ labelChanges a b c d = 0 := by
  rw [distinctLabels_four, labelChanges]
  grind

/-- Two labels change twice unless they alternate, and more labels change more
often. -/
theorem distinctLabels_eq_two_iff :
    distinctLabels [a, b, c, d] = 2 ∧ ¬(a = c ∧ b = d) ↔ labelChanges a b c d = 2 := by
  rw [distinctLabels_four, labelChanges]
  grind

/-- What the surfaces do on a face with so many crossed sides. -/
def FaceCrossing.ofChanges (n : Nat) : FaceCrossing :=
  if n = 0 then .none else if n = 2 then .surface else .junction

theorem FaceCrossing.ofLabels_eq : ofLabels a b c d = ofChanges (labelChanges a b c d) := by
  rw [ofLabels, ofChanges]
  simp only [← distinctLabels_eq_one_iff, ← distinctLabels_eq_two_iff]
  split
  next h => rw [if_pos h]
  next h =>
    have hne : distinctLabels [a, b, c, d] ≠ 1 := by omega
    rw [if_neg hne]
    simp only [h, true_and]
    by_cases halt : a = c ∧ b = d
    · rw [if_pos halt, if_neg fun hn => hn halt]
    · rw [if_neg halt, if_pos halt]
  next h₁ h₂ => rw [if_neg h₁, if_neg fun h => h₂ h.1]

theorem FaceCrossing.ofChanges_eq_none {n : Nat} : ofChanges n = .none ↔ n = 0 := by
  grind [ofChanges]

theorem FaceCrossing.ofChanges_eq_surface {n : Nat} : ofChanges n = .surface ↔ n = 2 := by
  grind [ofChanges]

theorem FaceCrossing.ofChanges_eq_junction {n : Nat} : ofChanges n = .junction ↔ n ≠ 0 ∧ n ≠ 2 := by
  grind [ofChanges]

end Around

namespace VertexKind

variable {n : Nat}

theorem ofJunctions_ne_none : ofJunctions n ≠ .none := by
  grind [ofJunctions]

theorem ofJunctions_eq_surface : ofJunctions n = .surface ↔ n = 0 := by
  grind [ofJunctions]

theorem ofJunctions_eq_edge : ofJunctions n = .edge ↔ n = 1 ∨ n = 2 := by
  grind [ofJunctions]

theorem ofJunctions_eq_corner : ofJunctions n = .corner ↔ 3 ≤ n := by
  grind [ofJunctions]

end VertexKind

/-! ## Sides -/

namespace CellEdge

/-- Whether an edge joins two corners, in either order. -/
def Joins (e : CellEdge) (c d : Corner) : Prop := e.ends = (c, d) ∨ e.ends = (d, c)

instance (e : CellEdge) (c d : Corner) : Decidable (e.Joins c d) := inferInstanceAs (Decidable (_ ∨ _))

end CellEdge

namespace Face

/-- The edges around a face, from each of its corners to the next. -/
def sides : Face → Vector CellEdge 4
  | left => #v[.leftBottom, .leftFront, .leftTop, .leftBack]
  | right => #v[.rightBottom, .rightFront, .rightTop, .rightBack]
  | back => #v[.backBottom, .rightBack, .backTop, .leftBack]
  | front => #v[.frontBottom, .rightFront, .frontTop, .leftFront]
  | bottom => #v[.backBottom, .rightBottom, .frontBottom, .leftBottom]
  | top => #v[.backTop, .rightTop, .frontTop, .leftTop]

theorem sides_join (f : Face) (i : Fin 4) : (f.sides.get i).Joins (f.corners.get i) (f.corners.get (i + 1)) := by
  revert i
  cases f <;> decide

theorem mem_all (f : Face) : f ∈ all := by
  cases f <;> decide

/-- Every edge is a side of some face. -/
theorem exists_side (e : CellEdge) : ∃ f : Face, e ∈ f.sides.toList := by
  have htable : ∀ e ∈ CellEdge.all, ∃ f ∈ all, e ∈ f.sides.toList := by decide
  obtain ⟨f, -, hf⟩ := htable e e.mem_all
  exact ⟨f, hf⟩

end Face

namespace CornerLabels

variable {labels other : CornerLabels}

theorem crosses_of_joins {e : CellEdge} {c d : Corner} (h : e.Joins c d) :
    labels.crosses e = decide (labels c ≠ labels d) := by
  rcases h with h | h
  · rw [crosses, h]
  · rw [crosses, h]
    exact decide_eq_decide.2 ne_comm

/-- The number of crossed sides of a face. -/
def crossedSides (labels : CornerLabels) (f : Face) : Nat := f.sides.toList.countP labels.crosses

/-- A side is crossed where the label changes. -/
theorem crossedSides_eq (labels : CornerLabels) (f : Face) : labels.crossedSides f =
    labelChanges (labels (f.corners.get 0)) (labels (f.corners.get 1)) (labels (f.corners.get 2))
      (labels (f.corners.get 3)) := by
  have hlist : f.sides.toList = [f.sides.get 0, f.sides.get 1, f.sides.get 2, f.sides.get 3] := by cases f <;> rfl
  have hside : ∀ i : Fin 4, labels.crosses (f.sides.get i) =
      decide (labels (f.corners.get i) ≠ labels (f.corners.get (i + 1))) :=
    fun i => crosses_of_joins (f.sides_join i)
  have h₀ : labels.crosses (f.sides.get 0) = decide (labels (f.corners.get 0) ≠ labels (f.corners.get 1)) := hside 0
  have h₁ : labels.crosses (f.sides.get 1) = decide (labels (f.corners.get 1) ≠ labels (f.corners.get 2)) := hside 1
  have h₂ : labels.crosses (f.sides.get 2) = decide (labels (f.corners.get 2) ≠ labels (f.corners.get 3)) := hside 2
  have h₃ : labels.crosses (f.sides.get 3) = decide (labels (f.corners.get 3) ≠ labels (f.corners.get 0)) := hside 3
  rw [crossedSides, hlist, labelChanges]
  simp only [List.countP_cons, List.countP_nil, h₀, h₁, h₂, h₃, decide_eq_true_eq, ite_not]
  omega

theorem crossedSides_ne_one (labels : CornerLabels) (f : Face) : labels.crossedSides f ≠ 1 := by
  rw [crossedSides_eq]
  exact labelChanges_ne_one

/-- The crossed sides of a face tell how the surfaces cross it. -/
theorem crossing_eq (labels : CornerLabels) (f : Face) : labels.crossing f = .ofChanges (labels.crossedSides f) := by
  rw [crossedSides_eq, ← FaceCrossing.ofLabels_eq]
  rfl

/-! ## The vertex of a cell -/

theorem exists_crossed_face {e : CellEdge} (h : labels.crosses e = true) : ∃ f, labels.crossing f ≠ .none := by
  obtain ⟨f, hf⟩ := Face.exists_side e
  have hpos : 0 < labels.crossedSides f := List.countP_pos_iff.2 ⟨e, hf, h⟩
  refine ⟨f, fun hnone => ?_⟩
  rw [crossing_eq, FaceCrossing.ofChanges_eq_none] at hnone
  omega

theorem classify_of_uncrossed (h : ∀ e, labels.crosses e = false) : labels.classify = .none :=
  if_pos (all_uncrossed_iff.2 h)

/-- A cell with a crossed edge has a vertex. -/
theorem classify_of_crossed {e : CellEdge} (h : labels.crosses e = true) : labels.classify =
    ⟨.ofJunctions labels.junctionCount, labels.crossing, labels.crosses, .ofNat labels.junctionCount⟩ := by
  have hedge : ¬(CellEdge.all.all fun e => !labels.crosses e) = true := by
    rw [all_uncrossed_iff]
    intro hall
    rw [hall e] at h
    cases h
  have hface : ¬(Face.all.all fun f => labels.crossing f = .none) = true := by
    obtain ⟨f, hf⟩ := exists_crossed_face h
    rw [List.all_eq_true]
    intro hall
    exact hf (by simpa using hall f f.mem_all)
  rw [classify, if_neg hedge, if_neg hface]

/-- A cell has one label, or an edge of it is crossed. -/
theorem uncrossed_or_crossed (labels : CornerLabels) :
    (∀ e, labels.crosses e = false) ∨ ∃ e, labels.crosses e = true := by
  by_cases h : ∃ e, labels.crosses e = true
  · exact .inr h
  · exact .inl fun e => by simpa using fun he => h ⟨e, he⟩

theorem uncrossed_iff : (∀ e, labels.crosses e = false) ↔ ∀ c d, labels c = labels d := by
  constructor
  · intro h c d
    rw [eq_of_uncrossed h c, eq_of_uncrossed h d]
  · intro h e
    exact crosses_eq_false_iff.2 (h _ _)

theorem junctionCount_le (labels : CornerLabels) : labels.junctionCount ≤ 6 :=
  List.countP_le_length

theorem junctionCount_of_uncrossed (h : ∀ e, labels.crosses e = false) : labels.junctionCount = 0 := by
  rw [junctionCount, List.countP_eq_zero]
  intro f _
  simp [crossing_of_uncrossed h f]

theorem junctions_classify (labels : CornerLabels) : labels.classify.junctions = .ofNat labels.junctionCount := by
  rcases labels.uncrossed_or_crossed with h | ⟨e, h⟩
  · rw [classify_of_uncrossed h, junctionCount_of_uncrossed h]
    rfl
  · rw [classify_of_crossed h]

/-- The edges determine the classification. -/
theorem classify_congr (h : labels.crosses = other.crosses) : labels.classify = other.classify := by
  have hface : labels.crossing = other.crossing := by
    funext f
    rw [crossing_eq, crossing_eq, crossedSides, crossedSides, h]
  rw [classify, classify, junctionCount, junctionCount, hface, h]

end CornerLabels

/-! ## Flags -/

namespace CellFlag

/-- The number of sides of a face that are crossed. -/
def crossedSides (flag : CellFlag) (f : Face) : Nat := f.sides.toList.countP flag.edge

/-- The number of faces with a junction. -/
def junctionFaces (flag : CellFlag) : Nat := Face.all.countP fun f => flag.face f = .junction

/-- All else that a flag says follows from its edges. -/
structure ToldByEdges (flag : CellFlag) : Prop where
  sides_ne_one : ∀ f, flag.crossedSides f ≠ 1
  face_none : ∀ f, flag.face f = .none ↔ flag.crossedSides f = 0
  face_surface : ∀ f, flag.face f = .surface ↔ flag.crossedSides f = 2
  face_junction : ∀ f, flag.face f = .junction ↔ 3 ≤ flag.crossedSides f
  junctions : flag.junctions.toNat = flag.junctionFaces
  vertex_none : flag.vertex = .none ↔ ∀ e, flag.edge e = false
  vertex_kind : flag.vertex ≠ .none →
    (flag.vertex = .surface ↔ flag.junctionFaces = 0) ∧
      (flag.vertex = .edge ↔ flag.junctionFaces = 1 ∨ flag.junctionFaces = 2) ∧
      (flag.vertex = .corner ↔ 3 ≤ flag.junctionFaces)
  bits_zero : flag.bits = 0 ↔ ∀ e, flag.edge e = false

variable (labels : CornerLabels)

theorem crossedSides_ofLabels (f : Face) : (ofLabels labels).crossedSides f = labels.crossedSides f := by
  rw [crossedSides, CornerLabels.crossedSides]
  congr 1
  exact funext (edge_ofLabels labels)

theorem junctionFaces_ofLabels : (ofLabels labels).junctionFaces = labels.junctionCount := by
  simp only [junctionFaces, CornerLabels.junctionCount, face_ofLabels]

/-- Six faces fit into the three bits of their number. -/
theorem junctions_ofLabels : (ofLabels labels).junctions.toNat = labels.junctionCount := by
  have hfit : ∀ n ≤ 6, ((UInt8.ofNat n).toUInt32 &&& 7).toNat = n := by decide
  rw [ofLabels, Crossings.junctions_pack, CornerLabels.junctions_classify, hfit _ labels.junctionCount_le]

/-- A cell has a vertex if one of its edges is crossed, of the kind that the
junction faces make. -/
theorem vertex_ofLabels : (∀ e, (ofLabels labels).edge e = false) ∧ (ofLabels labels).vertex = .none ∨
    (∃ e, (ofLabels labels).edge e = true) ∧
      (ofLabels labels).vertex = .ofJunctions (ofLabels labels).junctionFaces := by
  simp only [edge_ofLabels, junctionFaces_ofLabels]
  rw [ofLabels, Crossings.vertex_pack]
  rcases labels.uncrossed_or_crossed with h | ⟨e, h⟩
  · exact .inl ⟨h, congrArg Crossings.vertex (CornerLabels.classify_of_uncrossed h)⟩
  · exact .inr ⟨⟨e, h⟩, congrArg Crossings.vertex (CornerLabels.classify_of_crossed h)⟩

/-- The word of a cell without crossed edges is zero, and that of no other. -/
theorem bits_eq_zero_iff : (ofLabels labels).bits = 0 ↔ ∀ e, (ofLabels labels).edge e = false := by
  constructor
  · intro h e
    simp [edge, h]
  · intro h
    simp only [edge_ofLabels] at h
    rw [ofLabels, CornerLabels.classify_of_uncrossed h]
    decide +kernel

theorem toldByEdges_ofLabels : (ofLabels labels).ToldByEdges := by
  have hface : ∀ f, (ofLabels labels).face f = .ofChanges ((ofLabels labels).crossedSides f) := by
    intro f
    rw [face_ofLabels, CornerLabels.crossing_eq, crossedSides_ofLabels]
  have hone : ∀ f, (ofLabels labels).crossedSides f ≠ 1 := by
    intro f
    rw [crossedSides_ofLabels]
    exact labels.crossedSides_ne_one f
  refine ⟨hone, fun f => ?_, fun f => ?_, fun f => ?_, ?_, ?_, fun hne => ?_, bits_eq_zero_iff labels⟩
  · rw [hface, FaceCrossing.ofChanges_eq_none]
  · rw [hface, FaceCrossing.ofChanges_eq_surface]
  · have := hone f
    rw [hface, FaceCrossing.ofChanges_eq_junction]
    omega
  · rw [junctions_ofLabels, junctionFaces_ofLabels]
  · rcases vertex_ofLabels labels with ⟨h, hv⟩ | ⟨⟨e, he⟩, hv⟩
    · exact iff_of_true hv h
    · rw [hv]
      exact iff_of_false VertexKind.ofJunctions_ne_none fun h => by simp [h e] at he
  · rcases vertex_ofLabels labels with ⟨-, hv⟩ | ⟨-, hv⟩
    · exact absurd hv hne
    · rw [hv]
      exact ⟨VertexKind.ofJunctions_eq_surface, VertexKind.ofJunctions_eq_edge, VertexKind.ofJunctions_eq_corner⟩

/-- The sides of a face are edges between its consecutive corners, and the
flag of labelled corners is determined by its edges: they tell all that it
says, a cell with one label has none that is crossed, and flags with the same
edges are the same. -/
theorem ofLabels_told_by_edges (labels : CornerLabels) :
    (∀ (f : Face) (i : Fin 4), (f.sides.get i).Joins (f.corners.get i) (f.corners.get (i + 1))) ∧
      (ofLabels labels).ToldByEdges ∧
      ((∀ e, (ofLabels labels).edge e = false) ↔ ∀ c d, labels c = labels d) ∧
      ∀ other : CornerLabels, (∀ e, (ofLabels other).edge e = (ofLabels labels).edge e) →
        ofLabels other = ofLabels labels := by
  refine ⟨Face.sides_join, toldByEdges_ofLabels labels, ?_, fun other h => ?_⟩
  · simp only [edge_ofLabels]
    exact CornerLabels.uncrossed_iff
  · simp only [edge_ofLabels] at h
    rw [ofLabels, ofLabels, CornerLabels.classify_congr (funext h)]

end CellFlag

end Wireframe
