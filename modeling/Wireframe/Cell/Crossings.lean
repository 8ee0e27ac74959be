import Wireframe.Cell.Basic
/-!
# How a surface crosses a cell

The labels at the corners of a cell decide where the surfaces between
differently labelled regions run through it. An edge is crossed if its ends
have different labels. A face is crossed by one surface if its corners have
two labels in two connected groups; with three labels or more, or two at
alternate corners, surfaces meet on it in a junction. A crossed cell carries a
vertex of the surface, whose kind is told by the number of junction faces.
-/

namespace Wireframe

/-- What the surfaces do on a face. -/
inductive FaceCrossing where
  | none | surface | junction
  deriving DecidableEq, Repr

/-- The vertex of the surfaces in a cell. -/
inductive VertexKind where
  | none | surface | edge | corner
  deriving DecidableEq, Repr

/-- The labels at the corners of a cell. -/
abbrev CornerLabels := Corner → Int32

/-- How the surfaces cross a cell. -/
@[ext]
structure Crossings where
  vertex : VertexKind
  faces : Face → FaceCrossing
  edges : CellEdge → Bool
  junctions : UInt8

namespace Crossings

/-- The crossings of a cell that no surface crosses. -/
def none : Crossings := ⟨.none, fun _ => .none, fun _ => false, 0⟩

/-- Whether two descriptions are the same. -/
def same (a b : Crossings) : Bool :=
  a.vertex = b.vertex && Face.all.all (fun f => a.faces f = b.faces f)
    && CellEdge.all.all (fun e => a.edges e = b.edges e) && a.junctions = b.junctions

end Crossings

/-! ## Classification -/

/-- How many different labels there are. -/
def distinctLabels : List Int32 → Nat
  | [] => 0
  | l :: rest => distinctLabels rest + if l ∈ rest then 0 else 1

/-- What the surfaces do on a face with these labels around it. -/
def FaceCrossing.ofLabels (a b c d : Int32) : FaceCrossing :=
  match distinctLabels [a, b, c, d] with
  | 1 => .none
  | 2 => if a = c ∧ b = d then .junction else .surface
  | _ => .junction

/-- The vertex of a crossed cell with so many junction faces. -/
def VertexKind.ofJunctions (n : Nat) : VertexKind :=
  if n = 0 then .surface else if n ≤ 2 then .edge else .corner

namespace CornerLabels

/-- Whether the ends of an edge have different labels. -/
def crosses (labels : CornerLabels) (e : CellEdge) : Bool := labels e.ends.1 ≠ labels e.ends.2

/-- What the surfaces do on a face. -/
def crossing (labels : CornerLabels) (f : Face) : FaceCrossing :=
  let around := f.corners
  .ofLabels (labels around[0]) (labels around[1]) (labels around[2]) (labels around[3])

/-- The number of junction faces. -/
def junctionCount (labels : CornerLabels) : Nat :=
  Face.all.countP fun f => labels.crossing f = .junction

/-- How the surfaces cross a cell with these labels. A cell without a crossed
edge has none, and a vertex takes a crossed face. -/
def classify (labels : CornerLabels) : Crossings :=
  if CellEdge.all.all fun e => !labels.crosses e then .none
  else {
    vertex :=
      if Face.all.all fun f => labels.crossing f = .none then .none
      else .ofJunctions labels.junctionCount
    faces := labels.crossing
    edges := labels.crosses
    junctions := .ofNat labels.junctionCount }

end CornerLabels

end Wireframe
