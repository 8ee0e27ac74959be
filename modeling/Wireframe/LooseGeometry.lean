import Wireframe.EdgeGeometry
/-!
# Geometries of which nothing is promised

The parts of an edge geometry as they may stand between two changes: either
list may have been exchanged for one of another length or another width, the
matrices and their arrays may have any sizes, and an edge may name any vertex.

Resizing and checking ask for no more than this. A list is resized before its
matrix. Where there is no room for the new size the program ends on the way,
and each operation says what it leaves behind then. Memory is taken to suffice
for as many values as can be counted.

An edge geometry is a loose one whose lists are three and two wide, and resizing
keeps it so.
-/

namespace Wireframe

/-- The lists and matrices of an edge geometry, in whatever state. -/
@[ext]
structure LooseGeometry (κ : Type) where
  vertices : TupleArray κ
  edges : TupleArray UInt64
  vertexData : AttributeMatrix κ
  edgeData : AttributeMatrix κ

/-- The parts of an edge geometry. -/
def EdgeGeometry.loose {κ : Type} (g : EdgeGeometry κ) : LooseGeometry κ where
  vertices := g.vertices
  edges := g.edges
  vertexData := g.vertexData
  edgeData := g.edgeData

namespace LooseGeometry

variable {κ : Type}

/-- The lists are as wide as those of an edge geometry. -/
structure Tight (g : LooseGeometry κ) : Prop where
  vertices : g.vertices.width = 3
  edges : g.edges.width = 2

/-! ## Checks -/

/-- The first edge with an endpoint that does not exist, and the first such
endpoint. -/
def badEndpoint? (g : LooseGeometry κ) : Option (Nat × UInt64) :=
  g.edges.tuples.zipIdx.findSome? fun (ends, e) =>
    (ends.find? fun v => g.vertices.size ≤ v.toNat).map fun v => (e, v)

/-- The first part that does not fit the others is reported. -/
def validate (g : LooseGeometry κ) : Except Error Unit :=
  match g.badEndpoint? with
  | some (e, v) => .error (.invalidVertexIndex e v g.vertices.size)
  | none => do
    EdgeGeometry.checkMatrix g.vertexData g.vertices.size
    EdgeGeometry.checkMatrix g.edgeData g.edges.size

/-- The check of a geometry that promises to fit together. -/
def assertFits (g : LooseGeometry κ) : Except Abort Unit := assertValid "EdgeGeometry" g.validate

/-! ## Resizing -/

/-- The vertex list and the arrays there can have that many tuples. -/
def HasVertexRoom (g : LooseGeometry κ) (size : Nat) : Prop :=
  size * g.vertices.width ≤ maxCount ∧ g.vertexData.HasRoom size

/-- The edge list and the arrays there can have that many tuples. -/
def HasEdgeRoom (g : LooseGeometry κ) (size : Nat) : Prop :=
  size * g.edges.width ≤ maxCount ∧ g.edgeData.HasRoom size

instance (g : LooseGeometry κ) (size : Nat) : Decidable (g.HasVertexRoom size) :=
  inferInstanceAs (Decidable (_ ∧ _))

instance (g : LooseGeometry κ) (size : Nat) : Decidable (g.HasEdgeRoom size) :=
  inferInstanceAs (Decidable (_ ∧ _))

variable [Coordinate κ]

/-- Resizes the vertex list and then its matrix. -/
def resizeVertices (g : LooseGeometry κ) (size : Nat) : Except Abort Unit × LooseGeometry κ :=
  match g.vertices.resize Coordinate.zero size with
  | .error f => (.error (.fault f), g)
  | .ok vertices =>
    let (result, vertexData) := g.vertexData.resize size
    (result, { g with vertices, vertexData })

/-- Resizes the edge list and then its matrix. -/
def resizeEdges (g : LooseGeometry κ) (size : Nat) : Except Abort Unit × LooseGeometry κ :=
  match g.edges.resize 0 size with
  | .error f => (.error (.fault f), g)
  | .ok edges =>
    let (result, edgeData) := g.edgeData.resize size
    (result, { g with edges, edgeData })

/-- Resizes the vertices and then the edges. -/
def resizeBoth (g : LooseGeometry κ) (vertexCount edgeCount : Nat) : Except Abort Unit × LooseGeometry κ :=
  match g.resizeVertices vertexCount with
  | (.error a, h) => (.error a, h)
  | (.ok (), h) => h.resizeEdges edgeCount

/-- The geometry with its vertices and their matrix resized. -/
def resizedVertices (g : LooseGeometry κ) (size : Nat) : LooseGeometry κ :=
  { g with vertices := g.vertices.resized Coordinate.zero size, vertexData := g.vertexData.resized size }

/-- The geometry with its edges and their matrix resized. -/
def resizedEdges (g : LooseGeometry κ) (size : Nat) : LooseGeometry κ :=
  { g with edges := g.edges.resized 0 size, edgeData := g.edgeData.resized size }

/-! ## Widths -/

variable {g : LooseGeometry κ}

theorem Tight.resizeVertices (h : g.Tight) (size : Nat) : (g.resizeVertices size).2.Tight := by
  unfold LooseGeometry.resizeVertices TupleArray.resize
  rw [Checked.map_count]
  by_cases hc : size * g.vertices.width ≤ maxCount
  · rw [if_pos hc]
    exact ⟨h.vertices, h.edges⟩
  · rw [if_neg hc]
    exact h

theorem Tight.resizeEdges (h : g.Tight) (size : Nat) : (g.resizeEdges size).2.Tight := by
  unfold LooseGeometry.resizeEdges TupleArray.resize
  rw [Checked.map_count]
  by_cases hc : size * g.edges.width ≤ maxCount
  · rw [if_pos hc]
    exact ⟨h.vertices, h.edges⟩
  · rw [if_neg hc]
    exact h

theorem Tight.resizeBoth (h : g.Tight) (vertexCount edgeCount : Nat) :
    (g.resizeBoth vertexCount edgeCount).2.Tight := by
  unfold LooseGeometry.resizeBoth
  have hv := h.resizeVertices vertexCount
  split
  next hr =>
    rw [hr] at hv
    exact hv
  next hr =>
    rw [hr] at hv
    exact hv.resizeEdges edgeCount

end LooseGeometry

namespace EdgeGeometry

variable {κ : Type}

/-- The edge geometry of parts that are as wide as they have to be. -/
def ofLoose (g : LooseGeometry κ) (h : g.Tight) : EdgeGeometry κ :=
  ⟨g.vertices, g.edges, g.vertexData, g.edgeData, h.vertices, h.edges⟩

theorem tight_loose (g : EdgeGeometry κ) : g.loose.Tight := ⟨g.vertices_width, g.edges_width⟩

variable [Coordinate κ]

/-- Resizes the vertex list, its matrix and the arrays there. -/
def resizeVertices (g : EdgeGeometry κ) (size : Nat) : Except Abort Unit × EdgeGeometry κ :=
  ((g.loose.resizeVertices size).1, ofLoose _ (g.tight_loose.resizeVertices size))

/-- Resizes the edge list, its matrix and the arrays there. -/
def resizeEdges (g : EdgeGeometry κ) (size : Nat) : Except Abort Unit × EdgeGeometry κ :=
  ((g.loose.resizeEdges size).1, ofLoose _ (g.tight_loose.resizeEdges size))

/-- Resizes the vertices and then the edges. -/
def resizeBoth (g : EdgeGeometry κ) (vertexCount edgeCount : Nat) : Except Abort Unit × EdgeGeometry κ :=
  ((g.loose.resizeBoth vertexCount edgeCount).1, ofLoose _ (g.tight_loose.resizeBoth vertexCount edgeCount))

end EdgeGeometry

end Wireframe
