import Wireframe.AttributeMatrix
import Wireframe.Space.Point
/-!
# Edge geometries

An edge geometry is a list of vertices, three coordinates each, and a list of
edges, each the numbers of its two endpoints, with one attribute matrix for
the vertices and one for the edges.

Lists and matrices can be changed one without the other. `validate` says
whether they fit: endpoints exist, each matrix is as long as its list, and its
arrays are as long as the matrix. A resized list, its matrix and the arrays are
equally long whatever they were before.
-/

namespace Wireframe

/-- The numbers of the two endpoints of an edge. -/
abbrev Link := UInt64 × UInt64

/-- Vertices, edges and their attributes. -/
@[ext]
structure EdgeGeometry (κ : Type) where
  vertices : TupleArray κ
  edges : TupleArray UInt64
  vertexData : AttributeMatrix κ
  edgeData : AttributeMatrix κ
  vertices_width : vertices.width = 3
  edges_width : edges.width = 2

namespace EdgeGeometry

/-- The name of the vertex list among the children of a geometry. -/
def vertexListName : String := "SharedVertexList"

/-- The name of the edge list among the children of a geometry. -/
def edgeListName : String := "SharedEdgeList"

/-- The name of a vertex matrix that was given no other. -/
def vertexDataName : String := "Vertex Data"

/-- The name of an edge matrix that was given no other. -/
def edgeDataName : String := "Edge Data"

variable {κ : Type}

/-! ## Reading -/

/-- The number of vertices. -/
def vertexCount (g : EdgeGeometry κ) : Nat := g.vertices.size

/-- The number of edges. -/
def edgeCount (g : EdgeGeometry κ) : Nat := g.edges.size

/-- The position of a vertex. -/
def vertex? (g : EdgeGeometry κ) (i : Nat) : Option (Point κ) :=
  (g.vertices.tuple? i).bind Point.ofList?

/-- The endpoints that a tuple of the edge list holds. -/
def linkOfList? : List UInt64 → Option Link
  | [a, b] => some (a, b)
  | _ => none

/-- The endpoints of an edge. -/
def edge? (g : EdgeGeometry κ) (i : Nat) : Option Link := (g.edges.tuple? i).bind linkOfList?

/-- The positions of all vertices. -/
def points (g : EdgeGeometry κ) : List (Point κ) := g.vertices.tuples.filterMap Point.ofList?

/-- The endpoints of all edges. -/
def links (g : EdgeGeometry κ) : List Link := g.edges.tuples.filterMap linkOfList?

/-- The first edge with an endpoint that does not exist, and that endpoint. -/
def badEndpoint? (g : EdgeGeometry κ) : Option (Nat × UInt64) :=
  g.links.zipIdx.findSome? fun (l, e) =>
    if g.vertexCount ≤ l.1.toNat then some (e, l.1)
    else if g.vertexCount ≤ l.2.toNat then some (e, l.2)
    else none

/-! ## Checks -/

/-- A matrix for a list of a given length is as long as the list and in step. -/
def checkMatrix (m : AttributeMatrix κ) (size : Nat) : Except Error Unit :=
  if m.size = size then m.validate
  else .error (.tupleCountMismatch "EdgeGeometry" m.name size m.size)

/-- The first part that does not fit the others is reported: edges, then the
vertex matrix, then the edge matrix. -/
def validate (g : EdgeGeometry κ) : Except Error Unit :=
  match g.badEndpoint? with
  | some (e, v) => .error (.invalidVertexIndex e v g.vertexCount)
  | none => do
    checkMatrix g.vertexData g.vertexCount
    checkMatrix g.edgeData g.edgeCount

/-- The check of a geometry that promises to fit together. -/
def assertFits (g : EdgeGeometry κ) : Except Abort Unit := assertValid "EdgeGeometry" g.validate

/-! ## Making geometries -/

/-- The geometry over two lists, without attributes. -/
def ofArrays (vertices : TupleArray κ) (edges : TupleArray UInt64) :
    Except Error (EdgeGeometry κ) :=
  if hv : vertices.width = 3 then
    if he : edges.width = 2 then
      .ok {
        vertices := vertices
        edges := edges
        vertexData := .empty vertexDataName vertices.size
        edgeData := .empty edgeDataName edges.size
        vertices_width := hv
        edges_width := he }
    else .error (.widthMismatch edgeListName 2 edges.width)
  else .error (.widthMismatch vertexListName 3 vertices.width)

theorem length_flatMap_toList (ps : List (Point κ)) : (ps.flatMap Point.toList).length = ps.length * 3 := by
  induction ps with
  | nil => rfl
  | cons p ps ih => simp [ih, Point.toList]; omega

/-- A vertex list with given positions. -/
def vertexList (ps : List (Point κ)) : TupleArray κ :=
  ⟨3, ps.flatMap Point.toList, by decide, by rw [length_flatMap_toList]; exact Nat.dvd_mul_left _ _⟩

theorem length_flatMap_ends (ls : List Link) : (ls.flatMap fun l => [l.1, l.2]).length = ls.length * 2 := by
  induction ls with
  | nil => rfl
  | cons l ls ih => simp [ih]; omega

/-- An edge list with given endpoints. -/
def edgeList (ls : List Link) : TupleArray UInt64 :=
  ⟨2, ls.flatMap fun l => [l.1, l.2], by decide, by rw [length_flatMap_ends]; exact Nat.dvd_mul_left _ _⟩

/-- The geometry with given positions and endpoints, without attributes. -/
def ofLists (ps : List (Point κ)) (ls : List Link) : EdgeGeometry κ where
  vertices := vertexList ps
  edges := edgeList ls
  vertexData := .empty vertexDataName (vertexList ps).size
  edgeData := .empty edgeDataName (edgeList ls).size
  vertices_width := rfl
  edges_width := rfl

/-! ## Changing parts -/

/-- Takes another vertex matrix, if it fits the vertex list. -/
def withVertexData (g : EdgeGeometry κ) (m : AttributeMatrix κ) : Except Error (EdgeGeometry κ) := do
  checkMatrix m g.vertexCount
  return { g with vertexData := m }

/-- Takes another edge matrix, if it fits the edge list. -/
def withEdgeData (g : EdgeGeometry κ) (m : AttributeMatrix κ) : Except Error (EdgeGeometry κ) := do
  checkMatrix m g.edgeCount
  return { g with edgeData := m }

/-- Takes another vertex list, of whatever length, and leaves its matrix alone. -/
def withVertices (g : EdgeGeometry κ) (a : TupleArray κ) : Except Error (EdgeGeometry κ) :=
  if h : a.width = 3 then .ok { g with vertices := a, vertices_width := h }
  else .error (.widthMismatch vertexListName 3 a.width)

/-- Takes another edge list, of whatever length, and leaves its matrix alone. -/
def withEdges (g : EdgeGeometry κ) (a : TupleArray UInt64) : Except Error (EdgeGeometry κ) :=
  if h : a.width = 2 then .ok { g with edges := a, edges_width := h }
  else .error (.widthMismatch edgeListName 2 a.width)

/-- Puts vertices with given positions in the place of all, and leaves their matrix alone. -/
def setPoints (g : EdgeGeometry κ) (ps : List (Point κ)) : EdgeGeometry κ :=
  { g with vertices := vertexList ps, vertices_width := rfl }

/-- Puts edges with given endpoints in the place of all, and leaves their matrix alone. -/
def setLinks (g : EdgeGeometry κ) (ls : List Link) : EdgeGeometry κ :=
  { g with edges := edgeList ls, edges_width := rfl }

variable [Coordinate κ]

/-- The geometry with its vertex list, the matrix and the arrays there resized. -/
def resizedVertices (g : EdgeGeometry κ) (size : Nat) : EdgeGeometry κ :=
  { g with
    vertices := g.vertices.resized Coordinate.zero size
    vertexData := g.vertexData.resized size
    vertices_width := g.vertices_width }

/-- The geometry with its edge list, the matrix and the arrays there resized. -/
def resizedEdges (g : EdgeGeometry κ) (size : Nat) : EdgeGeometry κ :=
  { g with
    edges := g.edges.resized 0 size
    edgeData := g.edgeData.resized size
    edges_width := g.edges_width }

/-- A geometry without vertices and edges, with the same attribute layout. No
tuples need no values, and so there is always room for them. -/
def emptyLike (g : EdgeGeometry κ) : EdgeGeometry κ where
  vertices := g.vertices.blank Coordinate.zero 0
  edges := g.edges.blank 0 0
  vertexData := g.vertexData.blank 0
  edgeData := g.edgeData.blank 0
  vertices_width := g.vertices_width
  edges_width := g.edges_width

/-- Whether two geometries have the same lists and matrices. -/
def same (g h : EdgeGeometry κ) : Bool :=
  g.vertices.sameBy Coordinate.same h.vertices && g.edges.sameBy (· == ·) h.edges
    && g.vertexData.same h.vertexData && g.edgeData.same h.edgeData

end EdgeGeometry

end Wireframe
