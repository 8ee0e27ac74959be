import Wireframe.LooseGeometry
import Wireframe.Proofs.EdgeGeometry
/-!
# Resizing puts in step, where there is room

A list, its matrix and the arrays there may have come to any sizes. Resizing
looks at none of them: each is cut or filled up to the new size by itself, so
that what there was of it stays in front. The check after it always passes,
and a geometry that was resized on both sides can have no other fault than an
edge whose vertex does not exist.

All this holds if the list and each of the arrays can have that many tuples.
The number of values is a product of two counts that no one looked at before,
and where it is no count itself the program ends without having resized.
-/

namespace Wireframe

/-! ## Lists, arrays and matrices -/

/-- `b` has `n` tuples, those of `a` as far as they go and then such of one value. -/
structure TupleArray.ResizedTo {α : Type} (value : α) (n : Nat) (a b : TupleArray α) : Prop where
  width : b.width = a.width
  size : b.size = n
  tuples : b.tuples = a.tuples.take n ++ .replicate (n - a.size) (.replicate a.width value)

theorem TupleArray.resizedTo {α : Type} (value : α) (a : TupleArray α) (n : Nat) :
    a.ResizedTo value n (a.resized value n) where
  width := rfl
  size := size_resized value a n
  tuples := tuples_resized value a n

variable {κ : Type} [Coordinate κ]

/-- The array keeps its element type and is filled up with zeros. -/
def TypedArray.ResizedTo (n : Nat) (a b : TypedArray κ) : Prop :=
  ∃ array, b = ⟨a.type, array⟩ ∧ a.array.ResizedTo a.type.zero n array

/-- Each array is resized from its own size, whatever that of the matrix was. -/
structure AttributeMatrix.ResizedTo (n : Nat) (m r : AttributeMatrix κ) : Prop where
  name : r.name = m.name
  size : r.size = n
  names : r.names = m.names
  array : ∀ k a, m.arrays.find? k = some a → ∃ b, r.arrays.find? k = some b ∧ a.ResizedTo n b

theorem AttributeMatrix.resizedTo (m : AttributeMatrix κ) (n : Nat) : m.ResizedTo n (m.resized n) where
  name := rfl
  size := rfl
  names := names_resized m n
  array k a h := ⟨a.resized n, by rw [find?_resized, h, Option.map_some], _, rfl, a.array.resizedTo _ n⟩

theorem AttributeMatrix.checkMatrix_resized (m : AttributeMatrix κ) (n : Nat) :
    EdgeGeometry.checkMatrix (m.resized n) n = .ok () :=
  EdgeGeometry.checkMatrix_eq_ok.2 ⟨rfl, inStep_resized m n⟩

/-! ## Geometries -/

namespace LooseGeometry

variable {g : LooseGeometry κ} {n k : Nat}

/-- The vertices and their matrix are resized and the rest is as it was. -/
structure VerticesResizedTo (n : Nat) (g h : LooseGeometry κ) : Prop where
  vertices : g.vertices.ResizedTo Coordinate.zero n h.vertices
  vertexData : g.vertexData.ResizedTo n h.vertexData
  edges : h.edges = g.edges
  edgeData : h.edgeData = g.edgeData

/-- The edges and their matrix are resized and the rest is as it was. -/
structure EdgesResizedTo (n : Nat) (g h : LooseGeometry κ) : Prop where
  edges : g.edges.ResizedTo 0 n h.edges
  edgeData : g.edgeData.ResizedTo n h.edgeData
  vertices : h.vertices = g.vertices
  vertexData : h.vertexData = g.vertexData

theorem verticesResizedTo (g : LooseGeometry κ) (n : Nat) : g.VerticesResizedTo n (g.resizedVertices n) :=
  ⟨g.vertices.resizedTo _ n, g.vertexData.resizedTo n, rfl, rfl⟩

theorem edgesResizedTo (g : LooseGeometry κ) (n : Nat) : g.EdgesResizedTo n (g.resizedEdges n) :=
  ⟨g.edges.resizedTo _ n, g.edgeData.resizedTo n, rfl, rfl⟩

/-- Vertices for which there is room are resized without a check that fails. -/
theorem resizeVertices_of_room (h : g.HasVertexRoom n) : g.resizeVertices n = (.ok (), g.resizedVertices n) := by
  unfold resizeVertices
  rw [TupleArray.resize_eq, if_pos h.1]
  dsimp only
  rw [AttributeMatrix.resize_of_hasRoom h.2]
  rfl

/-- Edges for which there is room are resized without a check that fails. -/
theorem resizeEdges_of_room (h : g.HasEdgeRoom n) : g.resizeEdges n = (.ok (), g.resizedEdges n) := by
  unfold resizeEdges
  rw [TupleArray.resize_eq, if_pos h.1]
  dsimp only
  rw [AttributeMatrix.resize_of_hasRoom h.2]
  rfl

/-- Vertices for which there is no room end the program, and the edges do not
come to know. -/
theorem resizeVertices_of_no_room (h : ¬g.HasVertexRoom n) : ∃ r, g.resizeVertices n = (.error (.fault .overflow), r) ∧
    r.edges = g.edges ∧ r.edgeData = g.edgeData := by
  unfold resizeVertices
  rw [TupleArray.resize_eq]
  by_cases hlist : n * g.vertices.width ≤ maxCount
  · obtain ⟨m, hm, -⟩ := AttributeMatrix.resize_of_not_hasRoom fun hroom => h ⟨hlist, hroom⟩
    rw [if_pos hlist]
    dsimp only
    rw [hm]
    exact ⟨_, rfl, rfl, rfl⟩
  · rw [if_neg hlist]
    exact ⟨g, rfl, rfl, rfl⟩

/-- Edges for which there is no room end the program, and the vertices do not
come to know. -/
theorem resizeEdges_of_no_room (h : ¬g.HasEdgeRoom n) : ∃ r, g.resizeEdges n = (.error (.fault .overflow), r) ∧
    r.vertices = g.vertices ∧ r.vertexData = g.vertexData := by
  unfold resizeEdges
  rw [TupleArray.resize_eq]
  by_cases hlist : n * g.edges.width ≤ maxCount
  · obtain ⟨m, hm, -⟩ := AttributeMatrix.resize_of_not_hasRoom fun hroom => h ⟨hlist, hroom⟩
    rw [if_pos hlist]
    dsimp only
    rw [hm]
    exact ⟨_, rfl, rfl, rfl⟩
  · rw [if_neg hlist]
    exact ⟨g, rfl, rfl, rfl⟩

/-- With room on both sides both are resized. -/
theorem resizeBoth_of_room (hv : g.HasVertexRoom n) (he : g.HasEdgeRoom k) :
    g.resizeBoth n k = (.ok (), (g.resizedVertices n).resizedEdges k) := by
  -- the edges have the same room after the vertices were resized
  have he' : (g.resizedVertices n).HasEdgeRoom k := he
  unfold resizeBoth
  rw [resizeVertices_of_room hv]
  exact resizeEdges_of_room he'

/-- Without room on one of the sides the program ends. -/
theorem resizeBoth_of_no_room (h : ¬(g.HasVertexRoom n ∧ g.HasEdgeRoom k)) :
    ∃ r, g.resizeBoth n k = (.error (.fault .overflow), r) := by
  unfold resizeBoth
  by_cases hv : g.HasVertexRoom n
  · have he : ¬(g.resizedVertices n).HasEdgeRoom k := fun he => h ⟨hv, he⟩
    obtain ⟨r, hr, -⟩ := resizeEdges_of_no_room he
    rw [resizeVertices_of_room hv]
    exact ⟨r, hr⟩
  · obtain ⟨r, hr, -⟩ := resizeVertices_of_no_room hv
    rw [hr]
    exact ⟨r, rfl⟩

omit [Coordinate κ] in
/-- With both matrices in step with their lists only an edge can be wrong. -/
theorem validate_eq_error {e : Error}
    (hv : EdgeGeometry.checkMatrix g.vertexData g.vertices.size = .ok ())
    (he : EdgeGeometry.checkMatrix g.edgeData g.edges.size = .ok ()) (h : g.validate = .error e) :
    ∃ edge v, e = .invalidVertexIndex edge v g.vertices.size := by
  unfold validate at h
  split at h
  next edge v _ =>
    cases h
    exact ⟨edge, v, rfl⟩
  next =>
    rw [hv, he] at h
    cases h

/-- A geometry resized on both sides can be wrong in an edge only. -/
theorem validate_resized {e : Error} (h : ((g.resizedVertices n).resizedEdges k).validate = .error e) :
    ∃ edge v, e = .invalidVertexIndex edge v n := by
  have hn : ((g.resizedVertices n).resizedEdges k).vertices.size = n := TupleArray.size_resized _ _ n
  have hk : ((g.resizedVertices n).resizedEdges k).edges.size = k := TupleArray.size_resized _ _ k
  have hbad := validate_eq_error (hn.symm ▸ g.vertexData.checkMatrix_resized n)
    (hk.symm ▸ g.edgeData.checkMatrix_resized k) h
  rwa [hn] at hbad

/-! ## The parts of an edge geometry -/

/-- An edge geometry is resized as its parts are. -/
theorem exists_resizeBoth (g : EdgeGeometry κ) (n k : Nat) : ∃ h, g.resizeBoth n k = ((g.loose.resizeBoth n k).1, h) ∧
    h.loose = (g.loose.resizeBoth n k).2 :=
  ⟨_, rfl, rfl⟩

/-! ## What resizing repairs -/

/-- Whatever state a geometry is in, either side is resized if there is room for
it, without a check that fails. Without room the program ends in an overflow.
The other side is not touched in either case. After both, in either order, only
an edge that names no vertex is left to complain about. -/
theorem resize_repairs (g : LooseGeometry κ) (n k : Nat) :
    ((g.HasVertexRoom n → ∃ h, g.resizeVertices n = (.ok (), h) ∧ g.VerticesResizedTo n h) ∧
        (¬g.HasVertexRoom n → ∃ h, g.resizeVertices n = (.error (.fault .overflow), h) ∧
          h.edges = g.edges ∧ h.edgeData = g.edgeData)) ∧
      ((g.HasEdgeRoom k → ∃ h, g.resizeEdges k = (.ok (), h) ∧ g.EdgesResizedTo k h) ∧
        (¬g.HasEdgeRoom k → ∃ h, g.resizeEdges k = (.error (.fault .overflow), h) ∧
          h.vertices = g.vertices ∧ h.vertexData = g.vertexData)) ∧
      (g.HasVertexRoom n → g.HasEdgeRoom k → ∃ h, (g.resizeVertices n).2.resizeEdges k = (.ok (), h) ∧
        (g.resizeEdges k).2.resizeVertices n = (.ok (), h) ∧
        ∀ e, h.validate = .error e → ∃ edge v, e = .invalidVertexIndex edge v n) := by
  refine ⟨⟨fun hv => ⟨_, resizeVertices_of_room hv, g.verticesResizedTo n⟩, resizeVertices_of_no_room⟩,
    ⟨fun he => ⟨_, resizeEdges_of_room he, g.edgesResizedTo k⟩, resizeEdges_of_no_room⟩, fun hv he => ?_⟩
  have he' : (g.resizedVertices n).HasEdgeRoom k := he
  have hv' : (g.resizedEdges k).HasVertexRoom n := hv
  refine ⟨(g.resizedVertices n).resizedEdges k, ?_, ?_, fun e h => validate_resized h⟩
  · rw [resizeVertices_of_room hv]
    exact resizeEdges_of_room he'
  · rw [resizeEdges_of_room he]
    exact resizeVertices_of_room hv'

/-- Pairs for vertices, an edge that leads to none of them, and a vertex matrix
that fits neither its list nor its array. -/
def unkempt : LooseGeometry Float32 where
  vertices := ⟨2, [1, 2, 3, 4], Nat.two_pos, by decide⟩
  edges := ⟨2, [0, 7], Nat.two_pos, by decide⟩
  vertexData := ⟨"Vertex Data", 5,
    ⟨[("Ids", ⟨.i32, 1, [10, 11, 12], Nat.one_pos, by decide⟩)], List.pairwise_singleton _ _⟩⟩
  edgeData := .empty "Edge Data" 0

theorem resize_repairs_unkempt :
    unkempt.vertexData.validate = .error (.tupleCountMismatch "Vertex Data" "Ids" 5 3) ∧
      unkempt.HasVertexRoom 4 ∧ unkempt.HasEdgeRoom 1 ∧
      (∃ h, (unkempt.resizeVertices 4).2.resizeEdges 1 = (.ok (), h) ∧
        h.validate = .error (.invalidVertexIndex 0 7 4) ∧
        ∃ edge v, Error.invalidVertexIndex 0 7 4 = .invalidVertexIndex edge v 4) ∧
      ¬unkempt.HasEdgeRoom halfSize ∧ ∃ h, unkempt.resizeEdges halfSize = (.error (.fault .overflow), h) ∧
        h.vertices = unkempt.vertices ∧ h.vertexData = unkempt.vertexData := by
  have hv : unkempt.HasVertexRoom 4 := by decide
  have he : unkempt.HasEdgeRoom 1 := by decide
  have hno : ¬unkempt.HasEdgeRoom halfSize := by decide
  obtain ⟨-, -, hboth⟩ := resize_repairs unkempt 4 1
  obtain ⟨-, ⟨-, hover⟩, -⟩ := resize_repairs unkempt 4 halfSize
  obtain ⟨h, hrun, -, hfault⟩ := hboth hv he
  have hresized : (unkempt.resizeVertices 4).2.resizeEdges 1 =
      (.ok (), (unkempt.resizedVertices 4).resizedEdges 1) := by
    rw [resizeVertices_of_room hv]
    exact resizeEdges_of_room (by decide)
  obtain rfl : (unkempt.resizedVertices 4).resizedEdges 1 = h := congrArg Prod.snd (hresized.symm.trans hrun)
  have hbad : ((unkempt.resizedVertices 4).resizedEdges 1).validate = .error (.invalidVertexIndex 0 7 4) := rfl
  exact ⟨rfl, hv, he, ⟨_, hrun, hbad, hfault _ hbad⟩, hno, hover hno⟩

/-- Pairs cannot be as many as half of all counts, and so a list of edges is not
resized to that size. It stays with its one edge. -/
theorem resizeEdges_overflows :
    unkempt.resizeEdges halfSize = (.error (.fault .overflow), unkempt) ∧ unkempt.edges.size = 1 := by
  have hlist : ¬halfSize * unkempt.edges.width ≤ maxCount := by decide
  refine ⟨?_, rfl⟩
  unfold resizeEdges
  rw [TupleArray.resize_eq, if_neg hlist]

end LooseGeometry

end Wireframe
