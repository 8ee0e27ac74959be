import Wireframe.EdgeGeometry
import Wireframe.Proofs.AttributeMatrix
import Wireframe.Proofs.Lists
/-!
# Vertices and edges by number

`points` and `links` list what `vertex?` and `edge?` answer, for the widths
of the two lists are part of a geometry. A list made from given positions or
endpoints holds exactly these. `validate` accepts a geometry when every
endpoint is a vertex and both matrices are in step with their lists.
-/

namespace Wireframe

theorem Point.isSome_ofList? {κ : Type} {l : List κ} (h : l.length = 3) : (Point.ofList? l).isSome := by
  obtain ⟨x, y, z, rfl⟩ := List.length_eq_three.1 h
  rfl

namespace EdgeGeometry

variable {κ : Type}

theorem isSome_linkOfList? {l : List UInt64} (h : l.length = 2) : (linkOfList? l).isSome := by
  obtain ⟨a, b, rfl⟩ := List.length_eq_two.1 h
  rfl

/-! ## Listing -/

theorem isSome_point (g : EdgeGeometry κ) : ∀ t ∈ g.vertices.tuples, (Point.ofList? t).isSome :=
  fun _ ht => Point.isSome_ofList? ((TupleArray.length_of_mem_tuples ht).trans g.vertices_width)

theorem isSome_link (g : EdgeGeometry κ) : ∀ t ∈ g.edges.tuples, (linkOfList? t).isSome :=
  fun _ ht => isSome_linkOfList? ((TupleArray.length_of_mem_tuples ht).trans g.edges_width)

theorem tuples_vertices (g : EdgeGeometry κ) : g.vertices.tuples = g.points.map Point.toList := by
  refine eq_map_of_map_some (map_some_filterMap g.isSome_point) fun t p h => ?_
  unfold Point.ofList? at h
  split at h
  · cases h
    rfl
  · cases h

theorem tuples_edges (g : EdgeGeometry κ) : g.edges.tuples = g.links.map fun l => [l.1, l.2] := by
  refine eq_map_of_map_some (map_some_filterMap g.isSome_link) fun t l h => ?_
  unfold linkOfList? at h
  split at h
  · cases h
    rfl
  · cases h

theorem length_points (g : EdgeGeometry κ) : g.points.length = g.vertexCount := by
  rw [points, length_of_map_some (map_some_filterMap g.isSome_point), TupleArray.length_tuples, vertexCount]

theorem length_links (g : EdgeGeometry κ) : g.links.length = g.edgeCount := by
  rw [links, length_of_map_some (map_some_filterMap g.isSome_link), TupleArray.length_tuples, edgeCount]

theorem getElem?_points (g : EdgeGeometry κ) (i : Nat) : g.points[i]? = g.vertex? i := by
  rw [points, getElem?_of_map_some (map_some_filterMap g.isSome_point), TupleArray.getElem?_tuples, vertex?]

theorem getElem?_links (g : EdgeGeometry κ) (i : Nat) : g.links[i]? = g.edge? i := by
  rw [links, getElem?_of_map_some (map_some_filterMap g.isSome_link), TupleArray.getElem?_tuples, edge?]

theorem vertex?_eq_none {g : EdgeGeometry κ} {i : Nat} : g.vertex? i = none ↔ g.vertexCount ≤ i := by
  rw [← getElem?_points, List.getElem?_eq_none_iff, length_points]

theorem edge?_eq_none {g : EdgeGeometry κ} {j : Nat} : g.edge? j = none ↔ g.edgeCount ≤ j := by
  rw [← getElem?_links, List.getElem?_eq_none_iff, length_links]

theorem mem_points {g : EdgeGeometry κ} {p : Point κ} : p ∈ g.points ↔ ∃ v, g.vertex? v = some p := by
  simp only [List.mem_iff_getElem?, getElem?_points]

theorem mem_links {g : EdgeGeometry κ} {l : Link} : l ∈ g.links ↔ ∃ e, g.edge? e = some l := by
  simp only [List.mem_iff_getElem?, getElem?_links]

theorem lt_vertexCount {g : EdgeGeometry κ} {i : Nat} {p : Point κ} (h : g.vertex? i = some p) :
    i < g.vertexCount := by
  rw [← getElem?_points] at h
  exact g.length_points ▸ (List.getElem?_eq_some_iff.1 h).1

theorem exists_vertex? {g : EdgeGeometry κ} {i : Nat} (h : i < g.vertexCount) : ∃ p, g.vertex? i = some p := by
  rw [← g.length_points] at h
  exact ⟨_, (g.getElem?_points i).symm.trans (List.getElem?_eq_getElem h)⟩

theorem lt_edgeCount {g : EdgeGeometry κ} {i : Nat} {l : Link} (h : g.edge? i = some l) :
    i < g.edgeCount := by
  rw [← getElem?_links] at h
  exact g.length_links ▸ (List.getElem?_eq_some_iff.1 h).1

theorem exists_edge? {g : EdgeGeometry κ} {i : Nat} (h : i < g.edgeCount) : ∃ l, g.edge? i = some l := by
  rw [← g.length_links] at h
  exact ⟨_, (g.getElem?_links i).symm.trans (List.getElem?_eq_getElem h)⟩

/-! ## Making lists -/

theorem width_vertexList (ps : List (Point κ)) : (vertexList ps).width = 3 := rfl

theorem width_edgeList (ls : List Link) : (edgeList ls).width = 2 := rfl

theorem tuples_vertexList (ps : List (Point κ)) : (vertexList ps).tuples = ps.map Point.toList := by
  have h : ∀ t ∈ ps.map Point.toList, t.length = 3 := by
    intro t ht
    obtain ⟨p, -, rfl⟩ := List.mem_map.1 ht
    rfl
  have he : vertexList ps = TupleArray.ofTuples 3 _ (by decide) h :=
    TupleArray.ext rfl List.flatMap_def
  rw [he, TupleArray.tuples_ofTuples]

theorem tuples_edgeList (ls : List Link) : (edgeList ls).tuples = ls.map fun l => [l.1, l.2] := by
  have h : ∀ t ∈ ls.map fun l => [l.1, l.2], t.length = 2 := by
    intro t ht
    obtain ⟨l, -, rfl⟩ := List.mem_map.1 ht
    rfl
  have he : edgeList ls = TupleArray.ofTuples 2 _ (by decide) h :=
    TupleArray.ext rfl List.flatMap_def
  rw [he, TupleArray.tuples_ofTuples]

theorem size_vertexList (ps : List (Point κ)) : (vertexList ps).size = ps.length := by
  rw [← TupleArray.length_tuples, tuples_vertexList, List.length_map]

theorem size_edgeList (ls : List Link) : (edgeList ls).size = ls.length := by
  rw [← TupleArray.length_tuples, tuples_edgeList, List.length_map]

theorem points_of_vertices {g : EdgeGeometry κ} {ps : List (Point κ)} (h : g.vertices = vertexList ps) :
    g.points = ps := by
  rw [points, h, tuples_vertexList, List.filterMap_map]
  exact List.filterMap_some

theorem links_of_edges {g : EdgeGeometry κ} {ls : List Link} (h : g.edges = edgeList ls) :
    g.links = ls := by
  rw [links, h, tuples_edgeList, List.filterMap_map]
  exact List.filterMap_some

/-! ## Checks -/

theorem badEndpoint?_eq_none {g : EdgeGeometry κ} : g.badEndpoint? = none ↔
    ∀ l ∈ g.links, l.1.toNat < g.vertexCount ∧ l.2.toNat < g.vertexCount := by
  rw [badEndpoint?, List.findSome?_eq_none_iff]
  constructor
  · intro h l hl
    obtain ⟨i, hi⟩ := List.mem_iff_getElem?.1 hl
    have := h (l, i) (List.mem_zipIdx_iff_getElem?.2 hi)
    dsimp only at this
    split at this
    next => cases this
    next h₁ =>
      split at this
      next => cases this
      next h₂ => omega
  · rintro h ⟨l, i⟩ hx
    obtain ⟨h₁, h₂⟩ := h l (List.fst_mem_of_mem_zipIdx hx)
    dsimp only
    rw [if_neg (by omega), if_neg (by omega)]

theorem checkMatrix_eq_ok {m : AttributeMatrix κ} {size : Nat} :
    checkMatrix m size = .ok () ↔ m.size = size ∧ m.InStep size := by
  unfold checkMatrix
  split
  next h => rw [AttributeMatrix.validate_eq_ok, h]; simp
  next h => simp [h]

theorem validate_eq_ok {g : EdgeGeometry κ} : g.validate = .ok () ↔
    (∀ l ∈ g.links, l.1.toNat < g.vertexCount ∧ l.2.toNat < g.vertexCount) ∧
      (g.vertexData.size = g.vertexCount ∧ g.vertexData.InStep g.vertexCount) ∧
      (g.edgeData.size = g.edgeCount ∧ g.edgeData.InStep g.edgeCount) := by
  rw [← badEndpoint?_eq_none, ← checkMatrix_eq_ok, ← checkMatrix_eq_ok]
  unfold validate
  cases g.badEndpoint? with
  | some x => simp
  | none =>
    cases checkMatrix g.vertexData g.vertexCount with
    | error e => simp [bind, Except.bind]
    | ok u => simp [bind, Except.bind]

/-! ## Layouts -/

/-- Both geometries hold arrays of the same shapes under the same names. -/
def SameLayout (g h : EdgeGeometry κ) : Prop :=
  g.vertexData.layout = h.vertexData.layout ∧ g.edgeData.layout = h.edgeData.layout

theorem SameLayout.trans {g h k : EdgeGeometry κ} (hgh : g.SameLayout h) (hhk : h.SameLayout k) : g.SameLayout k :=
  ⟨hgh.1.trans hhk.1, hgh.2.trans hhk.2⟩

theorem SameLayout.symm {g h : EdgeGeometry κ} (hgh : g.SameLayout h) : h.SameLayout g :=
  ⟨hgh.1.symm, hgh.2.symm⟩

/-- All attribute arrays are as long as their list. -/
def InStep (g : EdgeGeometry κ) : Prop :=
  g.vertexData.InStep g.vertexCount ∧ g.edgeData.InStep g.edgeCount

theorem inStep_of_validate {g : EdgeGeometry κ} (h : g.validate = .ok ()) : g.InStep :=
  have hfit := validate_eq_ok.1 h
  ⟨hfit.2.1.2, hfit.2.2.2⟩

theorem sameLayout_emptyLike [Coordinate κ] (g : EdgeGeometry κ) : g.SameLayout g.emptyLike :=
  ⟨(AttributeMatrix.layout_blank _ _).symm, (AttributeMatrix.layout_blank _ _).symm⟩

theorem sameLayout_resizedVertices [Coordinate κ] (g : EdgeGeometry κ) (n : Nat) : (g.resizedVertices n).SameLayout g :=
  ⟨AttributeMatrix.layout_resized _ _, rfl⟩

theorem vertexCount_resizedVertices [Coordinate κ] (g : EdgeGeometry κ) (n : Nat) :
    (g.resizedVertices n).vertexCount = n :=
  TupleArray.size_resized _ _ _

end EdgeGeometry

end Wireframe
