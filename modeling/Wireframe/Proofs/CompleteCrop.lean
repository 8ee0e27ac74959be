import Wireframe.Proofs.Crop
/-!
# What a complete crop holds

A complete crop consists of the kept vertices and edges of its source: the
edges join the ranks of their old endpoints, and every tuple of an attribute
array has moved along with its element. One pair of lists, `keptVertices` and
`keptEdges`, says for the geometry and for both matrices which old element a
new one was.
-/

namespace Wireframe

variable {κ : Type}

/-! ## Attributes that follow their elements -/

namespace TypedArray

/-- A tuple with the type of its values. -/
def tuple? (a : TypedArray κ) (i : Nat) : Option ((t : ScalarType) × List (t.Value κ)) :=
  (a.array.tuple? i).map fun t => ⟨a.type, t⟩

/-- Tuple `i` of `b` is the tuple of `a` at the `i`th of the old numbers. -/
structure Gathers (old : List Nat) (a b : TypedArray κ) : Prop where
  type : b.type = a.type
  width : b.width = a.width
  size : b.size = old.length
  tuple : ∀ i v, old[i]? = some v → ∃ t, a.tuple? v = some t ∧ b.tuple? i = some t

theorem gathers_select {mask : Mask} {a : TypedArray κ} (h : mask.length = a.size) :
    a.Gathers mask.indices (a.select mask) where
  type := rfl
  width := rfl
  size := (TupleArray.size_select h).trans mask.length_indices.symm
  tuple i v hv := by
    have hlt : v < a.size := by
      rw [← h]
      exact (List.getElem?_eq_some_iff.1 (Mask.mem_indices.1 (List.mem_of_getElem? hv))).1
    obtain ⟨t, ht⟩ := TupleArray.exists_tuple? hlt
    refine ⟨⟨a.type, t⟩, by rw [tuple?, ht, Option.map_some], ?_⟩
    show ((a.array.select mask).tuple? i).map _ = _
    rw [TupleArray.tuple?_select h, hv, Option.bind_some, ht]
    rfl

end TypedArray

namespace AttributeMatrix

/-- The arrays of `n` are those of `m`, each with the tuples at the old numbers. -/
structure Gathers (old : List Nat) (m n : AttributeMatrix κ) : Prop where
  names : n.names = m.names
  size : n.size = old.length
  array : ∀ k a, m.arrays.find? k = some a → ∃ b, n.arrays.find? k = some b ∧ a.Gathers old b

theorem gathers_compact {mask : Mask} {name : String} {m n : AttributeMatrix κ} (h : Copyable mask m n) :
    m.Gathers mask.indices (m.compact mask name) where
  names := names_compact mask name m
  size := mask.length_indices.symm
  array k a ha := by
    obtain ⟨a', b, ha', -, hf⟩ := h.ready k (h.names ▸ mem_names.2 ⟨a, ha⟩)
    rw [ha, Option.some.injEq] at ha'
    refine ⟨a.select mask, by rw [find?_compact, ha, Option.map_some], ?_⟩
    exact TypedArray.gathers_select (ha' ▸ hf.length)

end AttributeMatrix

/-! ## The geometry -/

variable [Coordinate κ] {src dst : EdgeGeometry κ} {bounds : Box κ} {policy : BoundaryPolicy}
  {schedule : Schedule} {stats : CropStats}

/-- A complete crop wrote its selection and nothing else. -/
theorem crop_complete (h : (crop src dst bounds policy schedule).result = .ok (.complete stats)) :
    ∃ s links, Selection.of src bounds policy = .ok s ∧ s.newLinks src = .ok links ∧ s.Copyable src dst ∧
      (crop src dst bounds policy schedule).destination = s.compact src dst links ∧ stats = s.stats := by
  have hends := crop_ends src dst bounds policy schedule
  generalize crop src dst bounds policy schedule = run at h hends ⊢
  cases hends with
  | unselected | refused | cancelled => cases h
  | complete hs hl hc =>
    cases h
    exact ⟨_, _, hs, hl, hc, rfl, rfl⟩

/-- The counts that are told of a selection. -/
theorem Selection.stats_eq {s : Selection κ} (h : Selection.of src bounds policy = .ok s) :
    s.stats = ⟨(src.keptVertices bounds policy).length, (src.keptEdges bounds policy).length,
      ((src.keptVertices bounds policy).filter fun v => !src.inside bounds v).length⟩ := by
  have hm : s.moved.size = ((src.keptVertices bounds policy).filter fun v => !src.inside bounds v).length := by
    rw [← moved_keys h]
    exact (List.length_map _).symm
  rw [stats, kept_vertices h, kept_edges h, hm]

/-- A complete crop has the kept vertices and edges, its edges between the
ranks of the old endpoints, and tells how many there are and how many of the
vertices were outside. -/
theorem crop_selects (h : (crop src dst bounds policy schedule).result = .ok (.complete stats)) :
    (crop src dst bounds policy schedule).destination.vertexCount = (src.keptVertices bounds policy).length ∧
      (crop src dst bounds policy schedule).destination.edgeCount = (src.keptEdges bounds policy).length ∧
      (∀ j e, (src.keptEdges bounds policy)[j]? = some e → ∃ old new, src.edge? e = some old ∧
        (crop src dst bounds policy schedule).destination.edge? j = some new ∧
        Selection.Renumbered (src.keptVertices bounds policy) old new) ∧
      stats = ⟨(src.keptVertices bounds policy).length, (src.keptEdges bounds policy).length,
        ((src.keptVertices bounds policy).filter fun v => !src.inside bounds v).length⟩ := by
  obtain ⟨s, links, hs, hl, -, hd, rfl⟩ := crop_complete h
  rw [hd]
  refine ⟨?_, ?_, fun j e he => ?_, Selection.stats_eq hs⟩
  · rw [s.vertexCount_compact, ← Selection.keepVertex_indices hs, Mask.length_indices]
  · rw [Selection.edgeCount_compact hs hl, ← Selection.keepEdge_indices hs, Mask.length_indices]
  · obtain ⟨old, new, ho, hn, hr⟩ := (Selection.newLinks_spec hs hl).2 j e he
    refine ⟨old, new, ho, ?_, hr⟩
    rw [← EdgeGeometry.getElem?_links, EdgeGeometry.links_of_edges (g := s.compact src dst links) rfl, hn]

/-- Four vertices on an axis, the second without edges, and a box that ends
between the last two. -/
def onAxis : EdgeGeometry Float32 :=
  { EdgeGeometry.ofLists [⟨0, 0, 0⟩, ⟨9, 0, 0⟩, ⟨1, 0, 0⟩, ⟨2, 0, 0⟩] [(3, 3), (2, 0), (2, 3)] with
    vertexData := ⟨"Vertex Data", 4, SortedMap.empty.insert "Ids"
      ⟨.i32, ⟨1, [10, 11, 12, 13], by decide, by decide⟩⟩⟩ }

def upToMiddle : Box Float32 := .ofAxes (· = .x) ⟨0, 0, 0⟩ ⟨1.5, 0, 0⟩

theorem crop_onAxis : (crop onAxis onAxis.emptyLike upToMiddle .interpolate .never).result =
    .ok (.complete ⟨3, 2, 1⟩) := by
  with_unfolding_all rfl

theorem crop_selects_onAxis :
    (crop onAxis onAxis.emptyLike upToMiddle .interpolate .never).result = .ok (.complete ⟨3, 2, 1⟩) ∧
      onAxis.keptVertices upToMiddle .interpolate = [0, 2, 3] ∧
      ∃ old new, onAxis.edge? 2 = some old ∧
        (crop onAxis onAxis.emptyLike upToMiddle .interpolate .never).destination.edge? 1 = some new ∧
        Selection.Renumbered [0, 2, 3] old new := by
  have hv : onAxis.keptVertices upToMiddle .interpolate = [0, 2, 3] := by decide +kernel
  have he : (onAxis.keptEdges upToMiddle .interpolate)[1]? = some 2 := by decide +kernel
  exact ⟨crop_onAxis, hv, hv ▸ (crop_selects crop_onAxis).2.2.1 1 2 he⟩

/-- Both matrices of a complete crop are as long as its lists and hold the
arrays of the source, with the tuples of the kept elements. -/
theorem crop_gathers (h : (crop src dst bounds policy schedule).result = .ok (.complete stats)) :
    src.vertexData.Gathers (src.keptVertices bounds policy)
        (crop src dst bounds policy schedule).destination.vertexData ∧
      src.edgeData.Gathers (src.keptEdges bounds policy)
        (crop src dst bounds policy schedule).destination.edgeData ∧
      (crop src dst bounds policy schedule).destination.vertexData.size =
        (crop src dst bounds policy schedule).destination.vertexCount ∧
      (crop src dst bounds policy schedule).destination.edgeData.size =
        (crop src dst bounds policy schedule).destination.edgeCount := by
  obtain ⟨s, links, hs, hl, hc, hd, -⟩ := crop_complete h
  have hfit := EdgeGeometry.validate_eq_ok.1 (Selection.validate_compact hs hc hl)
  rw [hd]
  refine ⟨?_, ?_, hfit.2.1.1, hfit.2.2.1⟩
  · rw [← Selection.keepVertex_indices hs]
    exact AttributeMatrix.gathers_compact hc.vertexData
  · rw [← Selection.keepEdge_indices hs]
    exact AttributeMatrix.gathers_compact hc.edgeData

theorem crop_gathers_onAxis :
    (crop onAxis onAxis.emptyLike upToMiddle .interpolate .never).result = .ok (.complete ⟨3, 2, 1⟩) ∧
      onAxis.vertexData.Gathers [0, 2, 3]
        (crop onAxis onAxis.emptyLike upToMiddle .interpolate .never).destination.vertexData := by
  have hv : onAxis.keptVertices upToMiddle .interpolate = [0, 2, 3] := by decide +kernel
  exact ⟨crop_onAxis, hv ▸ (crop_gathers crop_onAxis).1⟩

end Wireframe
