import Wireframe.Proofs.Composition
/-!
# One crop under three policies

The policies differ only on edges across the boundary. Where a crop that fails
on such an edge gets through, there is none, and all policies do the same.
Otherwise an edge across the boundary is kept with a moved vertex at one end,
or ignored: what ignoring leaves is what moving leaves, without the edges at
moved vertices and without the vertices that are then at no edge.
-/

namespace Wireframe

variable {κ : Type} [Coordinate κ]

open EdgeGeometry

variable {g h src dst : EdgeGeometry κ} {bounds : Box κ} {policy : BoundaryPolicy}

/-! ## Where failing on the boundary gets through -/

/-- A verdict where an edge across the boundary is a failure is the verdict
under every policy. -/
theorem Judged.of_fail {l : Link} {p q : Point κ} {v : Verdict κ} (h : Judged bounds .fail l p q v) :
    Judged bounds policy l p q v := by
  cases h with
  | inside cp cq => exact .inside cp cq
  | outside cp cq => exact .outside cp cq
  | ignored _ hi | second _ _ hi | first _ _ hi => cases hi

theorem Selection.of_fail {s : Selection κ} (h : Selection.of g bounds .fail = .ok s) :
    Selection.of g bounds policy = .ok s := by
  obtain ⟨vs, hvs, rfl⟩ := of_eq_ok.1 h
  refine of_eq_ok.2 ⟨vs, judgeAll_eq_ok.2 ((judgeAll_eq_ok.1 hvs).imp ?_), rfl⟩
  rintro l v ⟨p, q, hp, hq, hv⟩
  exact ⟨p, q, hp, hq, hv.of_fail⟩

/-- Where a crop that fails on the boundary does not fail, every policy makes
the same run of it. -/
theorem crop_eq_of_fail {schedule : Schedule} {outcome : CropOutcome}
    (h : (crop src dst bounds .fail schedule).result = .ok outcome) :
    crop src dst bounds policy schedule = crop src dst bounds .fail schedule := by
  cases hs : Selection.of src bounds .fail with
  | error e =>
    simp only [crop, hs] at h
    cases h
  | ok s =>
    unfold crop
    rw [hs, Selection.of_fail hs]

/-! ## Moved vertices -/

namespace EdgeGeometry

/-- A crop of `g` that moves vertices moves the one that it gives the number
`i`. -/
def MovesVertex (g : EdgeGeometry κ) (bounds : Box κ) (i : Nat) : Prop :=
  ∃ s v, Selection.of g bounds .interpolate = .ok s ∧ s.keepVertex.indices[i]? = some v ∧ v ∈ s.moved.keys

/-- `h` is `k` without the edges that end at a moved vertex and without the
vertices that are then at no edge; `vs` and `es` are the numbers that are
left. -/
structure WithoutMoved (moved : Nat → Prop) (vs es : List Nat) (k h : EdgeGeometry κ) : Prop where
  part : IsPart vs es k h
  vertices_sorted : vs.Pairwise (· < ·)
  edges_sorted : es.Pairwise (· < ·)
  mem_edges : ∀ j, j ∈ es ↔ ∃ l, k.edge? j = some l ∧ ∀ i, endsAt l i = true → ¬moved i
  mem_vertices : ∀ i, i ∈ vs ↔ ∃ j ∈ es, ∃ l, k.edge? j = some l ∧ endsAt l i = true

/-- The vertices that are moved are those outside the box. -/
theorem movesVertex_iff {s : Selection κ} (hs : Selection.of g bounds .interpolate = .ok s) {i v : Nat}
    (hi : (g.keptVertices bounds .interpolate)[i]? = some v) :
    g.MovesVertex bounds i ↔ g.inside bounds v = false := by
  have hmoved : v ∈ s.moved.keys ↔ g.inside bounds v = false := by
    rw [Selection.moved_keys hs, List.mem_filter, Bool.not_eq_true']
    exact and_iff_right (List.mem_of_getElem? hi)
  rw [← hmoved]
  constructor
  · rintro ⟨s', v', hs', hi', hv'⟩
    obtain rfl : s' = s := Except.ok.inj (hs'.symm.trans hs)
    rw [Selection.keepVertex_indices hs, hi, Option.some.injEq] at hi'
    exact hi' ▸ hv'
  · intro hv
    exact ⟨s, v, hs, by rw [Selection.keepVertex_indices hs, hi], hv⟩

/-- An edge is kept although edges are ignored if none of its ends is moved. -/
theorem keepsLink_ignoreEdge_iff {s : Selection κ} (hs : Selection.of g bounds .interpolate = .ok s) {old l : Link}
    (hr : Selection.Renumbered (g.keptVertices bounds .interpolate) old l) :
    g.keepsLink bounds .ignoreEdge old = true ↔ ∀ i, endsAt l i = true → ¬g.MovesVertex bounds i := by
  rw [keepsLink_ignoreEdge, Bool.and_eq_true, ← Bool.not_eq_false, ← Bool.not_eq_false, ← movesVertex_iff hs hr.1,
    ← movesVertex_iff hs hr.2]
  constructor
  · rintro ⟨h₁, h₂⟩ i hi
    rcases endsAt_iff.1 hi with rfl | rfl
    · exact h₁
    · exact h₂
  · intro h
    exact ⟨h _ (endsAt_iff.2 (.inl rfl)), h _ (endsAt_iff.2 (.inr rfl))⟩

/-! ## Ignoring and moving -/

theorem keptEdges_ignoreEdge_subset {e : Nat} (he : e ∈ g.keptEdges bounds .ignoreEdge) :
    e ∈ g.keptEdges bounds policy := by
  obtain ⟨l, hl, hk⟩ := mem_keptEdges.1 he
  rw [keepsLink_ignoreEdge] at hk
  exact mem_keptEdges.2 ⟨l, hl, by rw [keepsLink, hk, Bool.true_or]⟩

theorem keptVertices_ignoreEdge_subset {v : Nat} (hv : v ∈ g.keptVertices bounds .ignoreEdge) :
    v ∈ g.keptVertices bounds policy := by
  obtain ⟨hlt, e, l, hl, hk, hend⟩ := mem_keptVertices.1 hv
  have he : e ∈ g.keptEdges bounds policy := keptEdges_ignoreEdge_subset ((mem_keptEdges_iff hl).2 hk)
  exact mem_keptVertices.2 ⟨hlt, e, l, hl, (mem_keptEdges_iff hl).1 he, hend⟩

/-- Of the vertices that are left where vertices are moved, by their new
numbers, those that are left where edges are ignored. -/
def unmovedVertices (g : EdgeGeometry κ) (bounds : Box κ) : List Nat :=
  places (g.keptVertices bounds .interpolate) (g.keptVertices bounds .ignoreEdge)

/-- The same of edges. -/
def unmovedEdges (g : EdgeGeometry κ) (bounds : Box κ) : List Nat :=
  places (g.keptEdges bounds .interpolate) (g.keptEdges bounds .ignoreEdge)

theorem map_some_unmovedVertices (g : EdgeGeometry κ) (bounds : Box κ) :
    (g.keptVertices bounds .ignoreEdge).map some =
      (g.unmovedVertices bounds).map ((g.keptVertices bounds .interpolate)[·]?) :=
  map_some_places keptVertices_sorted keptVertices_sorted fun _ => keptVertices_ignoreEdge_subset

theorem map_some_unmovedEdges (g : EdgeGeometry κ) (bounds : Box κ) :
    (g.keptEdges bounds .ignoreEdge).map some =
      (g.unmovedEdges bounds).map ((g.keptEdges bounds .interpolate)[·]?) :=
  map_some_places keptEdges_sorted keptEdges_sorted fun _ => keptEdges_ignoreEdge_subset

end EdgeGeometry

section Ignoring

variable {s : Selection κ} {links : List Link} (hs : Selection.of g bounds .interpolate = .ok s)
  (hl : s.newLinks g = .ok links)
include hs hl

/-- Every edge that is kept where vertices are moved has a new edge, between the
new numbers of its ends. -/
theorem exists_new_edge {j e : Nat} (he : (g.keptEdges bounds .interpolate)[j]? = some e) :
    ∃ old new, g.edge? e = some old ∧ (s.compact g g.emptyLike links).edge? j = some new ∧
      Selection.Renumbered (g.keptVertices bounds .interpolate) old new :=
  Selection.edge?_compact hs hl he

/-- Every edge that moving vertices leaves has an old edge, between the old
numbers of its ends. -/
theorem exists_old_edge {j : Nat} {l : Link} (hj : (s.compact g g.emptyLike links).edge? j = some l) :
    ∃ e old, (g.keptEdges bounds .interpolate)[j]? = some e ∧ g.edge? e = some old ∧
      Selection.Renumbered (g.keptVertices bounds .interpolate) old l := by
  have hlt := lt_edgeCount hj
  rw [Selection.edgeCount_compact hs hl, Selection.kept_edges hs] at hlt
  have he := List.getElem?_eq_getElem hlt
  obtain ⟨old, new, ho, hn, hr⟩ := exists_new_edge hs hl he
  rw [hj, Option.some.injEq] at hn
  exact ⟨_, old, he, ho, hn ▸ hr⟩

/-- What ignoring edges leaves is a part of what moving vertices leaves. -/
theorem isPart_unmoved (hc : s.Copyable g g.emptyLike)
    (hh : IsPart (g.keptVertices bounds .ignoreEdge) (g.keptEdges bounds .ignoreEdge) g h) :
    IsPart (g.unmovedVertices bounds) (g.unmovedEdges bounds) (s.compact g g.emptyLike links) h where
  vertexCount := by rw [hh.vertexCount, length_of_map_some (map_some_unmovedVertices g bounds)]
  edgeCount := by rw [hh.edgeCount, length_of_map_some (map_some_unmovedEdges g bounds)]
  vertex i v hi := by
    obtain ⟨w, hv, hw⟩ := exists_of_map_some (map_some_unmovedVertices g bounds) hi
    obtain ⟨p, hp, hhp⟩ := hh.vertex i w hw
    refine ⟨p, ?_, hhp⟩
    rw [Selection.vertex?_compact hs links hv hp,
      Selection.moved_eq_none hs (inside_of_ignoreEdge (List.mem_of_getElem? hw)), Option.getD_none]
  edge j e hj := by
    obtain ⟨f, he, hf⟩ := exists_of_map_some (map_some_unmovedEdges g bounds) hj
    obtain ⟨old, mid, ho, hm, hr⟩ := exists_new_edge hs hl he
    obtain ⟨new, hn, hr'⟩ := hh.exists_edge hf ho
    exact ⟨mid, new, hm, hn,
      hr.cancel keptVertices_nodup hr' (map_some_unmovedVertices g bounds)⟩
  vertexData := by
    have hgather : g.vertexData.Gathers s.keepVertex.indices (s.compact g g.emptyLike links).vertexData :=
      AttributeMatrix.gathers_compact hc.vertexData
    rw [Selection.keepVertex_indices hs] at hgather
    exact hgather.cancel hh.vertexData (map_some_unmovedVertices g bounds)
  edgeData := by
    have hgather : g.edgeData.Gathers s.keepEdge.indices (s.compact g g.emptyLike links).edgeData :=
      AttributeMatrix.gathers_compact hc.edgeData
    rw [Selection.keepEdge_indices hs] at hgather
    exact hgather.cancel hh.edgeData (map_some_unmovedEdges g bounds)
  vertexName := hh.vertexName
  edgeName := hh.edgeName

/-- An edge is ignored for a moved vertex at one of its ends. -/
theorem mem_unmovedEdges (j : Nat) : j ∈ g.unmovedEdges bounds ↔
    ∃ l, (s.compact g g.emptyLike links).edge? j = some l ∧
      ∀ i, endsAt l i = true → ¬g.MovesVertex bounds i := by
  rw [unmovedEdges, mem_places]
  constructor
  · rintro ⟨e, he, hj⟩
    obtain ⟨old, l, ho, hn, hr⟩ := exists_new_edge hs hl hj
    exact ⟨l, hn, (keepsLink_ignoreEdge_iff hs hr).1 ((mem_keptEdges_iff ho).1 he)⟩
  · rintro ⟨l, hn, hmoved⟩
    obtain ⟨e, old, hj, ho, hr⟩ := exists_old_edge hs hl hn
    exact ⟨e, (mem_keptEdges_iff ho).2 ((keepsLink_ignoreEdge_iff hs hr).2 hmoved), hj⟩

/-- The vertices that stay are at edges that stay. -/
theorem mem_unmovedVertices (i : Nat) : i ∈ g.unmovedVertices bounds ↔
    ∃ j ∈ g.unmovedEdges bounds, ∃ l, (s.compact g g.emptyLike links).edge? j = some l ∧ endsAt l i = true := by
  rw [unmovedVertices, mem_places]
  constructor
  · rintro ⟨v, hv, hi⟩
    obtain ⟨-, e, old, ho, hk, hend⟩ := mem_keptVertices.1 hv
    have he := (mem_keptEdges_iff ho).2 hk
    have he' : e ∈ g.keptEdges bounds .interpolate := keptEdges_ignoreEdge_subset he
    obtain ⟨j, hj⟩ := List.mem_iff_getElem?.1 he'
    obtain ⟨old', l, ho', hn, hr⟩ := exists_new_edge hs hl hj
    obtain rfl : old = old' := Option.some.inj (ho.symm.trans ho')
    obtain ⟨i', hi', hl'⟩ := hr.exists_end hend
    obtain rfl := eq_of_getElem?_eq_some keptVertices_nodup hi hi'
    exact ⟨j, mem_places.2 ⟨e, he, hj⟩, l, hn, hl'⟩
  · rintro ⟨j, hj, l, hn, hend⟩
    obtain ⟨e, he, hje⟩ := mem_places.1 hj
    obtain ⟨e', old, hje', ho, hr⟩ := exists_old_edge hs hl hn
    obtain rfl : e = e' := Option.some.inj (hje.symm.trans hje')
    obtain ⟨v, hv, hend'⟩ := hr.exists_old_end hend
    have hlt := (mem_keptVertices.1 (List.mem_of_getElem? hv)).1
    exact ⟨v, mem_keptVertices.2 ⟨hlt, e, old, ho, (mem_keptEdges_iff ho).1 he, hend'⟩, hv⟩

end Ignoring

/-- Of a source that fits together, cropped into an empty geometry like it:
where failing on the boundary gets through, every policy makes the same run;
and in any case both other policies get through, and ignoring edges leaves
what moving vertices leaves without the moved. -/
theorem crop_policies (hg : g.validate = .ok ()) (bounds : Box κ) :
    (∀ schedule stats, (crop g g.emptyLike bounds .fail schedule).result = .ok (.complete stats) → ∀ policy,
        crop g g.emptyLike bounds policy schedule = crop g g.emptyLike bounds .fail schedule) ∧
      (∃ stats, (crop g g.emptyLike bounds .ignoreEdge .never).result = .ok (.complete stats)) ∧
      (∃ stats, (crop g g.emptyLike bounds .interpolate .never).result = .ok (.complete stats)) ∧
      ∃ vs es, WithoutMoved (g.MovesVertex bounds) vs es
        (crop g g.emptyLike bounds .interpolate .never).destination
        (crop g g.emptyLike bounds .ignoreEdge .never).destination := by
  obtain ⟨h, hcrop, -, hh⟩ := exists_cropsTo_ignoreEdge hg bounds
  obtain ⟨hr, rfl⟩ := (hcrop .never).resolve_right fun hrise => Schedule.not_rises_never hrise.2
  obtain ⟨s, hs⟩ : ∃ s, Selection.of g bounds .interpolate = .ok s :=
    Selection.exists_of (validate_eq_ok.1 hg).1 fun hf => by cases hf
  obtain ⟨links, hl⟩ := Selection.exists_newLinks hs
  have hc : s.Copyable g g.emptyLike :=
    (Selection.copyable_iff hs).2 ⟨g.sameLayout_emptyLike, inStep_of_validate hg⟩
  obtain ⟨hr', hd⟩ := (crop_of_copyable hs hl hc .never).resolve_right fun hrise =>
    Schedule.not_rises_never hrise.2
  refine ⟨fun _ _ hf _ => crop_eq_of_fail hf, ⟨_, hr⟩, ⟨_, hr'⟩, g.unmovedVertices bounds, g.unmovedEdges bounds, ?_⟩
  rw [hd]
  exact ⟨isPart_unmoved hs hl hc hh, places_sorted, places_sorted, mem_unmovedEdges hs hl,
    mem_unmovedVertices hs hl⟩

theorem crop_policies_onAxis : onAxis.validate = .ok () ∧
    (crop onAxis onAxis.emptyLike upToMiddle .ignoreEdge .never).result = .ok (.complete ⟨2, 1, 0⟩) ∧
    (crop onAxis onAxis.emptyLike upToMiddle .interpolate .never).result = .ok (.complete ⟨3, 2, 1⟩) ∧
    ∃ vs es, WithoutMoved (onAxis.MovesVertex upToMiddle) vs es
      (crop onAxis onAxis.emptyLike upToMiddle .interpolate .never).destination
      (crop onAxis onAxis.emptyLike upToMiddle .ignoreEdge .never).destination := by
  have hfit : onAxis.validate = .ok () := by decide +kernel
  have hignore : (crop onAxis onAxis.emptyLike upToMiddle .ignoreEdge .never).result =
      .ok (.complete ⟨2, 1, 0⟩) := by with_unfolding_all rfl
  exact ⟨hfit, hignore, crop_onAxis, (crop_policies hfit upToMiddle).2.2.2⟩

end Wireframe
