import Wireframe.Proofs.Composition
/-!
# Cropping again

A geometry that lies in the box and in which every vertex has an edge is kept
whole. The result of a crop has an edge at every vertex, and it lies in the
box wherever the points at which segments leave the box do, as they do over
exact coordinates. So a second crop to the same box changes nothing, whatever
the policy: there is no edge left across the boundary.
-/

namespace Wireframe

variable {κ : Type} [Coordinate κ]

open EdgeGeometry

/-! ## Geometries that are kept whole -/

section Whole

variable {g : EdgeGeometry κ} {bounds : Box κ} (hg : g.validate = .ok ())
  (hin : ∀ v < g.vertexCount, g.inside bounds v = true)
include hg hin

theorem keepsLink_whole (policy : BoundaryPolicy) {e : Nat} {l : Link} (hl : g.edge? e = some l) :
    g.keepsLink bounds policy l = true := by
  obtain ⟨h₁, h₂⟩ := (validate_eq_ok.1 hg).1 l (List.mem_of_getElem? (g.getElem?_links e ▸ hl))
  simp [keepsLink, hin _ h₁, hin _ h₂]

theorem keptEdges_whole (policy : BoundaryPolicy) : g.keptEdges bounds policy = List.range g.edgeCount := by
  refine keptEdges_sorted.eq_of_mem_iff List.pairwise_lt_range fun e => ?_
  rw [mem_keptEdges, List.mem_range]
  constructor
  · rintro ⟨l, hl, -⟩
    exact lt_edgeCount hl
  · intro he
    obtain ⟨l, hl⟩ := exists_edge? he
    exact ⟨l, hl, keepsLink_whole hg hin policy hl⟩

variable (hused : ∀ v < g.vertexCount, ∃ e l, g.edge? e = some l ∧ endsAt l v = true)
include hused

theorem keptVertices_whole (policy : BoundaryPolicy) : g.keptVertices bounds policy = List.range g.vertexCount := by
  refine keptVertices_sorted.eq_of_mem_iff List.pairwise_lt_range fun v => ?_
  rw [mem_keptVertices, List.mem_range]
  constructor
  · exact And.left
  · intro hv
    obtain ⟨e, l, hl, hend⟩ := hused v hv
    exact ⟨hv, e, l, hl, keepsLink_whole hg hin policy hl, hend⟩

/-- A crop of a geometry that is kept whole changes nothing. -/
theorem cropsTo_whole (policy : BoundaryPolicy) : CropsTo bounds policy g g := by
  have hends := (validate_eq_ok.1 hg).1
  have hs : ∃ s, Selection.of g bounds policy = .ok s := by
    refine Selection.exists_of hends fun _ l hl => ?_
    rw [hin _ (hends l hl).1, hin _ (hends l hl).2]
  obtain ⟨h, hh, -, hpart⟩ := exists_cropsTo hg hs fun v hv => hin v (mem_keptVertices.1 hv).1
  rw [keptVertices_whole hg hin hused, keptEdges_whole hg hin] at hpart
  rwa [hpart.unique List.nodup_range (isPart_range hg)] at hh

end Whole

/-! ## Results of crops -/

namespace Selection

variable {src dst : EdgeGeometry κ} {bounds : Box κ} {policy : BoundaryPolicy} {s : Selection κ} {links : List Link}

theorem exists_kept (hs : Selection.of src bounds policy = .ok s) {i : Nat}
    (hi : i < (s.compact src dst links).vertexCount) : ∃ v, (src.keptVertices bounds policy)[i]? = some v := by
  rw [vertexCount_compact, kept_vertices hs] at hi
  exact ⟨_, List.getElem?_eq_getElem hi⟩

/-- Every vertex of a result is in the box, if the points where segments leave
it are. -/
theorem inside_compact (hs : Selection.of src bounds policy = .ok s)
    (hexit : ∀ u v p q, src.vertex? u = some p → src.vertex? v = some q → bounds.contains p = true →
      bounds.contains (bounds.exitPoint p q) = true)
    {i : Nat} (hi : i < (s.compact src dst links).vertexCount) :
    (s.compact src dst links).inside bounds i = true := by
  obtain ⟨v, hv⟩ := exists_kept hs hi
  have hk := List.mem_of_getElem? hv
  obtain ⟨p, hp⟩ := exists_vertex? (mem_keptVertices.1 hk).1
  rw [inside, vertex?_compact hs links hv hp, Option.any_some]
  cases hm : s.moved.find? v with
  | none =>
    by_contra hout
    obtain ⟨x, hx⟩ := exists_moved hs hk (by simpa [inside, hp] using hout)
    rw [hm] at hx
    cases hx
  | some x =>
    obtain ⟨e, u, a, b, -, ha, hb, ca, -, rfl⟩ := moved_spec hs hm
    exact hexit u v a b ha hb ca

/-- Every vertex of a result has an edge. -/
theorem exists_end_compact (hs : Selection.of src bounds policy = .ok s) (hl : s.newLinks src = .ok links)
    {i : Nat} (hi : i < (s.compact src dst links).vertexCount) :
    ∃ j l, (s.compact src dst links).edge? j = some l ∧ endsAt l i = true := by
  obtain ⟨v, hv⟩ := exists_kept hs hi
  obtain ⟨hlt, e, l, he, hk, hend⟩ := mem_keptVertices.1 (List.mem_of_getElem? hv)
  obtain ⟨j, hj⟩ := List.mem_iff_getElem?.1 ((mem_keptEdges_iff he).2 hk)
  obtain ⟨old, new, ho, hn, hr⟩ := edge?_compact hs hl hj
  obtain rfl := Option.some.inj (he.symm.trans ho)
  obtain ⟨i', hi', hnew⟩ := hr.exists_end hend
  -- no vertex is kept twice, so the end is vertex `i`
  obtain rfl : i' = i := by
    have hnodup : (src.keptVertices bounds policy).Nodup := keptVertices_nodup
    exact (List.getElem?_inj (List.getElem?_eq_some_iff.1 hi').1 hnodup).1 (hi'.trans hv.symm)
  exact ⟨j, new, hn, hnew⟩

end Selection

/-- Over exact coordinates the result of a crop lies in the box, and every
further crop to that box, under any policy, changes nothing. -/
theorem crop_fixed {src dst : EdgeGeometry Exact} {bounds : Box Exact} {policy : BoundaryPolicy}
    {schedule : Schedule} {stats : CropStats} (hfin : ∀ v p, src.vertex? v = some p → p.IsFinite)
    (h : (crop src dst bounds policy schedule).result = .ok (.complete stats)) :
    (∀ i p, (crop src dst bounds policy schedule).destination.vertex? i = some p → bounds.contains p = true) ∧
      ∀ again, CropsTo bounds again (crop src dst bounds policy schedule).destination
        (crop src dst bounds policy schedule).destination := by
  obtain ⟨s, links, hs, hl, hc, hd, -⟩ := crop_complete h
  have hin : ∀ i < (s.compact src dst links).vertexCount, (s.compact src dst links).inside bounds i = true := by
    intro i hi
    refine Selection.inside_compact hs (fun u v p q hp hq hcp => ?_) hi
    exact Box.contains_exitPoint (hfin u p hp) (hfin v q hq) hcp
  rw [hd]
  constructor
  · intro i p hp
    have hi := hin i (lt_vertexCount hp)
    rwa [inside, hp, Option.any_some] at hi
  · intro again
    exact cropsTo_whole (Selection.validate_compact hs hc hl) hin
      (fun i hi => Selection.exists_end_compact hs hl hi) again

theorem isFinite_row {v : Nat} {p : Point Exact} (hp : row.vertex? v = some p) : p.IsFinite := by
  have hall : ∀ p ∈ row.points, ∀ d ∈ Axis.all, Coordinate.isFinite (p.coord d) = true := by decide +kernel
  intro d
  exact hall p (mem_points.2 ⟨v, hp⟩) d d.mem_all

/-- Both ends of the row are moved. -/
theorem crop_fixed_row :
    (crop row row.emptyLike (between (1 / 2) (5 / 2)) .interpolate .never).result = .ok (.complete ⟨4, 3, 2⟩) ∧
      (crop row row.emptyLike (between (1 / 2) (5 / 2)) .interpolate .never).destination.vertex? 3 =
        some ⟨.rat (5 / 2), .rat 0, .rat 0⟩ ∧
      CropsTo (between (1 / 2) (5 / 2)) .fail
        (crop row row.emptyLike (between (1 / 2) (5 / 2)) .interpolate .never).destination
        (crop row row.emptyLike (between (1 / 2) (5 / 2)) .interpolate .never).destination := by
  have hr : (crop row row.emptyLike (between (1 / 2) (5 / 2)) .interpolate .never).result =
      .ok (.complete ⟨4, 3, 2⟩) := by with_unfolding_all rfl
  have hend : (crop row row.emptyLike (between (1 / 2) (5 / 2)) .interpolate .never).destination.vertex? 3 =
      some ⟨.rat (5 / 2), .rat 0, .rat 0⟩ := by decide +kernel
  exact ⟨hr, hend, (crop_fixed (fun _ _ hp => isFinite_row hp) hr).2 .fail⟩

end Wireframe
