import Wireframe.Proofs.ExactClip
import Wireframe.Proofs.Parts
/-!
# Crops of crops

A complete crop that moves no vertex leaves the part of its source that it
keeps. Where edges across the boundary are ignored, an edge is kept when both
of its endpoints are inside, so what two crops keep one after the other is
what one crop to the common part of the boxes keeps, in either order.
-/

namespace Wireframe

variable {κ : Type} [Coordinate κ]

open EdgeGeometry

/-! ## Crops that move nothing -/

/-- A crop of `g` into an empty geometry of the same layout moves no vertex and
leaves `h`, unless the flag goes up. -/
def CropsTo (bounds : Box κ) (policy : BoundaryPolicy) (g h : EdgeGeometry κ) : Prop :=
  ∀ schedule, (crop g g.emptyLike bounds policy schedule).result =
        .ok (.complete ⟨h.vertexCount, h.edgeCount, 0⟩) ∧
      (crop g g.emptyLike bounds policy schedule).destination = h ∨
    (crop g g.emptyLike bounds policy schedule).result = .ok .cancelled ∧ schedule.Rises

variable {bounds a b c : Box κ} {policy : BoundaryPolicy} {g h m r : EdgeGeometry κ}

theorem CropsTo.unique (hh : CropsTo bounds policy g h) (hr : CropsTo bounds policy g r) : h = r := by
  rcases hh .never with ⟨-, rfl⟩ | ⟨-, hrise⟩
  · rcases hr .never with ⟨-, rfl⟩ | ⟨-, hrise⟩
    · rfl
    · exact absurd hrise Schedule.not_rises_never
  · exact absurd hrise Schedule.not_rises_never

namespace Selection

variable {s : Selection κ} {links : List Link}

/-- A selection that moves no vertex is a part. -/
theorem isPart_compact (hs : Selection.of g bounds policy = .ok s) (hl : s.newLinks g = .ok links)
    (hc : s.Copyable g g.emptyLike) (hin : ∀ v ∈ g.keptVertices bounds policy, g.inside bounds v = true) :
    IsPart (g.keptVertices bounds policy) (g.keptEdges bounds policy) g (s.compact g g.emptyLike links) where
  vertexCount := by rw [vertexCount_compact, kept_vertices hs]
  edgeCount := by rw [edgeCount_compact hs hl, kept_edges hs]
  vertex i v hv := by
    have hk := List.mem_of_getElem? hv
    obtain ⟨p, hp⟩ := exists_vertex? (mem_keptVertices.1 hk).1
    refine ⟨p, hp, ?_⟩
    rw [vertex?_compact hs links hv hp, moved_eq_none hs (hin v hk), Option.getD_none]
  edge _ _ he := edge?_compact hs hl he
  vertexData := keepVertex_indices hs ▸ AttributeMatrix.gathers_compact hc.vertexData
  edgeData := keepEdge_indices hs ▸ AttributeMatrix.gathers_compact hc.edgeData
  vertexName := rfl
  edgeName := rfl

theorem stats_of_inside (hs : Selection.of g bounds policy = .ok s) (hl : s.newLinks g = .ok links)
    (hin : ∀ v ∈ g.keptVertices bounds policy, g.inside bounds v = true) :
    s.stats = ⟨(s.compact g g.emptyLike links).vertexCount, (s.compact g g.emptyLike links).edgeCount, 0⟩ := by
  have hnone : (g.keptVertices bounds policy).filter (fun v => !g.inside bounds v) = [] := by
    rw [List.filter_eq_nil_iff]
    intro v hv
    simp [hin v hv]
  rw [stats_eq hs, hnone, vertexCount_compact, edgeCount_compact hs hl, kept_vertices hs, kept_edges hs,
    List.length_nil]

end Selection

/-- A crop of a geometry that fits together leaves the part that it keeps, if
it can judge all edges and keeps no vertex outside. -/
theorem exists_cropsTo (hg : g.validate = .ok ()) (hs : ∃ s, Selection.of g bounds policy = .ok s)
    (hin : ∀ v ∈ g.keptVertices bounds policy, g.inside bounds v = true) :
    ∃ h, CropsTo bounds policy g h ∧ h.validate = .ok () ∧
      IsPart (g.keptVertices bounds policy) (g.keptEdges bounds policy) g h := by
  obtain ⟨s, hs⟩ := hs
  obtain ⟨links, hl⟩ := Selection.exists_newLinks hs
  have hc : s.Copyable g g.emptyLike :=
    (Selection.copyable_iff hs).2 ⟨g.sameLayout_emptyLike, inStep_of_validate hg⟩
  refine ⟨s.compact g g.emptyLike links, fun schedule => ?_, Selection.validate_compact hs hc hl,
    Selection.isPart_compact hs hl hc hin⟩
  rw [← Selection.stats_of_inside hs hl hin]
  exact crop_of_copyable hs hl hc schedule

/-! ## Ignored edges -/

theorem keepsLink_ignoreEdge (g : EdgeGeometry κ) (bounds : Box κ) (l : Link) :
    g.keepsLink bounds .ignoreEdge l = (g.inside bounds l.1.toNat && g.inside bounds l.2.toNat) := by
  simp [keepsLink]

theorem inside_of_ignoreEdge {v : Nat} (h : v ∈ g.keptVertices bounds .ignoreEdge) :
    g.inside bounds v = true := by
  obtain ⟨-, e, l, -, hk, hend⟩ := mem_keptVertices.1 h
  rw [keepsLink_ignoreEdge, Bool.and_eq_true] at hk
  rcases endsAt_iff.1 hend with rfl | rfl
  · exact hk.1
  · exact hk.2

theorem exists_cropsTo_ignoreEdge (hg : g.validate = .ok ()) (bounds : Box κ) :
    ∃ h, CropsTo bounds .ignoreEdge g h ∧ h.validate = .ok () ∧
      IsPart (g.keptVertices bounds .ignoreEdge) (g.keptEdges bounds .ignoreEdge) g h :=
  exists_cropsTo hg (Selection.exists_of (validate_eq_ok.1 hg).1 fun h => by cases h)
    fun _ => inside_of_ignoreEdge

section Common

variable (hc : ∀ p, c.contains p = (a.contains p && b.contains p))
include hc

/-- What is inside the common part of two boxes is inside both. -/
theorem inside_common (g : EdgeGeometry κ) (v : Nat) : g.inside c v = (g.inside a v && g.inside b v) := by
  unfold inside
  cases g.vertex? v with
  | none => rfl
  | some p => exact hc p

theorem keepsLink_common (g : EdgeGeometry κ) (l : Link) :
    g.keepsLink c .ignoreEdge l = (g.keepsLink a .ignoreEdge l && g.keepsLink b .ignoreEdge l) := by
  simp only [keepsLink_ignoreEdge, inside_common hc]
  ac_rfl

variable (hm : IsPart (g.keptVertices a .ignoreEdge) (g.keptEdges a .ignoreEdge) g m)
include hm

/-- The edges that one crop to the common part keeps are those that the second
crop keeps of what the first one left. -/
theorem mem_keptEdges_common (e : Nat) : e ∈ g.keptEdges c .ignoreEdge ↔
    ∃ j ∈ m.keptEdges b .ignoreEdge, (g.keptEdges a .ignoreEdge)[j]? = some e := by
  constructor
  · intro he
    obtain ⟨old, ho, hk⟩ := mem_keptEdges.1 he
    rw [keepsLink_common hc, Bool.and_eq_true] at hk
    obtain ⟨j, hj⟩ := List.mem_iff_getElem?.1 ((mem_keptEdges_iff ho).2 hk.1)
    obtain ⟨new, hn, hr⟩ := hm.exists_edge hj ho
    exact ⟨j, (mem_keptEdges_iff hn).2 ((hm.keepsLink hr).trans hk.2), hj⟩
  · rintro ⟨j, hj, he⟩
    obtain ⟨old, new, ho, hn, hr⟩ := hm.edge j e he
    have hka := (mem_keptEdges_iff ho).1 (List.mem_of_getElem? he)
    have hkb := (mem_keptEdges_iff hn).1 hj
    rw [mem_keptEdges_iff ho, keepsLink_common hc, hka, ← hm.keepsLink hr, hkb, Bool.true_and]

theorem mem_keptVertices_common (w : Nat) : w ∈ g.keptVertices c .ignoreEdge ↔
    ∃ i ∈ m.keptVertices b .ignoreEdge, (g.keptVertices a .ignoreEdge)[i]? = some w := by
  -- a vertex is kept for one of its edges, which is kept on both ways
  constructor
  · intro hw
    obtain ⟨-, e, old, ho, hk, hend⟩ := mem_keptVertices.1 hw
    obtain ⟨j, hj, he⟩ := (mem_keptEdges_common hc hm e).1 ((mem_keptEdges_iff ho).2 hk)
    obtain ⟨new, hn, hr⟩ := hm.exists_edge he ho
    obtain ⟨i, hi, hnew⟩ := hr.exists_end hend
    have hlt : i < m.vertexCount := hm.vertexCount ▸ (List.getElem?_eq_some_iff.1 hi).1
    exact ⟨i, mem_keptVertices.2 ⟨hlt, j, new, hn, (mem_keptEdges_iff hn).1 hj, hnew⟩, hi⟩
  · rintro ⟨i, hi, hw⟩
    obtain ⟨-, j, new, hn, hk, hend⟩ := mem_keptVertices.1 hi
    have hj : j < (g.keptEdges a .ignoreEdge).length := hm.edgeCount ▸ lt_edgeCount hn
    have he := List.getElem?_eq_getElem hj
    obtain ⟨old, new', ho, hn', hr⟩ := hm.edge j _ he
    obtain rfl : new = new' := Option.some.inj (hn.symm.trans hn')
    have hkc := (mem_keptEdges_common hc hm _).2 ⟨j, (mem_keptEdges_iff hn).2 hk, he⟩
    have hlt := (mem_keptVertices.1 (List.mem_of_getElem? hw)).1
    exact mem_keptVertices.2 ⟨hlt, _, old, ho, (mem_keptEdges_iff ho).1 hkc, hr.endsAt hend hw⟩

end Common

/-- Two crops, one after the other, leave what one crop to the common part of
both boxes leaves. -/
theorem exists_cropsTo_twice (hg : g.validate = .ok ()) (hc : ∀ p, c.contains p = (a.contains p && b.contains p)) :
    ∃ m r, CropsTo a .ignoreEdge g m ∧ CropsTo b .ignoreEdge m r ∧ CropsTo c .ignoreEdge g r := by
  obtain ⟨m, hgm, hfit, hm⟩ := exists_cropsTo_ignoreEdge hg a
  obtain ⟨r, hmr, -, hr⟩ := exists_cropsTo_ignoreEdge hfit b
  obtain ⟨r', hgr, -, hr'⟩ := exists_cropsTo_ignoreEdge hg c
  have hvs := map_some_of_mem keptVertices_sorted keptVertices_sorted keptVertices_sorted
    (fun i hi => hm.vertexCount ▸ (mem_keptVertices.1 hi).1) (mem_keptVertices_common hc hm)
  have hes := map_some_of_mem keptEdges_sorted keptEdges_sorted keptEdges_sorted
    (fun j hj => by
      obtain ⟨l, hl, -⟩ := mem_keptEdges.1 hj
      exact hm.edgeCount ▸ lt_edgeCount hl)
    (mem_keptEdges_common hc hm)
  have he : r = r' := (hm.trans hr hvs hes).unique keptVertices_nodup hr'
  exact ⟨m, r, hgm, hmr, he ▸ hgr⟩

/-- Crops to two boxes leave the same in either order, namely what one crop to
the common part leaves. -/
theorem crop_ignoreEdge_common (hg : g.validate = .ok ())
    (hc : ∀ p, c.contains p = true ↔ a.contains p = true ∧ b.contains p = true) :
    ∃ ma mb r, (CropsTo a .ignoreEdge g ma ∧ CropsTo b .ignoreEdge ma r) ∧
      (CropsTo b .ignoreEdge g mb ∧ CropsTo a .ignoreEdge mb r) ∧ CropsTo c .ignoreEdge g r := by
  have hab : ∀ p, c.contains p = (a.contains p && b.contains p) := by
    intro p
    rw [Bool.eq_iff_iff, Bool.and_eq_true]
    exact hc p
  have hba : ∀ p, c.contains p = (b.contains p && a.contains p) := by
    intro p
    rw [hab p, Bool.and_comm]
  obtain ⟨ma, r, hga, har, hr⟩ := exists_cropsTo_twice hg hab
  obtain ⟨mb, r', hgb, hbr, hr'⟩ := exists_cropsTo_twice hg hba
  obtain rfl := hr.unique hr'
  exact ⟨ma, mb, r, ⟨hga, har⟩, ⟨hgb, hbr⟩, hr⟩

/-- Four vertices in a row, an edge between neighbours. -/
def row : EdgeGeometry Exact :=
  .ofLists [⟨.rat 0, .rat 0, .rat 0⟩, ⟨.rat 1, .rat 0, .rat 0⟩, ⟨.rat 2, .rat 0, .rat 0⟩, ⟨.rat 3, .rat 0, .rat 0⟩]
    [(0, 1), (1, 2), (2, 3)]

/-- The box between two planes across the row. -/
def between (lo hi : ℚ) : Box Exact :=
  .ofAxes (· = .x) ⟨.rat lo, .rat 0, .rat 0⟩ ⟨.rat hi, .rat 0, .rat 0⟩

theorem between_common (l₁ h₁ l₂ h₂ : ℚ) (p : Point Exact) :
    (between (max l₁ l₂) (min h₁ h₂)).contains p = true ↔
      (between l₁ h₁).contains p = true ∧ (between l₂ h₂).contains p = true := by
  have hlo : Coordinate.le (.rat (max l₁ l₂)) p.x = true ↔
      Coordinate.le (.rat l₁) p.x = true ∧ Coordinate.le (.rat l₂) p.x = true := by
    cases p.x <;> simp [Coordinate.le, Exact.le]
  have hhi : Coordinate.le p.x (.rat (min h₁ h₂)) = true ↔
      Coordinate.le p.x (.rat h₁) = true ∧ Coordinate.le p.x (.rat h₂) = true := by
    cases p.x <;> simp [Coordinate.le, Exact.le]
  have hcontains : ∀ l h, (between l h).contains p = true ↔
      (Coordinate.le (.rat l) p.x = true ∧ Coordinate.le p.x (.rat h) = true) ∧ ∀ d ∈ [Axis.y, Axis.z],
        Coordinate.le .negInf (p.coord d) = true ∧ Coordinate.le (p.coord d) .posInf = true := by
    intro l h
    simp only [Box.contains_iff, Axis.all, List.forall_mem_cons, List.not_mem_nil, false_imp_iff, implies_true,
      and_true]
    rfl
  rw [hcontains, hcontains, hcontains, hlo, hhi]
  tauto

theorem crop_ignoreEdge_common_row : row.validate = .ok () ∧
    ∃ ma mb r, (CropsTo (between 0 2) .ignoreEdge row ma ∧ CropsTo (between 1 3) .ignoreEdge ma r) ∧
      (CropsTo (between 1 3) .ignoreEdge row mb ∧ CropsTo (between 0 2) .ignoreEdge mb r) ∧
      CropsTo (between (max 0 1) (min 2 3)) .ignoreEdge row r := by
  have hfit : row.validate = .ok () := by decide +kernel
  exact ⟨hfit, crop_ignoreEdge_common hfit (between_common 0 2 1 3)⟩

end Wireframe
