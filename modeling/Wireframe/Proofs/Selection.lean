import Wireframe.Crop.Selection
import Wireframe.Proofs.EdgeGeometry
import Wireframe.Proofs.SortedMap
/-!
# What a crop keeps, said of the geometry

`keptEdges` and `keptVertices` say which elements belong to a crop without
masks or verdicts: edges by where their endpoints lie, vertices by the kept
edges that end there. A selection that succeeds is described by them: its two
masks keep these elements, and it moves exactly the kept vertices outside the
box.
-/

namespace Wireframe

variable {κ : Type} [Coordinate κ]

/-! ## The kept elements -/

namespace EdgeGeometry

/-- Whether a vertex exists and lies in the box. -/
def inside (g : EdgeGeometry κ) (bounds : Box κ) (v : Nat) : Bool := (g.vertex? v).any bounds.contains

/-- Whether an edge is kept: always with both endpoints in the box, with one
of them if the other can be moved. -/
def keepsLink (g : EdgeGeometry κ) (bounds : Box κ) (policy : BoundaryPolicy) (l : Link) : Bool :=
  let a := g.inside bounds l.1.toNat
  let b := g.inside bounds l.2.toNat
  a && b || policy = .interpolate && a != b

/-- The kept edges, in ascending order. -/
def keptEdges (g : EdgeGeometry κ) (bounds : Box κ) (policy : BoundaryPolicy) : List Nat :=
  (List.range g.edgeCount).filter fun e => (g.edge? e).any (g.keepsLink bounds policy)

/-- Whether an edge ends at a vertex. -/
def endsAt (l : Link) (v : Nat) : Bool := l.1.toNat == v || l.2.toNat == v

/-- The vertices at which kept edges end, in ascending order. -/
def keptVertices (g : EdgeGeometry κ) (bounds : Box κ) (policy : BoundaryPolicy) : List Nat :=
  (List.range g.vertexCount).filter fun v =>
    (g.keptEdges bounds policy).any fun e => (g.edge? e).any fun l => endsAt l v

variable {g : EdgeGeometry κ} {bounds : Box κ} {policy : BoundaryPolicy}

theorem endsAt_iff {l : Link} {v : Nat} : endsAt l v = true ↔ l.1.toNat = v ∨ l.2.toNat = v := by
  simp [endsAt]

theorem mem_keptEdges {e : Nat} :
    e ∈ g.keptEdges bounds policy ↔ ∃ l, g.edge? e = some l ∧ g.keepsLink bounds policy l = true := by
  rw [keptEdges, List.mem_filter, List.mem_range, Option.any_eq_true]
  constructor
  · exact And.right
  · rintro ⟨l, hl, hk⟩
    exact ⟨lt_edgeCount hl, l, hl, hk⟩

theorem mem_keptEdges_iff {e : Nat} {l : Link} (hl : g.edge? e = some l) :
    e ∈ g.keptEdges bounds policy ↔ g.keepsLink bounds policy l = true := by
  simp [mem_keptEdges, hl]

theorem mem_keptVertices {v : Nat} : v ∈ g.keptVertices bounds policy ↔
    v < g.vertexCount ∧ ∃ e l, g.edge? e = some l ∧ g.keepsLink bounds policy l = true ∧ endsAt l v = true := by
  rw [keptVertices, List.mem_filter, List.mem_range, List.any_eq_true]
  refine and_congr_right fun _ => ?_
  constructor
  · rintro ⟨e, he, h⟩
    obtain ⟨l, hl, hv⟩ := (Option.any_eq_true _ _).1 h
    obtain ⟨l', hl', hk⟩ := mem_keptEdges.1 he
    rw [hl, Option.some.injEq] at hl'
    exact ⟨e, l, hl, hl' ▸ hk, hv⟩
  · rintro ⟨e, l, hl, hk, hv⟩
    exact ⟨e, mem_keptEdges.2 ⟨l, hl, hk⟩, (Option.any_eq_true _ _).2 ⟨l, hl, hv⟩⟩

theorem keptEdges_sorted : (g.keptEdges bounds policy).Pairwise (· < ·) :=
  List.pairwise_lt_range.filter _

theorem keptVertices_sorted : (g.keptVertices bounds policy).Pairwise (· < ·) :=
  List.pairwise_lt_range.filter _

theorem keptVertices_nodup : (g.keptVertices bounds policy).Nodup :=
  keptVertices_sorted.imp Nat.ne_of_lt

end EdgeGeometry

/-! ## Verdicts -/

/-- The verdict on an edge whose endpoints are at `p` and `q`. -/
inductive Judged (bounds : Box κ) (policy : BoundaryPolicy) (l : Link) (p q : Point κ) : Verdict κ → Prop
  | inside (hp : bounds.contains p = true) (hq : bounds.contains q = true) : Judged bounds policy l p q .keep
  | outside (hp : bounds.contains p = false) (hq : bounds.contains q = false) : Judged bounds policy l p q .drop
  | ignored (h : bounds.contains p ≠ bounds.contains q) (hi : policy = .ignoreEdge) :
      Judged bounds policy l p q .drop
  | second (hp : bounds.contains p = true) (hq : bounds.contains q = false) (hi : policy = .interpolate) :
      Judged bounds policy l p q (.keepMoving l.2.toNat (bounds.exitPoint p q))
  | first (hp : bounds.contains p = false) (hq : bounds.contains q = true) (hi : policy = .interpolate) :
      Judged bounds policy l p q (.keepMoving l.1.toNat (bounds.exitPoint q p))

theorem judgeAcross_eq_ok {bounds : Box κ} {policy : BoundaryPolicy} {e : Nat} {p q : Point κ} {w : UInt64}
    {v : Verdict κ} : judgeAcross bounds policy e p q w = .ok v ↔
      policy = .ignoreEdge ∧ v = .drop ∨ policy = .interpolate ∧ v = .keepMoving w.toNat (bounds.exitPoint p q) := by
  cases policy <;> simp [judgeAcross, eq_comm]

theorem judge_eq_ok {points : List (Point κ)} {bounds : Box κ} {policy : BoundaryPolicy} {l : Link} {e : Nat}
    {v : Verdict κ} : judge points bounds policy l e = .ok v ↔
      ∃ p q, points[l.1.toNat]? = some p ∧ points[l.2.toNat]? = some q ∧ Judged bounds policy l p q v := by
  unfold judge
  constructor
  · intro h
    split at h
    next => cases h
    next => cases h
    next p q hp hq =>
      refine ⟨p, q, hp, hq, ?_⟩
      split at h
      next cp cq => cases h; exact .inside cp cq
      next cp cq => cases h; exact .outside cp cq
      next cp cq =>
        rcases judgeAcross_eq_ok.1 h with ⟨hi, rfl⟩ | ⟨hi, rfl⟩
        · exact .ignored (by simp [cp, cq]) hi
        · exact .second cp cq hi
      next cp cq =>
        rcases judgeAcross_eq_ok.1 h with ⟨hi, rfl⟩ | ⟨hi, rfl⟩
        · exact .ignored (by simp [cp, cq]) hi
        · exact .first cp cq hi
  · rintro ⟨p, q, hp, hq, h⟩
    rw [hp, hq]
    cases h with
    | inside cp cq => simp only [cp, cq]
    | outside cp cq => simp only [cp, cq]
    | second cp cq hi => simp only [cp, cq, hi, judgeAcross]
    | first cp cq hi => simp only [cp, cq, hi, judgeAcross]
    | ignored h hi =>
      cases cp : bounds.contains p
      · have cq : bounds.contains q = true := by simpa [cp] using h.symm
        simp only [cp, cq, hi, judgeAcross]
      · have cq : bounds.contains q = false := by simpa [cp] using h.symm
        simp only [cp, cq, hi, judgeAcross]

/-- The verdicts of a pass over the edges, one for each. -/
theorem judgeAll_eq_ok {g : EdgeGeometry κ} {bounds : Box κ} {policy : BoundaryPolicy} {vs : List (Verdict κ)} :
    judgeAll g bounds policy = .ok vs ↔ List.Forall₂ (fun l v => ∃ p q, g.vertex? l.1.toNat = some p ∧
      g.vertex? l.2.toNat = some q ∧ Judged bounds policy l p q v) g.links vs := by
  unfold judgeAll
  simp only [mapM_eq_ok, judge_eq_ok, EdgeGeometry.getElem?_points]
  rw [← List.forall₂_map_left_iff (f := Prod.fst) (R := fun l v => ∃ p q, g.vertex? l.1.toNat = some p ∧
      g.vertex? l.2.toNat = some q ∧ Judged bounds policy l p q v), List.zipIdx_map_fst]

/-- An edge can be judged unless it is across the boundary and that is a failure. -/
theorem exists_judged {bounds : Box κ} {policy : BoundaryPolicy} (l : Link) (p q : Point κ)
    (h : policy = .fail → bounds.contains p = bounds.contains q) : ∃ v, Judged bounds policy l p q v := by
  by_cases he : bounds.contains p = bounds.contains q
  · cases cp : bounds.contains p
    · exact ⟨_, .outside cp (he ▸ cp)⟩
    · exact ⟨_, .inside cp (he ▸ cp)⟩
  · cases policy with
    | fail => exact absurd (h rfl) he
    | ignoreEdge => exact ⟨_, .ignored he rfl⟩
    | interpolate =>
      cases cp : bounds.contains p with
      | true => exact ⟨_, .second cp (by simpa [cp] using he) rfl⟩
      | false => exact ⟨_, .first cp (by simpa [cp] using he) rfl⟩

namespace Judged

variable {bounds : Box κ} {policy : BoundaryPolicy} {g : EdgeGeometry κ} {l : Link} {p q : Point κ} {v : Verdict κ}

/-- An edge is kept by its verdict as `keepsLink` says. -/
theorem kept_eq (hp : g.vertex? l.1.toNat = some p) (hq : g.vertex? l.2.toNat = some q)
    (h : Judged bounds policy l p q v) : g.keepsLink bounds policy l = v.kept := by
  simp only [EdgeGeometry.keepsLink, EdgeGeometry.inside, hp, hq, Option.any_some]
  cases h with
  | inside cp cq => simp [cp, cq, Verdict.kept]
  | outside cp cq => simp [cp, cq, Verdict.kept]
  | second cp cq hi => simp [cp, cq, hi, Verdict.kept]
  | first cp cq hi => simp [cp, cq, hi, Verdict.kept]
  | ignored h hi =>
    cases cp : bounds.contains p <;> cases cq : bounds.contains q <;> simp_all [Verdict.kept]

/-- A verdict moves exactly the endpoints outside the box of an edge that is kept. -/
theorem moves_iff (hp : g.vertex? l.1.toNat = some p) (hq : g.vertex? l.2.toNat = some q)
    (h : Judged bounds policy l p q v) (w : Nat) :
    (∃ x, v.move? = some (w, x)) ↔
      v.kept = true ∧ EdgeGeometry.endsAt l w = true ∧ g.inside bounds w = false := by
  have h₁ : g.inside bounds l.1.toNat = bounds.contains p := by simp [EdgeGeometry.inside, hp]
  have h₂ : g.inside bounds l.2.toNat = bounds.contains q := by simp [EdgeGeometry.inside, hq]
  rw [EdgeGeometry.endsAt_iff]
  cases h with
  | inside cp cq =>
    simp only [Verdict.move?, reduceCtorEq, exists_false, false_iff]
    rintro ⟨-, rfl | rfl, hw⟩
    · rw [h₁, cp] at hw; cases hw
    · rw [h₂, cq] at hw; cases hw
  | outside cp cq => simp [Verdict.move?, Verdict.kept]
  | ignored hne hi => simp [Verdict.move?, Verdict.kept]
  | second cp cq hi =>
    simp only [Verdict.move?, Option.some.injEq, Prod.mk.injEq, exists_and_left, exists_eq', and_true,
      Verdict.kept, true_and]
    constructor
    · rintro rfl
      exact ⟨.inr rfl, h₂.trans cq⟩
    · rintro ⟨rfl | rfl, hw⟩
      · rw [h₁, cp] at hw; cases hw
      · rfl
  | first cp cq hi =>
    simp only [Verdict.move?, Option.some.injEq, Prod.mk.injEq, exists_and_left, exists_eq', and_true,
      Verdict.kept, true_and]
    constructor
    · rintro rfl
      exact ⟨.inl rfl, h₁.trans cp⟩
    · rintro ⟨rfl | rfl, hw⟩
      · rfl
      · rw [h₂, cq] at hw; cases hw

end Judged

/-! ## The selection -/

namespace Selection

open EdgeGeometry

variable {g : EdgeGeometry κ} {bounds : Box κ} {policy : BoundaryPolicy} {s : Selection κ}

theorem of_eq_ok : Selection.of g bounds policy = .ok s ↔
    ∃ vs, judgeAll g bounds policy = .ok vs ∧ s = ofVerdicts g vs := by
  unfold Selection.of
  cases judgeAll g bounds policy with
  | error e => simp [Except.map]
  | ok vs => simp [Except.map, eq_comm]

/-- A geometry is selected from if its endpoints exist and no edge is across
the boundary where that is a failure. -/
theorem exists_of (hends : ∀ l ∈ g.links, l.1.toNat < g.vertexCount ∧ l.2.toNat < g.vertexCount)
    (hacross : policy = .fail → ∀ l ∈ g.links, g.inside bounds l.1.toNat = g.inside bounds l.2.toNat) :
    ∃ s, Selection.of g bounds policy = .ok s := by
  obtain ⟨vs, hvs⟩ : ∃ vs, judgeAll g bounds policy = .ok vs := by
    refine exists_mapM_ok fun x hx => ?_
    have hl := List.fst_mem_of_mem_zipIdx hx
    obtain ⟨h₁, h₂⟩ := hends x.1 hl
    obtain ⟨p, hp⟩ := exists_vertex? h₁
    obtain ⟨q, hq⟩ := exists_vertex? h₂
    have hpq : policy = .fail → bounds.contains p = bounds.contains q := by
      intro hf
      simpa [inside, hp, hq] using hacross hf x.1 hl
    obtain ⟨v, hv⟩ := exists_judged x.1 p q hpq
    exact ⟨v, judge_eq_ok.2 ⟨p, q, by rw [getElem?_points, hp], by rw [getElem?_points, hq], hv⟩⟩
  exact ⟨_, of_eq_ok.2 ⟨vs, hvs, rfl⟩⟩

/-- Each edge is kept or not for itself. -/
theorem keepEdge_eq (h : Selection.of g bounds policy = .ok s) :
    s.keepEdge = g.links.map (g.keepsLink bounds policy) := by
  obtain ⟨vs, hvs, rfl⟩ := of_eq_ok.1 h
  symm
  refine map_eq_of_forall₂ (judgeAll_eq_ok.1 hvs) fun l v hl => ?_
  obtain ⟨p, q, hp, hq, hv⟩ := hl
  exact hv.kept_eq hp hq

theorem keepVertex_eq (h : Selection.of g bounds policy = .ok s) :
    s.keepVertex = endpointMask g.vertexCount (g.links.filter (g.keepsLink bounds policy)) := by
  rw [← Mask.select_of_map, ← keepEdge_eq h]
  obtain ⟨vs, -, rfl⟩ := of_eq_ok.1 h
  rfl

theorem length_keepEdge (h : Selection.of g bounds policy = .ok s) : s.keepEdge.length = g.edgeCount := by
  rw [keepEdge_eq h, List.length_map, length_links]

theorem length_keepVertex (h : Selection.of g bounds policy = .ok s) :
    s.keepVertex.length = g.vertexCount := by
  rw [keepVertex_eq h, endpointMask, List.length_map, List.length_range]

/-- The edge mask keeps the edges that belong to the crop. -/
theorem keepEdge_indices (h : Selection.of g bounds policy = .ok s) :
    s.keepEdge.indices = g.keptEdges bounds policy := by
  refine s.keepEdge.indices_sorted.eq_of_mem_iff keptEdges_sorted fun e => ?_
  rw [Mask.mem_indices, keepEdge_eq h, List.getElem?_map, getElem?_links, mem_keptEdges,
    Option.map_eq_some_iff]

omit [Coordinate κ] in
theorem endpointMask_eq_true {n v : Nat} {ls : List Link} :
    (endpointMask n ls)[v]? = some true ↔ v < n ∧ ∃ l ∈ ls, endsAt l v = true := by
  rw [endpointMask, List.getElem?_map, Option.map_eq_some_iff]
  constructor
  · rintro ⟨w, hw, hl⟩
    obtain ⟨hv, rfl⟩ := List.getElem?_eq_some_iff.1 hw
    rw [List.getElem_range] at hl
    exact ⟨by simpa using hv, List.any_eq_true.1 hl⟩
  · rintro ⟨hv, hl⟩
    exact ⟨v, List.getElem?_range hv, List.any_eq_true.2 hl⟩

/-- The vertex mask keeps the vertices that belong to the crop. -/
theorem keepVertex_indices (h : Selection.of g bounds policy = .ok s) :
    s.keepVertex.indices = g.keptVertices bounds policy := by
  refine s.keepVertex.indices_sorted.eq_of_mem_iff keptVertices_sorted fun v => ?_
  rw [Mask.mem_indices, keepVertex_eq h, endpointMask_eq_true, mem_keptVertices]
  refine and_congr_right fun _ => ?_
  constructor
  · rintro ⟨l, hl, hv⟩
    obtain ⟨hm, hk⟩ := List.mem_filter.1 hl
    obtain ⟨e, he⟩ := List.mem_iff_getElem?.1 hm
    exact ⟨e, l, getElem?_links g e ▸ he, hk, hv⟩
  · rintro ⟨e, l, he, hk, hv⟩
    rw [← getElem?_links] at he
    exact ⟨l, List.mem_filter.2 ⟨List.mem_of_getElem? he, hk⟩, hv⟩

theorem kept_edges (h : Selection.of g bounds policy = .ok s) :
    s.keepEdge.kept = (g.keptEdges bounds policy).length := by
  rw [← keepEdge_indices h, Mask.length_indices]

theorem kept_vertices (h : Selection.of g bounds policy = .ok s) :
    s.keepVertex.kept = (g.keptVertices bounds policy).length := by
  rw [← keepVertex_indices h, Mask.length_indices]

/-! ## Moved vertices -/

omit [Coordinate κ] in
theorem mem_keys_foldl_insert (xs : List (Nat × Point κ)) (m : SortedMap Nat (Point κ) compare) (v : Nat) :
    v ∈ (xs.foldl (fun m (vertex, position) => m.insert vertex position) m).keys ↔
      v ∈ m.keys ∨ ∃ x, (v, x) ∈ xs := by
  induction xs generalizing m with
  | nil => simp
  | cons x xs ih =>
    rw [List.foldl_cons, ih, SortedMap.mem_keys_insert]
    constructor
    · rintro ((rfl | h) | ⟨y, hy⟩)
      · exact .inr ⟨x.2, List.mem_cons_self⟩
      · exact .inl h
      · exact .inr ⟨y, List.mem_cons_of_mem _ hy⟩
    · rintro (h | ⟨y, hy⟩)
      · exact .inl (.inr h)
      · rcases List.mem_cons.1 hy with he | hy
        · exact .inl (.inl (congrArg Prod.fst he))
        · exact .inr ⟨y, hy⟩

/-- The moved vertices are the kept ones outside the box. -/
theorem moved_keys (h : Selection.of g bounds policy = .ok s) :
    s.moved.keys = (g.keptVertices bounds policy).filter fun v => !g.inside bounds v := by
  obtain ⟨vs, hvs, rfl⟩ := of_eq_ok.1 h
  have hall := judgeAll_eq_ok.1 hvs
  have hsorted : (moves vs).keys.Pairwise (· < ·) :=
    (moves vs).keys_sorted.imp fun h => Nat.compare_eq_lt.1 h
  -- both lists ascend, so it is enough that they have the same members
  refine hsorted.eq_of_mem_iff (keptVertices_sorted.filter _) fun w => ?_
  rw [moves, mem_keys_foldl_insert, List.mem_filter, mem_keptVertices]
  constructor
  · rintro (hw | ⟨x, hx⟩)
    · cases hw
    · obtain ⟨v, hv, hm⟩ := List.mem_filterMap.1 hx
      obtain ⟨l, hl, p, q, hp, hq, hj⟩ := exists_left_of_forall₂ hall hv
      obtain ⟨hk, he, hi⟩ := (hj.moves_iff hp hq w).1 ⟨x, hm⟩
      obtain ⟨e, hle⟩ := List.mem_iff_getElem?.1 hl
      rw [getElem?_links] at hle
      refine ⟨⟨?_, e, l, hle, (hj.kept_eq hp hq).trans hk, he⟩, by simp [hi]⟩
      rcases endsAt_iff.1 he with rfl | rfl
      · exact lt_vertexCount hp
      · exact lt_vertexCount hq
  · rintro ⟨⟨-, e, l, hle, hk, he⟩, hi⟩
    rw [← getElem?_links] at hle
    obtain ⟨v, hv, p, q, hp, hq, hj⟩ := exists_right_of_forall₂ hall (List.mem_of_getElem? hle)
    obtain ⟨x, hx⟩ := (hj.moves_iff hp hq w).2 ⟨(hj.kept_eq hp hq).symm.trans hk, he, by simpa using hi⟩
    exact .inr ⟨x, List.mem_filterMap.2 ⟨v, hv, hx⟩⟩

end Selection

end Wireframe
