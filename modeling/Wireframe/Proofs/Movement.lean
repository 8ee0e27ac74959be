import Wireframe.Proofs.CompleteCrop
import Mathlib.Data.List.Induction
/-!
# Where vertices go

A kept vertex inside the box stays where it was. One outside is tied to the
inside by at least one kept edge, and each such edge writes the point where it
leaves the box over what the edges before it wrote. So the last edge of the
list that ties the vertex to the inside decides.
-/

namespace Wireframe

variable {κ : Type}

/-! ## The last move -/

namespace Selection

/-- The verdict at `e` moves `w` to `x`, and no later one moves `w`. -/
def LastMove (vs : List (Verdict κ)) (w e : Nat) (x : Point κ) : Prop :=
  (∃ v, vs[e]? = some v ∧ v.move? = some (w, x)) ∧
    ∀ e' v x', e < e' → vs[e']? = some v → v.move? ≠ some (w, x')

theorem LastMove.append {vs : List (Verdict κ)} {w e : Nat} {x : Point κ} {v : Verdict κ}
    (h : LastMove vs w e x) (hv : ∀ x', v.move? ≠ some (w, x')) : LastMove (vs ++ [v]) w e x := by
  obtain ⟨⟨u, hu, hm⟩, hlast⟩ := h
  refine ⟨⟨u, by rw [List.getElem?_append_left (List.getElem?_eq_some_iff.1 hu).1, hu], hm⟩, ?_⟩
  intro e' v' x' he hv'
  rw [List.getElem?_append] at hv'
  split at hv'
  · exact hlast e' v' x' he hv'
  · obtain rfl : v' = v := by simpa using List.mem_of_getElem? hv'
    exact hv x'

theorem moves_append (vs : List (Verdict κ)) (v : Verdict κ) :
    moves (vs ++ [v]) = match v.move? with
      | some (w, x) => (moves vs).insert w x
      | none => moves vs := by
  unfold moves
  cases hv : v.move? <;> simp [List.filterMap_append, List.foldl_append, hv]

/-- A vertex goes where the last verdict that moves it says. -/
theorem lastMove_of_moves {vs : List (Verdict κ)} {w : Nat} {x : Point κ} (h : (moves vs).find? w = some x) :
    ∃ e, LastMove vs w e x := by
  induction vs using List.reverseRecOn with
  | nil => cases h
  | append_singleton vs v ih =>
    rw [moves_append] at h
    cases hv : v.move? with
    | none =>
      rw [hv] at h
      obtain ⟨e, he⟩ := ih h
      exact ⟨e, he.append (by simp [hv])⟩
    | some m =>
      rw [hv] at h
      dsimp only at h
      by_cases hw : w = m.1
      · subst hw
        rw [SortedMap.find?_insert_self, Option.some.injEq] at h
        refine ⟨vs.length, ⟨v, by simp, by rw [hv, ← h]⟩, fun e' v' x' he hv' => ?_⟩
        have hlt := (List.getElem?_eq_some_iff.1 hv').1
        rw [List.length_append, List.length_singleton] at hlt
        omega
      · rw [SortedMap.find?_insert_of_ne _ _ hw] at h
        obtain ⟨e, he⟩ := ih h
        refine ⟨e, he.append fun x' hx => hw ?_⟩
        rw [hv, Option.some.injEq] at hx
        rw [hx]

end Selection

/-! ## The last tie -/

namespace EdgeGeometry

variable [Coordinate κ]

/-- Edge `e` joins vertex `w` to vertex `u`, which is inside the box. -/
def Ties (g : EdgeGeometry κ) (bounds : Box κ) (e u w : Nat) : Prop :=
  ∃ l, g.edge? e = some l ∧ (l.1.toNat = u ∧ l.2.toNat = w ∨ l.1.toNat = w ∧ l.2.toNat = u) ∧
    g.inside bounds u = true

/-- Of all edges that join `w` to the inside `e` is the last. -/
def LastTie (g : EdgeGeometry κ) (bounds : Box κ) (e u w : Nat) : Prop :=
  g.Ties bounds e u w ∧ ∀ e' u', g.Ties bounds e' u' w → e' ≤ e

theorem Ties.endsAt {g : EdgeGeometry κ} {bounds : Box κ} {e u w : Nat} {l : Link} (h : g.Ties bounds e u w)
    (hl : g.edge? e = some l) : EdgeGeometry.endsAt l w = true := by
  obtain ⟨l', hl', hends, -⟩ := h
  rw [hl, Option.some.injEq] at hl'
  subst hl'
  rw [endsAt_iff]
  rcases hends with ⟨-, hw⟩ | ⟨hw, -⟩
  · exact .inr hw
  · exact .inl hw

/-- An edge from a vertex outside to one inside is kept where vertices are moved. -/
theorem Ties.keepsLink {g : EdgeGeometry κ} {bounds : Box κ} {e u w : Nat} {l : Link} (h : g.Ties bounds e u w)
    (hl : g.edge? e = some l) (hw : g.inside bounds w = false) : g.keepsLink bounds .interpolate l = true := by
  obtain ⟨l', hl', hends, hu⟩ := h
  rw [hl, Option.some.injEq] at hl'
  subst hl'
  rcases hends with ⟨rfl, rfl⟩ | ⟨rfl, rfl⟩ <;> simp [EdgeGeometry.keepsLink, hu, hw]

end EdgeGeometry

variable [Coordinate κ] {src dst : EdgeGeometry κ} {bounds : Box κ} {policy : BoundaryPolicy}
  {schedule : Schedule} {stats : CropStats} {s : Selection κ}

/-- A verdict that moves a vertex has found its edge to tie it to the inside,
and moves it to where that edge leaves the box. -/
theorem Judged.move_eq_some {l : Link} {e w : Nat} {p q x : Point κ} {v : Verdict κ}
    (h : Judged bounds policy l p q v) (hl : src.edge? e = some l) (hp : src.vertex? l.1.toNat = some p)
    (hq : src.vertex? l.2.toNat = some q) (hx : v.move? = some (w, x)) :
    policy = .interpolate ∧ ∃ u a b, src.Ties bounds e u w ∧ src.vertex? u = some a ∧
      src.vertex? w = some b ∧ bounds.contains a = true ∧ bounds.contains b = false ∧
      x = bounds.exitPoint a b := by
  cases h with
  | inside | outside | ignored => cases hx
  | second cp cq hi =>
    cases hx
    have hin : src.inside bounds l.1.toNat = true := by simp [EdgeGeometry.inside, hp, cp]
    exact ⟨hi, _, p, q, ⟨l, hl, .inl ⟨rfl, rfl⟩, hin⟩, hp, hq, cp, cq, rfl⟩
  | first cp cq hi =>
    cases hx
    have hin : src.inside bounds l.2.toNat = true := by simp [EdgeGeometry.inside, hq, cq]
    exact ⟨hi, _, q, p, ⟨l, hl, .inr ⟨rfl, rfl⟩, hin⟩, hq, hp, cq, cp, rfl⟩

namespace Selection

/-- A moved vertex goes to where its last tie to the inside leaves the box. -/
theorem moved_spec (h : Selection.of src bounds policy = .ok s) {w : Nat} {x : Point κ}
    (hx : s.moved.find? w = some x) :
    ∃ e u a b, src.LastTie bounds e u w ∧ src.vertex? u = some a ∧ src.vertex? w = some b ∧
      bounds.contains a = true ∧ bounds.contains b = false ∧ x = bounds.exitPoint a b := by
  obtain ⟨vs, hvs, rfl⟩ := of_eq_ok.1 h
  have hall := judgeAll_eq_ok.1 hvs
  obtain ⟨e, ⟨v, hv, hm⟩, hlast⟩ := lastMove_of_moves hx
  have hlen := hall.length_eq
  obtain ⟨l, hl⟩ : ∃ l, src.links[e]? = some l :=
    ⟨_, List.getElem?_eq_getElem (hlen ▸ (List.getElem?_eq_some_iff.1 hv).1)⟩
  obtain ⟨v', hv', p, q, hp, hq, hj⟩ := getElem?_of_forall₂ hall hl
  rw [hv, Option.some.injEq] at hv'
  subst hv'
  rw [EdgeGeometry.getElem?_links] at hl
  obtain ⟨rfl, u, a, b, htie, ha, hb, ca, cb, rfl⟩ := hj.move_eq_some hl hp hq hm
  refine ⟨e, u, a, b, ⟨htie, fun e' u' htie' => ?_⟩, ha, hb, ca, cb, rfl⟩
  by_contra hlt
  -- a later tie would have moved the vertex once more
  obtain ⟨l', hl', -⟩ := id htie'
  have hw : src.inside bounds w = false := by simp [EdgeGeometry.inside, hb, cb]
  obtain ⟨v', hv', p', q', hp', hq', hj'⟩ := getElem?_of_forall₂ hall (src.getElem?_links e' ▸ hl')
  have hk := (hj'.kept_eq hp' hq').symm.trans (htie'.keepsLink hl' hw)
  obtain ⟨x', hx'⟩ := (hj'.moves_iff hp' hq' w).2 ⟨hk, htie'.endsAt hl', hw⟩
  exact hlast e' v' x' (by omega) hv' hx'

/-- A kept vertex is where it was moved to, else where it was. -/
theorem vertex?_compact (h : Selection.of src bounds policy = .ok s) (links : List Link) {i v : Nat} {p : Point κ}
    (hi : (src.keptVertices bounds policy)[i]? = some v) (hp : src.vertex? v = some p) :
    (s.compact src dst links).vertex? i = some ((s.moved.find? v).getD p) := by
  rw [← EdgeGeometry.getElem?_points, EdgeGeometry.points_of_vertices (g := s.compact src dst links) rfl,
    positions, List.getElem?_map, keepVertex_indices h, hi, Option.map_some, EdgeGeometry.getElem?_points, hp]
  cases s.moved.find? v <;> rfl

/-- The vertices inside the box are not moved. -/
theorem moved_eq_none (h : Selection.of src bounds policy = .ok s) {v : Nat} (hv : src.inside bounds v = true) :
    s.moved.find? v = none := by
  rw [SortedMap.find?_eq_none, moved_keys h, List.mem_filter]
  simp [hv]

/-- The kept vertices outside the box are moved. -/
theorem exists_moved (h : Selection.of src bounds policy = .ok s) {v : Nat}
    (hk : v ∈ src.keptVertices bounds policy) (hv : src.inside bounds v = false) :
    ∃ x, s.moved.find? v = some x := by
  rw [← SortedMap.mem_keys, moved_keys h, List.mem_filter]
  exact ⟨hk, by simp [hv]⟩

end Selection

/-- In a complete crop a vertex that was inside the box is where it was. Any
other is where the last edge that tied it to a vertex inside leaves the box. -/
theorem crop_places (h : (crop src dst bounds policy schedule).result = .ok (.complete stats)) {i v : Nat}
    (hv : (src.keptVertices bounds policy)[i]? = some v) :
    ∃ p, src.vertex? v = some p ∧
      (bounds.contains p = true → (crop src dst bounds policy schedule).destination.vertex? i = some p) ∧
      (bounds.contains p = false → ∃ e u q, src.LastTie bounds e u v ∧ src.vertex? u = some q ∧
        (crop src dst bounds policy schedule).destination.vertex? i = some (bounds.exitPoint q p)) := by
  obtain ⟨s, links, hs, -, -, hd, -⟩ := crop_complete h
  have hmem := List.mem_of_getElem? hv
  obtain ⟨p, hp⟩ := EdgeGeometry.exists_vertex? (EdgeGeometry.mem_keptVertices.1 hmem).1
  have hdst : (crop src dst bounds policy schedule).destination.vertex? i = some ((s.moved.find? v).getD p) := by
    rw [hd]
    exact Selection.vertex?_compact hs links hv hp
  refine ⟨p, hp, fun hc => ?_, fun hc => ?_⟩
  · rw [hdst, Selection.moved_eq_none hs (by simp [EdgeGeometry.inside, hp, hc]), Option.getD_none]
  · obtain ⟨x, hx⟩ := Selection.exists_moved hs hmem (by simp [EdgeGeometry.inside, hp, hc])
    obtain ⟨e, u, q, b, hlast, hq, hb, -, -, rfl⟩ := Selection.moved_spec hs hx
    rw [hp, Option.some.injEq] at hb
    subst hb
    exact ⟨e, u, q, hlast, hq, by rw [hdst, hx, Option.getD_some]⟩

/-- A vertex outside that two edges tie to the inside, once in either direction. -/
def fork : EdgeGeometry Float32 := .ofLists [⟨0, 0, 0⟩, ⟨0, 1, 0⟩, ⟨2, 0, 0⟩] [(0, 2), (2, 1), (1, 0)]

theorem crop_places_fork :
    (crop fork fork.emptyLike upToMiddle .interpolate .never).result = .ok (.complete ⟨3, 3, 1⟩) ∧
      (fork.keptVertices upToMiddle .interpolate)[2]? = some 2 ∧
      ∃ e u q, fork.LastTie upToMiddle e u 2 ∧ fork.vertex? u = some q ∧
        (crop fork fork.emptyLike upToMiddle .interpolate .never).destination.vertex? 2 =
          some (upToMiddle.exitPoint q ⟨2, 0, 0⟩) := by
  have hr : (crop fork fork.emptyLike upToMiddle .interpolate .never).result =
      .ok (.complete ⟨3, 3, 1⟩) := by with_unfolding_all rfl
  have hv : (fork.keptVertices upToMiddle .interpolate)[2]? = some 2 := by decide +kernel
  obtain ⟨p, hp, -, hout⟩ := crop_places hr hv
  have hp' : fork.vertex? 2 = some ⟨2, 0, 0⟩ := by decide +kernel
  obtain rfl : p = ⟨2, 0, 0⟩ := Option.some.inj (hp.symm.trans hp')
  exact ⟨hr, hv, hout (by decide +kernel)⟩

end Wireframe
