import Wireframe.Proofs.Selection
/-!
# Renumbered edges

A kept edge gets as new endpoints the ranks of the old ones among the kept
vertices. After a selection that succeeded every endpoint of a kept edge has a
rank, so renumbering never fails; and no rank exceeds the old number, so each
fits into the 64 bits of an endpoint.
-/

namespace Wireframe.Selection

open EdgeGeometry

variable {κ : Type}

/-- The new endpoints lead back to the old ones; `kept` lists the kept
vertices in ascending order. -/
def Renumbered (kept : List Nat) (old new : Link) : Prop :=
  kept[new.1.toNat]? = some old.1.toNat ∧ kept[new.2.toNat]? = some old.2.toNat

theorem toNat_ofNat_rank {m : Mask} {r : Nat} {v : UInt64} (h : m.indices[r]? = some v.toNat) :
    (UInt64.ofNat r).toNat = r := by
  have hle := Mask.le_of_indices h
  exact UInt64.toNat_ofNat_of_lt (Nat.lt_of_le_of_lt hle v.toNat_lt_size)

theorem renumber_ok {m : Mask} {l : Link} (e : Nat) (h₁ : m[l.1.toNat]? = some true)
    (h₂ : m[l.2.toNat]? = some true) :
    ∃ new : Link, (renumber m.ranks l e : Except (CropError κ) Link) = .ok new ∧ Renumbered m.indices l new := by
  obtain ⟨i, hi⟩ := Mask.ranks_of_kept h₁
  obtain ⟨j, hj⟩ := Mask.ranks_of_kept h₂
  refine ⟨(.ofNat i, .ofNat j), by rw [renumber, hi, hj], ?_⟩
  rw [Mask.ranks_eq_some] at hi hj
  exact ⟨by rw [toNat_ofNat_rank hi, hi], by rw [toNat_ofNat_rank hj, hj]⟩

variable [Coordinate κ] {g : EdgeGeometry κ} {bounds : Box κ} {policy : BoundaryPolicy} {s : Selection κ}

/-- After a selection that succeeded every endpoint is a vertex. -/
theorem endpoints_exist (h : Selection.of g bounds policy = .ok s) {l : Link} (hl : l ∈ g.links) :
    l.1.toNat < g.vertexCount ∧ l.2.toNat < g.vertexCount := by
  obtain ⟨vs, hvs, -⟩ := of_eq_ok.1 h
  obtain ⟨v, -, p, q, hp, hq, -⟩ := exists_right_of_forall₂ (judgeAll_eq_ok.1 hvs) hl
  exact ⟨lt_vertexCount hp, lt_vertexCount hq⟩

theorem select_links (h : Selection.of g bounds policy = .ok s) :
    s.keepEdge.select g.links.zipIdx = g.links.zipIdx.filter fun x => g.keepsLink bounds policy x.1 := by
  rw [← Mask.select_of_map, keepEdge_eq h, ← List.zipIdx_map_fst 0 g.links, List.map_map,
    List.zipIdx_map_fst]
  rfl

/-- The kept edges, each in the place of its number. -/
theorem getElem?_select_links (h : Selection.of g bounds policy = .ok s) {j e : Nat}
    (he : (g.keptEdges bounds policy)[j]? = some e) :
    ∃ l, g.edge? e = some l ∧ (s.keepEdge.select g.links.zipIdx)[j]? = some (l, e) := by
  obtain ⟨l, hl, -⟩ := mem_keptEdges.1 (List.mem_of_getElem? he)
  refine ⟨l, hl, ?_⟩
  have hlen : s.keepEdge.length ≤ g.links.zipIdx.length := by
    rw [length_keepEdge h, List.length_zipIdx, length_links]
  rw [Mask.getElem?_select hlen, keepEdge_indices h, he, Option.bind_some, List.getElem?_zipIdx,
    getElem?_links, hl, Option.map_some, Nat.zero_add]

theorem renumber_selected (h : Selection.of g bounds policy = .ok s) {x : Link × Nat}
    (hx : x ∈ s.keepEdge.select g.links.zipIdx) :
    ∃ new, (renumber s.keepVertex.ranks x.1 x.2 : Except (CropError κ) Link) = .ok new ∧
      Renumbered (g.keptVertices bounds policy) x.1 new := by
  rw [select_links h] at hx
  obtain ⟨hm, hk⟩ := List.mem_filter.1 hx
  have hl : x.1 ∈ g.links := List.fst_mem_of_mem_zipIdx hm
  obtain ⟨h₁, h₂⟩ := endpoints_exist h hl
  have hkept : ∀ v, v < g.vertexCount → endsAt x.1 v = true → s.keepVertex[v]? = some true := by
    intro v hv hend
    rw [keepVertex_eq h, endpointMask_eq_true]
    exact ⟨hv, x.1, List.mem_filter.2 ⟨hl, hk⟩, hend⟩
  rw [← keepVertex_indices h]
  exact renumber_ok x.2 (hkept _ h₁ (by simp [endsAt])) (hkept _ h₂ (by simp [endsAt]))

/-- Renumbering never fails after a selection that succeeded. -/
theorem exists_newLinks (h : Selection.of g bounds policy = .ok s) : ∃ links : List Link, s.newLinks g = .ok links :=
  exists_mapM_ok fun _ hx => (renumber_selected h hx).imp fun _ hn => hn.1

/-- Renumbering yields one edge for each kept edge, between the ranks of its
endpoints. -/
theorem newLinks_spec (h : Selection.of g bounds policy = .ok s) {links : List Link} (hl : s.newLinks g = .ok links) :
    links.length = (g.keptEdges bounds policy).length ∧
      ∀ j e : Nat, (g.keptEdges bounds policy)[j]? = some e → ∃ old new, g.edge? e = some old ∧
        links[j]? = some new ∧ Renumbered (g.keptVertices bounds policy) old new := by
  have hall := mapM_eq_ok.1 hl
  refine ⟨?_, fun j e he => ?_⟩
  · rw [← hall.length_eq, Mask.length_select, ← Mask.length_indices, keepEdge_indices h]
    rw [length_keepEdge h, List.length_zipIdx, length_links]
  · obtain ⟨l, hedge, hsel⟩ := getElem?_select_links h he
    obtain ⟨new, hnew, hok⟩ := getElem?_of_forall₂ hall hsel
    obtain ⟨new', hok', hr⟩ := renumber_selected h (List.mem_of_getElem? hsel)
    obtain rfl : new' = new := Except.ok.inj (hok'.symm.trans hok)
    exact ⟨l, new', hedge, hnew, hr⟩

end Wireframe.Selection
