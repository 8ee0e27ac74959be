import Wireframe.Proofs.CompleteCrop
import Wireframe.Proofs.Movement
/-!
# Parts of a geometry

A part of a geometry is given by two lists of old numbers, one of vertices and
one of edges. These determine it: its vertices are where the old ones were,
its edges join the ranks of the old endpoints, and every attribute has moved
along. A part of a part is a part, by the old numbers of the old numbers, and
every geometry that fits together is the whole of itself.

A complete crop that moves no vertex is the part that it keeps.
-/

namespace Wireframe

variable {κ : Type}

/-! ## Gathered attributes -/

namespace TypedArray

theorem ext_tuple? {a b : TypedArray κ} (ht : a.type = b.type) (hw : a.width = b.width)
    (h : ∀ i, a.tuple? i = b.tuple? i) : a = b := by
  obtain ⟨t, x⟩ := a
  obtain ⟨u, y⟩ := b
  obtain rfl : t = u := ht
  have hxy : x = y := by
    refine TupleArray.ext_tuples hw (List.ext_getElem? fun i => ?_)
    rw [TupleArray.getElem?_tuples, TupleArray.getElem?_tuples]
    have hi := h i
    simp only [tuple?] at hi
    cases hx : x.tuple? i <;> cases hy : y.tuple? i <;> simp_all
  rw [hxy]

theorem tuple?_eq_none {a : TypedArray κ} {i : Nat} : a.tuple? i = none ↔ a.size ≤ i := by
  rw [tuple?, Option.map_eq_none_iff, TupleArray.tuple?_eq_none]
  rfl

/-- The old numbers determine what is gathered. -/
theorem Gathers.unique {old : List Nat} {a b c : TypedArray κ} (hb : a.Gathers old b) (hc : a.Gathers old c) :
    b = c := by
  refine ext_tuple? (hb.type.trans hc.type.symm) (hb.width.trans hc.width.symm) fun i => ?_
  cases hi : old[i]? with
  | none =>
    have hle := List.getElem?_eq_none_iff.1 hi
    rw [tuple?_eq_none.2 (hb.size ▸ hle), tuple?_eq_none.2 (hc.size ▸ hle)]
  | some v =>
    obtain ⟨t, ht, hbt⟩ := hb.tuple i v hi
    obtain ⟨u, hu, hct⟩ := hc.tuple i v hi
    rw [hbt, hct, ← ht, ← hu]

theorem Gathers.trans {old new all : List Nat} {a b c : TypedArray κ} (hb : a.Gathers old b)
    (hc : b.Gathers new c) (hall : all.map some = new.map (old[·]?)) : a.Gathers all c where
  type := hc.type.trans hb.type
  width := hc.width.trans hb.width
  size := by rw [hc.size, length_of_map_some hall]
  tuple i v hi := by
    rw [getElem?_of_map_some hall] at hi
    obtain ⟨w, hw, hv⟩ := Option.bind_eq_some_iff.1 hi
    obtain ⟨t, ht, hct⟩ := hc.tuple i w hw
    obtain ⟨u, hu, hbu⟩ := hb.tuple w v hv
    rw [ht, Option.some.injEq] at hbu
    exact ⟨u, hu, hbu ▸ hct⟩

/-- What is gathered from among the old numbers of a gathered array is
gathered from that array. -/
theorem Gathers.cancel {old new all : List Nat} {a b c : TypedArray κ} (hb : a.Gathers old b)
    (hc : a.Gathers all c) (hall : all.map some = new.map (old[·]?)) : b.Gathers new c where
  type := hc.type.trans hb.type.symm
  width := hc.width.trans hb.width.symm
  size := by rw [hc.size, length_of_map_some hall]
  tuple i w hi := by
    obtain ⟨v, hw, hv⟩ := exists_of_map_some hall hi
    obtain ⟨t, ht, hct⟩ := hc.tuple i v hv
    obtain ⟨u, hu, hbu⟩ := hb.tuple w v hw
    rw [ht, Option.some.injEq] at hu
    exact ⟨t, hu ▸ hbu, hct⟩

/-- Every array is the whole of itself. -/
theorem gathers_range (a : TypedArray κ) : a.Gathers (List.range a.size) a where
  type := rfl
  width := rfl
  size := List.length_range.symm
  tuple i v hi := by
    obtain ⟨hlt, rfl⟩ := List.getElem?_eq_some_iff.1 hi
    rw [List.getElem_range] at *
    cases ht : a.tuple? i with
    | none =>
      rw [tuple?_eq_none] at ht
      rw [List.length_range] at hlt
      omega
    | some t => exact ⟨t, rfl, rfl⟩

end TypedArray

namespace AttributeMatrix

theorem Gathers.unique {old : List Nat} {m n k : AttributeMatrix κ} (hn : m.Gathers old n) (hk : m.Gathers old k)
    (hname : n.name = k.name) : n = k := by
  refine AttributeMatrix.ext hname (hn.size.trans hk.size.symm) (SortedMap.ext_find? fun x => ?_)
  cases hx : m.arrays.find? x with
  | none =>
    have hno : x ∉ m.names := SortedMap.find?_eq_none.1 hx
    rw [SortedMap.find?_eq_none.2 (show x ∉ n.names from hn.names ▸ hno),
      SortedMap.find?_eq_none.2 (show x ∉ k.names from hk.names ▸ hno)]
  | some a =>
    obtain ⟨b, hb, hab⟩ := hn.array x a hx
    obtain ⟨c, hc, hac⟩ := hk.array x a hx
    rw [hb, hc, hab.unique hac]

theorem Gathers.trans {old new all : List Nat} {m n k : AttributeMatrix κ} (hn : m.Gathers old n)
    (hk : n.Gathers new k) (hall : all.map some = new.map (old[·]?)) : m.Gathers all k where
  names := hk.names.trans hn.names
  size := by rw [hk.size, length_of_map_some hall]
  array x a ha := by
    obtain ⟨b, hb, hab⟩ := hn.array x a ha
    obtain ⟨c, hc, hbc⟩ := hk.array x b hb
    exact ⟨c, hc, hab.trans hbc hall⟩

theorem Gathers.cancel {old new all : List Nat} {m n k : AttributeMatrix κ} (hn : m.Gathers old n)
    (hk : m.Gathers all k) (hall : all.map some = new.map (old[·]?)) : n.Gathers new k where
  names := hk.names.trans hn.names.symm
  size := by rw [hk.size, length_of_map_some hall]
  array x b hb := by
    obtain ⟨a, ha⟩ := mem_names.1 (hn.names ▸ mem_names.2 ⟨b, hb⟩)
    obtain ⟨b', hb', hab⟩ := hn.array x a ha
    obtain ⟨c, hc, hac⟩ := hk.array x a ha
    rw [hb, Option.some.injEq] at hb'
    exact ⟨c, hc, hb' ▸ hab.cancel hac hall⟩

theorem gathers_range {m : AttributeMatrix κ} (h : m.InStep m.size) : m.Gathers (List.range m.size) m where
  names := rfl
  size := List.length_range.symm
  array x a ha := ⟨a, ha, h x a ha ▸ a.gathers_range⟩

end AttributeMatrix

/-! ## Parts -/

namespace EdgeGeometry

open Selection

/-- `h` is the part of `g` with the vertices `vs` and the edges `es`. -/
structure IsPart (vs es : List Nat) (g h : EdgeGeometry κ) : Prop where
  vertexCount : h.vertexCount = vs.length
  edgeCount : h.edgeCount = es.length
  vertex : ∀ i v : Nat, vs[i]? = some v → ∃ p, g.vertex? v = some p ∧ h.vertex? i = some p
  edge : ∀ j e : Nat, es[j]? = some e →
    ∃ old new, g.edge? e = some old ∧ h.edge? j = some new ∧ Renumbered vs old new
  vertexData : g.vertexData.Gathers vs h.vertexData
  edgeData : g.edgeData.Gathers es h.edgeData
  vertexName : h.vertexData.name = g.vertexData.name
  edgeName : h.edgeData.name = g.edgeData.name

theorem ext_parts {g h : EdgeGeometry κ} (hp : ∀ i, g.vertex? i = h.vertex? i) (hl : ∀ j, g.edge? j = h.edge? j)
    (hv : g.vertexData = h.vertexData) (he : g.edgeData = h.edgeData) : g = h := by
  refine EdgeGeometry.ext ?_ ?_ hv he
  · refine TupleArray.ext_tuples (g.vertices_width.trans h.vertices_width.symm) ?_
    rw [tuples_vertices, tuples_vertices]
    congr 1
    refine List.ext_getElem? fun i => ?_
    rw [getElem?_points, getElem?_points, hp]
  · refine TupleArray.ext_tuples (g.edges_width.trans h.edges_width.symm) ?_
    rw [tuples_edges, tuples_edges]
    congr 1
    refine List.ext_getElem? fun j => ?_
    rw [getElem?_links, getElem?_links, hl]

end EdgeGeometry

/-- The old endpoints determine the new ones. -/
theorem Selection.Renumbered.unique {vs : List Nat} {old new new' : Link} (hvs : vs.Nodup)
    (h : Renumbered vs old new) (h' : Renumbered vs old new') : new = new' := by
  have hinj : ∀ {i j : UInt64} {v : Nat}, vs[i.toNat]? = some v → vs[j.toNat]? = some v → i = j :=
    fun hi hj => UInt64.toNat_inj.1 (eq_of_getElem?_eq_some hvs hi hj)
  exact Prod.ext (hinj h.1 h'.1) (hinj h.2 h'.2)

/-- Every end of an old edge is found at an end of the new one. -/
theorem Selection.Renumbered.exists_end {vs : List Nat} {old new : Link} {v : Nat} (h : Renumbered vs old new)
    (hv : EdgeGeometry.endsAt old v = true) : ∃ i, vs[i]? = some v ∧ EdgeGeometry.endsAt new i = true := by
  rcases EdgeGeometry.endsAt_iff.1 hv with rfl | rfl
  · exact ⟨_, h.1, EdgeGeometry.endsAt_iff.2 (.inl rfl)⟩
  · exact ⟨_, h.2, EdgeGeometry.endsAt_iff.2 (.inr rfl)⟩

theorem Selection.Renumbered.exists_old_end {vs : List Nat} {old new : Link} {i : Nat} (h : Renumbered vs old new)
    (hi : EdgeGeometry.endsAt new i = true) : ∃ v, vs[i]? = some v ∧ EdgeGeometry.endsAt old v = true := by
  rcases EdgeGeometry.endsAt_iff.1 hi with rfl | rfl
  · exact ⟨_, h.1, EdgeGeometry.endsAt_iff.2 (.inl rfl)⟩
  · exact ⟨_, h.2, EdgeGeometry.endsAt_iff.2 (.inr rfl)⟩

theorem Selection.Renumbered.endsAt {vs : List Nat} {old new : Link} {i v : Nat} (h : Renumbered vs old new)
    (hi : EdgeGeometry.endsAt new i = true) (hv : vs[i]? = some v) : EdgeGeometry.endsAt old v = true := by
  obtain ⟨v', hv', hend⟩ := h.exists_old_end hi
  rw [hv, Option.some.injEq] at hv'
  exact hv' ▸ hend

/-- An edge renumbered twice, the second time to fewer vertices. -/
theorem Selection.Renumbered.cancel {vs ws js : List Nat} {old mid new : Link} (hvs : vs.Nodup)
    (h : Renumbered vs old mid) (h' : Renumbered ws old new) (hw : ws.map some = js.map (vs[·]?)) :
    Renumbered js mid new := by
  have hend : ∀ {i j : UInt64} {v : Nat}, ws[j.toNat]? = some v → vs[i.toNat]? = some v →
      js[j.toNat]? = some i.toNat := by
    intro i j v hj hi
    rw [getElem?_of_map_some hw] at hj
    obtain ⟨k, hk, hv⟩ := Option.bind_eq_some_iff.1 hj
    rw [hk, eq_of_getElem?_eq_some hvs hv hi]
  exact ⟨hend h'.1 h.1, hend h'.2 h.2⟩

namespace EdgeGeometry

open Selection

variable {vs es : List Nat} {g h k : EdgeGeometry κ}

theorem IsPart.inside [Coordinate κ] (hh : IsPart vs es g h) {bounds : Box κ} {i v : Nat} (hi : vs[i]? = some v) :
    h.inside bounds i = g.inside bounds v := by
  obtain ⟨p, hp, hq⟩ := hh.vertex i v hi
  rw [EdgeGeometry.inside, EdgeGeometry.inside, hp, hq]

/-- An edge lies to a box as it did before it was renumbered. -/
theorem IsPart.keepsLink [Coordinate κ] (hh : IsPart vs es g h) {bounds : Box κ} {policy : BoundaryPolicy}
    {old new : Link} (hr : Renumbered vs old new) :
    h.keepsLink bounds policy new = g.keepsLink bounds policy old := by
  rw [EdgeGeometry.keepsLink, EdgeGeometry.keepsLink, hh.inside hr.1, hh.inside hr.2]

theorem IsPart.exists_edge (hh : IsPart vs es g h) {j e : Nat} {old : Link} (hj : es[j]? = some e)
    (ho : g.edge? e = some old) : ∃ new, h.edge? j = some new ∧ Renumbered vs old new := by
  obtain ⟨old', new, ho', hn, hr⟩ := hh.edge j e hj
  rw [ho, Option.some.injEq] at ho'
  exact ⟨new, hn, ho' ▸ hr⟩

/-- The old numbers determine a part. None may stand twice among the vertices,
or an endpoint would have several new numbers to choose from. -/
theorem IsPart.unique (hvs : vs.Nodup) (hh : IsPart vs es g h) (hk : IsPart vs es g k) : h = k := by
  refine ext_parts (fun i => ?_) (fun j => ?_)
    (hh.vertexData.unique hk.vertexData (hh.vertexName.trans hk.vertexName.symm))
    (hh.edgeData.unique hk.edgeData (hh.edgeName.trans hk.edgeName.symm))
  · cases hi : vs[i]? with
    | none =>
      have hle := List.getElem?_eq_none_iff.1 hi
      rw [vertex?_eq_none.2 (hh.vertexCount ▸ hle), vertex?_eq_none.2 (hk.vertexCount ▸ hle)]
    | some v =>
      obtain ⟨p, hp, hhp⟩ := hh.vertex i v hi
      obtain ⟨q, hq, hkq⟩ := hk.vertex i v hi
      rw [hhp, hkq, ← hp, ← hq]
  · cases hj : es[j]? with
    | none =>
      have hle := List.getElem?_eq_none_iff.1 hj
      rw [edge?_eq_none.2 (hh.edgeCount ▸ hle), edge?_eq_none.2 (hk.edgeCount ▸ hle)]
    | some e =>
      obtain ⟨old, new, ho, hn, hr⟩ := hh.edge j e hj
      obtain ⟨old', new', ho', hn', hr'⟩ := hk.edge j e hj
      rw [ho, Option.some.injEq] at ho'
      subst ho'
      rw [hn, hn', hr.unique hvs hr']

/-- A part of a part is a part. -/
theorem IsPart.trans {vs' es' ws fs : List Nat} (hh : IsPart vs es g h) (hk : IsPart vs' es' h k)
    (hw : ws.map some = vs'.map (vs[·]?)) (hf : fs.map some = es'.map (es[·]?)) : IsPart ws fs g k where
  vertexCount := by rw [hk.vertexCount, length_of_map_some hw]
  edgeCount := by rw [hk.edgeCount, length_of_map_some hf]
  vertex i w hi := by
    rw [getElem?_of_map_some hw] at hi
    obtain ⟨v, hv, hvw⟩ := Option.bind_eq_some_iff.1 hi
    obtain ⟨p, hp, hkp⟩ := hk.vertex i v hv
    obtain ⟨q, hq, hhq⟩ := hh.vertex v w hvw
    rw [hp, Option.some.injEq] at hhq
    exact ⟨q, hq, hhq ▸ hkp⟩
  edge j f hj := by
    rw [getElem?_of_map_some hf] at hj
    obtain ⟨e, he, hef⟩ := Option.bind_eq_some_iff.1 hj
    obtain ⟨mid, new, hm, hn, hr⟩ := hk.edge j e he
    obtain ⟨old, mid', ho, hm', hr'⟩ := hh.edge e f hef
    rw [hm, Option.some.injEq] at hm'
    subst hm'
    refine ⟨old, new, ho, hn, ?_, ?_⟩
    · rw [getElem?_of_map_some hw, hr.1, Option.bind_some, hr'.1]
    · rw [getElem?_of_map_some hw, hr.2, Option.bind_some, hr'.2]
  vertexData := hh.vertexData.trans hk.vertexData hw
  edgeData := hh.edgeData.trans hk.edgeData hf
  vertexName := hk.vertexName.trans hh.vertexName
  edgeName := hk.edgeName.trans hh.edgeName

/-- A geometry that fits together is the whole of itself. -/
theorem isPart_range (hg : g.validate = .ok ()) :
    IsPart (List.range g.vertexCount) (List.range g.edgeCount) g g := by
  obtain ⟨hends, ⟨hvs, hv⟩, hes, he⟩ := validate_eq_ok.1 hg
  refine ⟨List.length_range.symm, List.length_range.symm, fun i v hi => ?_, fun j e hj => ?_, ?_, ?_, rfl, rfl⟩
  · obtain ⟨hlt, rfl⟩ := List.getElem?_eq_some_iff.1 hi
    rw [List.length_range] at hlt
    rw [List.getElem_range]
    obtain ⟨p, hp⟩ := exists_vertex? hlt
    exact ⟨p, hp, hp⟩
  · obtain ⟨hlt, rfl⟩ := List.getElem?_eq_some_iff.1 hj
    rw [List.length_range] at hlt
    rw [List.getElem_range]
    cases hl : g.edge? j with
    | none =>
      rw [edge?_eq_none] at hl
      omega
    | some l =>
      obtain ⟨h₁, h₂⟩ := hends l (List.mem_of_getElem? (g.getElem?_links j ▸ hl))
      exact ⟨l, l, rfl, rfl, List.getElem?_range h₁, List.getElem?_range h₂⟩
  · rw [← hvs]
    exact AttributeMatrix.gathers_range (hvs.symm ▸ hv)
  · rw [← hes]
    exact AttributeMatrix.gathers_range (hes.symm ▸ he)

end EdgeGeometry

end Wireframe
