import Wireframe.Proofs.Buffered
import Wireframe.Proofs.FailedCrop
/-!
# What a crop leaves of its destination

Of all that a destination held, a complete crop leaves the names of its two
matrices. What passes between a crop and its host depends on the destination
as little: into destinations of one layout the same arrays are announced and
the flag is read at the same moments, so that one of two crops is complete if
the other is.

This is said of the crop through buffers, where the lists of the destination
are resized and then overwritten element by element. Two lists that are
overwritten alike agree on the tuples written so far, and those are all of them
in the end. Nothing is asked of the source. The lists of the destination have to
be three and two wide: the crop writes two endpoints of an edge, and a third
number next to them would stay.
-/

namespace Wireframe

variable {κ : Type}

/-! ## Copies into different matrices -/

namespace AttributeMatrix

variable {schedule : Schedule} {mask : Mask} {src : AttributeMatrix κ}

/-- A batch whose arrays are ready goes the same way whatever it writes over. -/
theorem copyArrays_congr (names : List String) (m n : AttributeMatrix κ) (p : Progress)
    (hm : Ready mask src m names) (hn : Ready mask src n names) :
    (copyArrays schedule mask src names m p).1 = (copyArrays schedule mask src names n p).1 ∧
      (copyArrays schedule mask src names m p).2.2 = (copyArrays schedule mask src names n p).2.2 := by
  induction names generalizing m n p with
  | nil => exact ⟨rfl, rfl⟩
  | cons k names ih =>
    rw [copyArrays, copyArrays]
    split
    · obtain ⟨hr, hp⟩ := ih m n p.read hm.tail hn.tail
      exact ⟨congrArg (Except.map fun _ => false) hr, hp⟩
    · obtain ⟨m', hcm, hm'⟩ := hm.copy_head
      obtain ⟨n', hcn, hn'⟩ := hn.copy_head
      rw [hcm, hcn]
      exact ih m' n' p.read hm' hn'

end AttributeMatrix

open AttributeMatrix in
theorem copyAttributes_congr {mask : Mask} {src m n : AttributeMatrix κ} (schedule : Schedule) (label : String)
    (p : Progress) (hm : Copyable mask src m) (hn : Copyable mask src n) :
    (copyAttributes schedule label mask src m p).1 = (copyAttributes schedule label mask src n p).1 ∧
      (copyAttributes schedule label mask src m p).2.2 = (copyAttributes schedule label mask src n p).2.2 := by
  unfold copyAttributes
  rw [copyNames_eq_ok.2 ⟨hm.names, rfl⟩, copyNames_eq_ok.2 ⟨hn.names, rfl⟩, ← hm.names, ← hn.names]
  dsimp only
  split
  next => exact ⟨rfl, rfl⟩
  next => exact copyArrays_congr _ m n _ (hm.names ▸ hm.ready) (hn.names ▸ hn.ready)

/-! ## Lists that are overwritten alike -/

/-- Two arrays of one width and size with the same tuples at the given indices. -/
structure TupleArray.Agree {α : Type} (width size : Nat) (on : Nat → Prop) (a b : TupleArray α) : Prop where
  left : a.width = width ∧ a.size = size
  right : b.width = width ∧ b.size = size
  tuple : ∀ i, on i → a.tuple? i = b.tuple? i

namespace TupleArray.Agree

variable {α β ε : Type} {width size : Nat} {on : Nat → Prop} {a b c : TupleArray α}

/-- Resized to one size, arrays of one width agree nowhere yet. -/
theorem resized (ha : a.width = width) (hb : b.width = width) (value : α) (size : Nat) :
    Agree width size (fun _ => False) (a.resized value size) (b.resized value size) :=
  ⟨⟨ha, size_resized _ _ _⟩, ⟨hb, size_resized _ _ _⟩, fun _ h => h.elim⟩

theorem mono {on' : Nat → Prop} (h : Agree width size on a b) (hon : ∀ i, on' i → on i) :
    Agree width size on' a b :=
  ⟨h.left, h.right, fun i hi => h.tuple i (hon i hi)⟩

/-- Arrays that agree wherever they have tuples are one. -/
theorem eq (h : Agree width size on a b) (hon : ∀ i < size, on i) : a = b := by
  refine TupleArray.ext_tuples (h.left.1.trans h.right.1.symm) (List.ext_getElem? fun i => ?_)
  rw [getElem?_tuples, getElem?_tuples]
  by_cases hi : i < size
  · exact h.tuple i (hon i hi)
  · have hle := Nat.le_of_not_lt hi
    rw [tuple?_eq_none.2 (h.left.2 ▸ hle), tuple?_eq_none.2 (h.right.2 ▸ hle)]

/-- A tuple that is overwritten is the new one, and the others stay. -/
theorem tuple?_of_overwrite {i : Nat} {t : List α} (h : a.overwrite i t = .ok c) :
    (c.width = a.width ∧ c.size = a.size) ∧
      ∀ j, c.tuple? j = if i = j then if j < a.size then some t else none else a.tuple? j := by
  unfold TupleArray.overwrite at h
  split at h
  next hi =>
    cases h
    refine ⟨⟨rfl, rfl⟩, fun j => ?_⟩
    split
    next hij => rw [if_neg (hij ▸ Nat.not_lt.2 hi), tuple?_eq_none.2 (hij ▸ hi)]
    next => rfl
  next hi =>
    split at h
    next c' hc =>
      cases h
      obtain ⟨hfits, ht⟩ := fits_of_setTuple? hc
      obtain ⟨c', hc', hw, hts⟩ := setTuple?_eq_set hfits ht
      obtain rfl : c = c' := Option.some.inj (hc.symm.trans hc')
      have hsize : c.size = a.size := by rw [← length_tuples, hts, List.length_set, length_tuples]
      refine ⟨⟨hw, hsize⟩, fun j => ?_⟩
      rw [← getElem?_tuples, hts, List.getElem?_set, length_tuples, getElem?_tuples]
      split
      next hij => rw [if_pos (hij ▸ hfits)]
      next => rfl
    next => cases h

/-- Two arrays that are overwritten at an index agree there. -/
theorem overwrite (h : Agree width size on a b) {i : Nat} {t : List α} (ha : a.overwrite i t = .ok c) :
    ∃ d, b.overwrite i t = .ok d ∧ Agree width size (fun j => j = i ∨ on j) c d := by
  -- whether a tuple can be overwritten is a matter of width and size
  have hd : ∃ d, b.overwrite i t = .ok d := by
    unfold TupleArray.overwrite at ha ⊢
    by_cases hi : size ≤ i
    · exact ⟨b, if_pos (h.right.2 ▸ hi)⟩
    · rw [if_neg (h.left.2 ▸ hi)] at ha
      rw [if_neg (h.right.2 ▸ hi)]
      cases hc : a.setTuple? i t with
      | none =>
        rw [hc] at ha
        cases ha
      | some c' =>
        have ht := (fits_of_setTuple? hc).2
        have hib : i < b.size := h.right.2 ▸ Nat.lt_of_not_le hi
        obtain ⟨d, hd, -⟩ := setTuple?_eq_set hib (ht.trans (h.left.1.trans h.right.1.symm))
        exact ⟨d, by rw [hd]⟩
  obtain ⟨d, hd⟩ := hd
  obtain ⟨⟨hcw, hcs⟩, hct⟩ := tuple?_of_overwrite ha
  obtain ⟨⟨hdw, hds⟩, hdt⟩ := tuple?_of_overwrite hd
  refine ⟨d, hd, ⟨hcw.trans h.left.1, hcs.trans h.left.2⟩, ⟨hdw.trans h.right.1, hds.trans h.right.2⟩, fun j hj => ?_⟩
  rw [hct, hdt, h.left.2, h.right.2]
  by_cases hij : i = j
  · rw [if_pos hij, if_pos hij]
  · rw [if_neg hij, if_neg hij]
    exact h.tuple j (hj.resolve_left fun he => hij he.symm)

/-- A pass of steps that make two arrays agree where they write makes them agree
wherever it has written. -/
theorem foldlM {f : TupleArray α → β → Except ε (TupleArray α)} {writes : β → Nat → Prop}
    (hf : ∀ {on : Nat → Prop} {a b c : TupleArray α} (x : β), Agree width size on a b → f a x = .ok c →
      ∃ d, f b x = .ok d ∧ Agree width size (fun j => writes x j ∨ on j) c d)
    (xs : List β) (h : Agree width size on a b) (ha : xs.foldlM f a = .ok c) :
    ∃ d, xs.foldlM f b = .ok d ∧ Agree width size (fun j => (∃ x ∈ xs, writes x j) ∨ on j) c d := by
  induction xs generalizing on a b with
  | nil =>
    cases ha
    exact ⟨b, rfl, h.mono fun j hj => hj.resolve_left fun ⟨x, hx, _⟩ => absurd hx List.not_mem_nil⟩
  | cons x xs ih =>
    rw [List.foldlM_cons] at ha ⊢
    cases ha₁ : f a x with
    | error e =>
      rw [ha₁] at ha
      cases ha
    | ok a₁ =>
      obtain ⟨b₁, hb₁, h₁⟩ := hf x h ha₁
      rw [ha₁] at ha
      obtain ⟨d, hd, hcd⟩ := ih h₁ ha
      refine ⟨d, by rw [hb₁]; exact hd, hcd.mono fun j hj => ?_⟩
      rcases hj with ⟨y, hy, hw⟩ | hj
      · rcases List.mem_cons.1 hy with rfl | hy
        · exact .inr (.inl hw)
        · exact .inl ⟨y, hy, hw⟩
      · exact .inr (.inr hj)

end TupleArray.Agree

/-! ## The two lists -/

namespace Buffered

open TupleArray (Agree)

variable [Coordinate κ] {src : LooseGeometry κ} {s : Selection κ}

/-- A table written at different places holds what was written there, and what
it held before at the others. -/
theorem foldlM_writeAt {ws : List (Nat × Nat)} {table t : List Int} (hws : (ws.map (·.1)).Nodup)
    (h : ws.foldlM (fun table (x : Nat × Nat) => writeAt table x.1 (x.2 : Int)) table = .ok t) :
    (∀ x ∈ ws, t[x.1]? = some (x.2 : Int)) ∧ ∀ i, i ∉ ws.map (·.1) → t[i]? = table[i]? := by
  induction ws generalizing table with
  | nil =>
    cases h
    exact ⟨fun x hx => absurd hx List.not_mem_nil, fun _ _ => rfl⟩
  | cons x ws ih =>
    obtain ⟨hx, hws⟩ := List.nodup_cons.1 hws
    by_cases hlt : x.1 < table.length
    · rw [List.foldlM_cons, writeAt_of_lt _ hlt] at h
      obtain ⟨hthere, hother⟩ := ih hws h
      refine ⟨fun y hy => ?_, fun i hi => ?_⟩
      · rcases List.mem_cons.1 hy with rfl | hy
        · rw [hother _ hx, List.getElem?_set_self hlt]
        · exact hthere y hy
      · obtain ⟨hne, hi⟩ := not_or.1 (mt List.mem_cons.2 hi)
        rw [hother i hi, List.getElem?_set_ne (Ne.symm hne)]
    · rw [List.foldlM_cons, writeAt, if_neg hlt] at h
      cases h

/-- The table has every new number. -/
theorem exists_entry {size : Nat} {mask : Mask} {table : List Int} (h : rankTable size mask = .ok table) {i : Nat}
    (hi : i < mask.kept) : ∃ x ∈ table.zipIdx, x.1 = (i : Int) := by
  have hlt : i < mask.indices.length := mask.length_indices ▸ hi
  have hnodup : (mask.indices.zipIdx.map (·.1)).Nodup := by
    rw [List.zipIdx_map_fst]
    exact mask.indices_sorted.imp Nat.ne_of_lt
  have hmem : (mask.indices[i], i) ∈ mask.indices.zipIdx :=
    List.mem_zipIdx_iff_getElem?.2 (List.getElem?_eq_getElem hlt)
  have hentry := (foldlM_writeAt hnodup h).1 _ hmem
  exact ⟨(_, _), List.mem_zipIdx_iff_getElem?.2 hentry, rfl⟩

variable {width size : Nat} {on : Nat → Prop}

/-- A vertex goes to the same place in both lists. -/
theorem placeVertex_agree {moved : SortedMap Nat (Point κ) compare} {a b c : TupleArray κ} (x : Int × Nat)
    (h : Agree width size on a b) (ha : placeVertex src moved a x.2 x.1 = .ok c) :
    ∃ d, placeVertex src moved b x.2 x.1 = .ok d ∧ Agree width size (fun j => x.1 = (j : Int) ∨ on j) c d := by
  unfold placeVertex at ha ⊢
  by_cases hx : x.1 = noRank
  · rw [if_pos hx] at ha ⊢
    cases ha
    refine ⟨b, rfl, h.mono fun j hj => hj.resolve_left fun hj => ?_⟩
    rw [hx, noRank] at hj
    omega
  · rw [if_neg hx] at ha ⊢
    cases hp : positionAt src moved x.2 with
    | error e =>
      rw [hp] at ha
      cases ha
    | ok p =>
      cases hi : toIndex x.1 with
      | error e =>
        simp only [hp, hi, bind, Except.bind] at ha
        cases ha
      | ok i =>
        simp only [hp, hi, bind, Except.bind] at ha ⊢
        obtain ⟨d, hd, hcd⟩ := h.overwrite ha
        refine ⟨d, hd, hcd.mono fun j hj => hj.imp_left fun hj => ?_⟩
        unfold toIndex at hi
        split at hi
        next => cases hi
        next =>
          cases hi
          omega

omit [Coordinate κ] in
/-- An edge gets the same endpoints in both lists of pairs. -/
theorem relinkEdge_agree {table : List Int} {a b c : TupleArray UInt64} (x : Nat × Nat) (h : Agree 2 size on a b)
    (ha : relinkEdge src table a x.1 x.2 = .ok c) :
    ∃ d, relinkEdge src table b x.1 x.2 = .ok d ∧ Agree 2 size (fun j => j = x.2 ∨ on j) c d := by
  unfold relinkEdge at ha ⊢
  cases hl : newEnds src table x.1 with
  | error e =>
    rw [hl] at ha
    cases ha
  | ok link =>
    simp only [hl, bind, Except.bind, overwriteEnds_eq h.left.1, overwriteEnds_eq h.right.1] at ha ⊢
    cases hc : a.overwrite x.2 [link.1, link.2] with
    | error e =>
      rw [hc] at ha
      cases ha
    | ok c' =>
      rw [hc] at ha
      cases ha
      obtain ⟨d, hd, hcd⟩ := h.overwrite hc
      exact ⟨d, by rw [hd]; rfl, hcd⟩

/-- The vertices of two lists are overwritten one and all. -/
theorem place_congr {r₁ r₂ : LooseGeometry κ} {out : List Int × LooseGeometry κ}
    (hr : Agree width s.keepVertex.kept (fun _ => False) r₁.vertices r₂.vertices) (h : place s src r₁ = .ok out) :
    ∃ table vertices, out = (table, { r₁ with vertices }) ∧ place s src r₂ = .ok (table, { r₂ with vertices }) := by
  unfold place at h ⊢
  cases htable : rankTable src.vertices.size s.keepVertex with
  | error e =>
    rw [htable] at h
    cases h
  | ok table =>
    cases hv : placeVertices src s.moved table r₁.vertices with
    | error e =>
      simp only [htable, hv, bind, Except.bind] at h
      cases h
    | ok vertices =>
      simp only [htable, hv, bind, Except.bind] at h ⊢
      cases h
      obtain ⟨d, hd, hagree⟩ := hr.foldlM (fun x => placeVertex_agree x) _ hv
      obtain rfl : vertices = d := hagree.eq fun i hi => .inl (exists_entry htable hi)
      exact ⟨table, vertices, rfl, by rw [show placeVertices src s.moved table r₂.vertices = .ok vertices from hd]; rfl⟩

omit [Coordinate κ] in
/-- The edges of two lists of pairs are overwritten one and all. -/
theorem relink_congr {r₁ out : LooseGeometry κ} {table : List Int} (h : relink s src table r₁ = .ok out)
    (r₂ : LooseGeometry κ) (hr : Agree 2 s.keepEdge.kept (fun _ => False) r₁.edges r₂.edges) :
    ∃ edges, out = { r₁ with edges } ∧ relink s src table r₂ = .ok { r₂ with edges } := by
  unfold relink at h ⊢
  cases he : s.keepEdge.indices.zipIdx.foldlM (fun edges (x : Nat × Nat) => relinkEdge src table edges x.1 x.2)
      r₁.edges with
  | error e =>
    rw [he] at h
    cases h
  | ok edges =>
    rw [he] at h
    cases h
    obtain ⟨d, hd, hagree⟩ := hr.foldlM (fun x => relinkEdge_agree x) _ he
    obtain rfl : edges = d := hagree.eq fun i hi => by
      have hlt : i < s.keepEdge.indices.length := s.keepEdge.length_indices ▸ hi
      exact .inl ⟨(s.keepEdge.indices[i], i), List.mem_zipIdx_iff_getElem?.2 (List.getElem?_eq_getElem hlt), rfl⟩
    exact ⟨edges, rfl, by rw [hd]; rfl⟩

end Buffered

/-! ## Crops into different destinations -/

/-- The matrices hold the same arrays; their names may differ. -/
structure AttributeMatrix.SameContents (m n : AttributeMatrix κ) : Prop where
  size : m.size = n.size
  arrays : m.arrays = n.arrays

theorem AttributeMatrix.SameContents.checkMatrix {m n : AttributeMatrix κ} (h : m.SameContents n) (size : Nat) :
    EdgeGeometry.checkMatrix m size = .ok () ↔ EdgeGeometry.checkMatrix n size = .ok () := by
  rw [EdgeGeometry.checkMatrix_eq_ok, EdgeGeometry.checkMatrix_eq_ok, InStep, InStep, h.size, h.arrays]

theorem AttributeMatrix.sameContents_compact (mask : Mask) (src : AttributeMatrix κ) (name name' : String) :
    (src.compact mask name).SameContents (src.compact mask name') := ⟨rfl, rfl⟩

namespace LooseGeometry

/-- The matrices on either side hold arrays of the same shapes under the same names. -/
structure SameLayout (g h : LooseGeometry κ) : Prop where
  vertexData : g.vertexData.layout = h.vertexData.layout
  edgeData : g.edgeData.layout = h.edgeData.layout

/-- Both geometries hold the same lists and arrays; the names of their matrices
may differ. -/
structure SameContents (g h : LooseGeometry κ) : Prop where
  vertices : g.vertices = h.vertices
  edges : g.edges = h.edges
  vertexData : g.vertexData.SameContents h.vertexData
  edgeData : g.edgeData.SameContents h.edgeData

theorem validate_eq_ok {g : LooseGeometry κ} : g.validate = .ok () ↔ g.badEndpoint? = none ∧
    EdgeGeometry.checkMatrix g.vertexData g.vertices.size = .ok () ∧
      EdgeGeometry.checkMatrix g.edgeData g.edges.size = .ok () := by
  unfold validate
  cases g.badEndpoint? with
  | some x => simp
  | none =>
    cases EdgeGeometry.checkMatrix g.vertexData g.vertices.size with
    | error e => simp [bind, Except.bind]
    | ok u => simp [bind, Except.bind]

/-- What fits together does so under any names. -/
theorem SameContents.assertFits {g h : LooseGeometry κ} (hgh : g.SameContents h) (hg : g.assertFits = .ok ()) :
    h.assertFits = .ok () := by
  have hvalid : g.validate = .ok () := by
    unfold LooseGeometry.assertFits assertValid at hg
    cases hv : g.validate with
    | error e =>
      rw [hv] at hg
      cases hg
    | ok u => rfl
  obtain ⟨hbad, hv, he⟩ := validate_eq_ok.1 hvalid
  have hfits : h.validate = .ok () := by
    rw [validate_eq_ok, ← hgh.vertexData.checkMatrix, ← hgh.edgeData.checkMatrix, ← hgh.vertices, ← hgh.edges]
    refine ⟨?_, hv, he⟩
    rw [badEndpoint?, ← hgh.vertices, ← hgh.edges]
    exact hbad
  unfold LooseGeometry.assertFits
  rw [hfits]
  rfl

end LooseGeometry

theorem copyAttributes_complete {schedule : Schedule} {label : String} {mask : Mask} {src dst : AttributeMatrix κ}
    {p : Progress} (hsize : dst.size = mask.kept) (h : (copyAttributes schedule label mask src dst p).1 = .ok true) :
    AttributeMatrix.Copyable mask src dst ∧
      (copyAttributes schedule label mask src dst p).2.1 = src.compact mask dst.name := by
  have hends := copyAttributes_ends schedule label src p hsize
  generalize copyAttributes schedule label mask src dst p = r at h hends ⊢
  cases hends with
  | refused | cancelled => cases h
  | complete hc => exact ⟨hc, rfl⟩

variable [Coordinate κ]

/-- The arrays that are all copied into a resized matrix are all copied into one
of the same layout. -/
theorem copyAttributes_sameLayout {schedule : Schedule} {label : String} {mask : Mask} {src m n : AttributeMatrix κ}
    {p : Progress} (hmn : m.layout = n.layout)
    (h : (copyAttributes schedule label mask src (m.resized mask.kept) p).1 = .ok true) :
    ∃ q, copyAttributes schedule label mask src (m.resized mask.kept) p =
        (.ok true, src.compact mask m.name, q) ∧
      copyAttributes schedule label mask src (n.resized mask.kept) p = (.ok true, src.compact mask n.name, q) := by
  obtain ⟨hc, hm⟩ := copyAttributes_complete rfl h
  have hfit := AttributeMatrix.copyable_resized_iff.1 hc
  have hcn : AttributeMatrix.Copyable mask src (n.resized mask.kept) :=
    AttributeMatrix.copyable_resized_iff.2 ⟨hfit.1.trans hmn, hfit.2⟩
  obtain ⟨hresult, hprogress⟩ := copyAttributes_congr schedule label p hc hcn
  obtain ⟨-, hn⟩ := copyAttributes_complete rfl (hresult.symm.trans h)
  exact ⟨_, Prod.ext h (Prod.ext hm rfl), Prod.ext (hresult.symm.trans h) (Prod.ext hn hprogress.symm)⟩

namespace Buffered

variable {src : LooseGeometry κ} {s : Selection κ} {schedule : Schedule} {stats : CropStats}

/-- Both runs end in one way, with the same messages and the same contents. -/
structure Alike (r q : Run κ) : Prop where
  result : r.result = q.result
  progress : r.progress = q.progress
  destination : r.destination.SameContents q.destination

/-- The last stage, in destinations that differ in the edge matrix. -/
theorem finish_alike {g h : LooseGeometry κ} {m n : AttributeMatrix κ} {p : Progress}
    (hv : g.vertices = h.vertices) (he : g.edges = h.edges) (hdata : g.vertexData.SameContents h.vertexData)
    (hg : g.edgeData = m.resized s.keepEdge.kept) (hh : h.edgeData = n.resized s.keepEdge.kept)
    (hmn : m.layout = n.layout) (hc : (finish s schedule src g p).result = .ok (.complete stats)) :
    Alike (finish s schedule src h p) (finish s schedule src g p) := by
  have hcopied : (copyAttributes schedule edgeLabel s.keepEdge src.edgeData (m.resized s.keepEdge.kept) p).1 =
      .ok true := by
    unfold finish at hc
    rw [hg] at hc
    split at hc
    next => cases hc
    next => cases hc
    next hrun => rw [hrun]
  obtain ⟨q, hm, hn⟩ := copyAttributes_sameLayout hmn hcopied
  have hsame : LooseGeometry.SameContents { g with edgeData := src.edgeData.compact s.keepEdge m.name }
      { h with edgeData := src.edgeData.compact s.keepEdge n.name } :=
    ⟨hv, he, hdata, AttributeMatrix.sameContents_compact _ _ _ _⟩
  unfold finish at hc ⊢
  rw [hg, hm] at hc ⊢
  rw [hh, hn]
  dsimp only at hc ⊢
  cases hfits : LooseGeometry.assertFits { g with edgeData := src.edgeData.compact s.keepEdge m.name } with
  | error a =>
    rw [hfits] at hc
    cases hc
  | ok u =>
    rw [hsame.assertFits hfits]
    exact ⟨rfl, rfl, ⟨hv.symm, he.symm, ⟨hdata.size.symm, hdata.arrays.symm⟩,
      AttributeMatrix.sameContents_compact _ _ _ _⟩⟩

variable {d₁ d₂ : LooseGeometry κ}

theorem vertexData_resizedFor (s : Selection κ) (dst : LooseGeometry κ) :
    (resizedFor s dst).vertexData = dst.vertexData.resized s.keepVertex.kept := rfl

/-- A selection that is written to the end into one resized destination is so
into another. -/
theorem fill_alike (h₁ : d₁.Tight) (h₂ : d₂.Tight) (hd : d₁.SameLayout d₂)
    (h : (fill s schedule src (resizedFor s d₁)).result = .ok (.complete stats)) :
    Alike (fill s schedule src (resizedFor s d₂)) (fill s schedule src (resizedFor s d₁)) := by
  have hvertices : TupleArray.Agree 3 s.keepVertex.kept (fun _ => False) (resizedFor s d₁).vertices
      (resizedFor s d₂).vertices := .resized h₁.vertices h₂.vertices _ _
  unfold fill at h ⊢
  cases hplace : place s src (resizedFor s d₁) with
  | error a =>
    rw [hplace] at h
    cases h
  | ok out =>
    obtain ⟨table, vertices, rfl, hplace₂⟩ := place_congr hvertices hplace
    rw [hplace] at h
    rw [hplace₂]
    simp only [vertexData_resizedFor] at h ⊢
    have hcopied : (copyAttributes schedule vertexLabel s.keepVertex src.vertexData
        (d₁.vertexData.resized s.keepVertex.kept) .start).1 = .ok true := by
      split at h
      next => cases h
      next => cases h
      next hrun => exact congrArg Prod.fst hrun
    obtain ⟨q, hm, hn⟩ := copyAttributes_sameLayout hd.vertexData hcopied
    rw [hm] at h ⊢
    rw [hn]
    dsimp only at h ⊢
    have hedges : TupleArray.Agree 2 s.keepEdge.kept (fun _ => False) (resizedFor s d₁).edges
        (resizedFor s d₂).edges := .resized h₁.edges h₂.edges _ _
    cases hlink : relink s src table
        { resizedFor s d₁ with vertices, vertexData := src.vertexData.compact s.keepVertex d₁.vertexData.name } with
    | error e =>
      rw [hlink] at h
      cases h
    | ok out =>
      obtain ⟨edges, rfl, hlink₂⟩ := relink_congr hlink
        { resizedFor s d₂ with vertices, vertexData := src.vertexData.compact s.keepVertex d₂.vertexData.name } hedges
      rw [hlink] at h
      rw [hlink₂]
      exact finish_alike rfl rfl (AttributeMatrix.sameContents_compact _ _ _ _) rfl rfl hd.edgeData h

omit [Coordinate κ] in
/-- A destination of the same layout has the same room. -/
theorem room_congr (h₁ : d₁.Tight) (h₂ : d₂.Tight) (hd : d₁.SameLayout d₂) (n k : Nat) :
    d₁.HasVertexRoom n ∧ d₁.HasEdgeRoom k ↔ d₂.HasVertexRoom n ∧ d₂.HasEdgeRoom k := by
  unfold LooseGeometry.HasVertexRoom LooseGeometry.HasEdgeRoom
  rw [h₁.vertices, h₂.vertices, h₁.edges, h₂.edges, AttributeMatrix.hasRoom_congr hd.vertexData,
    AttributeMatrix.hasRoom_congr hd.edgeData]

end Buffered

/-- A complete crop through buffers leaves of its destination the names of the
matrices: into any other of the same layout the crop is complete with the same
counts, the same messages and reads of the flag, and the same lists and arrays. -/
theorem crop_overwrites {src d₁ d₂ : LooseGeometry κ} {bounds : Box κ} {policy : BoundaryPolicy} {schedule : Schedule}
    {stats : CropStats} (h₁ : d₁.Tight) (h₂ : d₂.Tight) (hd : d₁.SameLayout d₂)
    (h : (Buffered.crop src d₁ bounds policy schedule).result = .ok (.complete stats)) :
    (Buffered.crop src d₂ bounds policy schedule).result = .ok (.complete stats) ∧
      (Buffered.crop src d₂ bounds policy schedule).progress =
        (Buffered.crop src d₁ bounds policy schedule).progress ∧
      (Buffered.crop src d₂ bounds policy schedule).destination.SameContents
        (Buffered.crop src d₁ bounds policy schedule).destination := by
  suffices halike : Buffered.Alike (Buffered.crop src d₂ bounds policy schedule)
      (Buffered.crop src d₁ bounds policy schedule) from
    ⟨halike.result.trans h, halike.progress, halike.destination⟩
  unfold Buffered.crop at h ⊢
  cases hs : Buffered.markAll src bounds policy with
  | error e =>
    rw [hs] at h
    cases h
  | ok s =>
    rw [hs] at h
    dsimp only at h ⊢
    have hroom := Buffered.room_congr h₁ h₂ hd s.keepVertex.kept s.keepEdge.kept
    unfold Buffered.write at h ⊢
    by_cases hr : d₁.HasVertexRoom s.keepVertex.kept ∧ d₁.HasEdgeRoom s.keepEdge.kept
    · have hr₂ := hroom.1 hr
      rw [LooseGeometry.resizeBoth_of_room hr.1 hr.2] at h ⊢
      rw [LooseGeometry.resizeBoth_of_room hr₂.1 hr₂.2]
      exact Buffered.fill_alike h₁ h₂ hd h
    · obtain ⟨r, hr⟩ := LooseGeometry.resizeBoth_of_no_room hr
      rw [hr] at h
      cases h

/-- A geometry out of step, cropped over by the sample. -/
theorem crop_overwrites_outOfStep :
    onAxis.emptyLike.loose.Tight ∧ outOfStep.loose.Tight ∧ onAxis.emptyLike.loose.SameLayout outOfStep.loose ∧
      (Buffered.crop onAxis.loose onAxis.emptyLike.loose upToMiddle .interpolate .never).result =
        .ok (.complete ⟨3, 2, 1⟩) ∧
      (Buffered.crop onAxis.loose outOfStep.loose upToMiddle .interpolate .never).result =
        .ok (.complete ⟨3, 2, 1⟩) ∧
      (Buffered.crop onAxis.loose outOfStep.loose upToMiddle .interpolate .never).destination.SameContents
        (Buffered.crop onAxis.loose onAxis.emptyLike.loose upToMiddle .interpolate .never).destination := by
  have h₁ := onAxis.emptyLike.tight_loose
  have h₂ := outOfStep.tight_loose
  have hd : onAxis.emptyLike.loose.SameLayout outOfStep.loose := ⟨rfl, rfl⟩
  have hr : (Buffered.crop onAxis.loose onAxis.emptyLike.loose upToMiddle .interpolate .never).result =
      .ok (.complete ⟨3, 2, 1⟩) := by with_unfolding_all rfl
  obtain ⟨hr', -, hsame⟩ := crop_overwrites h₁ h₂ hd hr
  exact ⟨h₁, h₂, hd, hr, hr', hsame⟩

/-- Two vertices and an edge between them. -/
def twoEnds : LooseGeometry Float32 := (EdgeGeometry.ofLists [⟨0, 0, 0⟩, ⟨1, 0, 0⟩] [(0, 1)]).loose

/-- A geometry whose list of edges gives each edge a third number. -/
def labelledEdge (label : UInt64) : LooseGeometry Float32 :=
  { twoEnds with edges := ⟨3, [5, 5, label], Nat.succ_pos 2, Nat.dvd_refl 3⟩ }

/-- A geometry whose list of vertices has place for a fourth coordinate. -/
def fourCoordinates : LooseGeometry Float32 :=
  { twoEnds with vertices := ⟨4, [], Nat.succ_pos 3, Nat.dvd_zero 4⟩ }

/-- Of a destination whose edges have a third number this number is left, and
into one whose vertices have four coordinates a crop is not completed. -/
theorem crop_depends_on_widths :
    ((labelledEdge 0).SameLayout (labelledEdge 1) ∧
      (Buffered.crop twoEnds (labelledEdge 0) .unbounded .fail .never).result = .ok (.complete ⟨2, 1, 0⟩) ∧
      (Buffered.crop twoEnds (labelledEdge 1) .unbounded .fail .never).result = .ok (.complete ⟨2, 1, 0⟩) ∧
      (Buffered.crop twoEnds (labelledEdge 0) .unbounded .fail .never).destination.edges.values = [0, 1, 0] ∧
      (Buffered.crop twoEnds (labelledEdge 1) .unbounded .fail .never).destination.edges.values = [0, 1, 1]) ∧
    twoEnds.SameLayout fourCoordinates ∧
      (Buffered.crop twoEnds twoEnds .unbounded .fail .never).result = .ok (.complete ⟨2, 1, 0⟩) ∧
      (Buffered.crop twoEnds fourCoordinates .unbounded .fail .never).result =
        .error (.aborted (.fault .indexOutOfRange)) :=
  ⟨⟨⟨rfl, rfl⟩, by with_unfolding_all rfl, by with_unfolding_all rfl, by with_unfolding_all rfl,
    by with_unfolding_all rfl⟩, ⟨rfl, rfl⟩, by with_unfolding_all rfl, by with_unfolding_all rfl⟩

end Wireframe
