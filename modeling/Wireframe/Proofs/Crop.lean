import Wireframe.Crop.Run
import Wireframe.Proofs.MaskedCopy
import Wireframe.Proofs.Renumber
/-!
# How a crop ends

A crop that cannot select leaves its destination alone. Once it has selected,
the lists of the destination are written before anything can fail, and the
only thing that can still fail is an array that has no fitting namesake. A
complete crop is determined by its selection: of the destination only the
names of the two matrices are left (`Selection.compact`), and the result fits
together, so the check at the end never fails.

`crop_ends` sums this up; what is proved of crops elsewhere is a case analysis
over `CropEnds`.
-/

namespace Wireframe

variable {κ : Type}

/-! ## Copying the arrays of a matrix -/

theorem announce_cancelled {schedule : Schedule} {label : String} (names : List String) (p : Progress)
    (h : (announce schedule label names p).1 = false) : schedule.Rises := by
  induction names generalizing p with
  | nil => cases h
  | cons n names ih =>
    rw [announce] at h
    split at h
    next hflag => exact ⟨_, _, hflag⟩
    next => exact ih _ h

open AttributeMatrix in
theorem copyAttributes_ends {mask : Mask} {dst : AttributeMatrix κ} (schedule : Schedule) (label : String)
    (src : AttributeMatrix κ) (p : Progress) (hsize : dst.size = mask.kept) :
    CopyEnds schedule mask src dst (copyAttributes schedule label mask src dst p) := by
  unfold copyAttributes
  cases hn : src.copyNames dst with
  | error e =>
    refine .refused (fun hc => ?_) ⟨rfl, rfl⟩
    rw [copyNames_eq_ok.2 ⟨hc.names, rfl⟩] at hn
    cases hn
  | ok names =>
    obtain ⟨heq, rfl⟩ := copyNames_eq_ok.1 hn
    dsimp only
    split
    next hp => exact .cancelled (announce_cancelled _ _ (congrArg Prod.fst hp)) ⟨rfl, rfl⟩
    next => exact copyArrays_ends schedule _ heq hsize

variable [Coordinate κ]

/-! ## What is written -/

namespace Selection

/-- What a destination holds once a selection has been written, however the
copies of attributes end. -/
structure Written (s : Selection κ) (src dst g : EdgeGeometry κ) : Prop where
  vertices : g.vertices = EdgeGeometry.vertexList (s.positions src)
  edgeCount : g.edgeCount = s.keepEdge.kept
  vertexName : g.vertexData.name = dst.vertexData.name
  vertexSize : g.vertexData.size = s.keepVertex.kept
  edgeName : g.edgeData.name = dst.edgeData.name
  edgeSize : g.edgeData.size = s.keepEdge.kept

/-- Every array of the source fits its namesake in the resized destination. -/
structure Copyable (s : Selection κ) (src dst : EdgeGeometry κ) : Prop where
  vertexData : AttributeMatrix.Copyable s.keepVertex src.vertexData (dst.vertexData.resized s.keepVertex.kept)
  edgeData : AttributeMatrix.Copyable s.keepEdge src.edgeData (dst.edgeData.resized s.keepEdge.kept)

/-- What a destination has to offer to a selection is the layout of the source,
and the arrays of the source have to be in step. -/
theorem copyable_iff {s : Selection κ} {src dst : EdgeGeometry κ} {bounds : Box κ} {policy : BoundaryPolicy}
    (h : Selection.of src bounds policy = .ok s) : s.Copyable src dst ↔ src.SameLayout dst ∧ src.InStep := by
  have hcopy : s.Copyable src dst ↔
      (src.vertexData.layout = dst.vertexData.layout ∧ src.vertexData.InStep s.keepVertex.length) ∧
        (src.edgeData.layout = dst.edgeData.layout ∧ src.edgeData.InStep s.keepEdge.length) := by
    rw [← AttributeMatrix.copyable_resized_iff, ← AttributeMatrix.copyable_resized_iff]
    exact ⟨fun hc => ⟨hc.1, hc.2⟩, fun hc => ⟨hc.1, hc.2⟩⟩
  rw [hcopy, length_keepVertex h, length_keepEdge h]
  exact and_and_and_comm

/-- What a complete crop makes of a destination. -/
def compact (s : Selection κ) (src dst : EdgeGeometry κ) (links : List Link) : EdgeGeometry κ where
  vertices := EdgeGeometry.vertexList (s.positions src)
  edges := EdgeGeometry.edgeList links
  vertexData := src.vertexData.compact s.keepVertex dst.vertexData.name
  edgeData := src.edgeData.compact s.keepEdge dst.edgeData.name
  vertices_width := EdgeGeometry.width_vertexList _
  edges_width := EdgeGeometry.width_edgeList _

variable {s : Selection κ} {src dst : EdgeGeometry κ} {bounds : Box κ} {policy : BoundaryPolicy}

theorem length_positions (s : Selection κ) (src : EdgeGeometry κ) :
    (s.positions src).length = s.keepVertex.kept := by
  rw [positions, List.length_map, Mask.length_indices]

/-- The lists are written before any attribute is. -/
theorem written_prepare (s : Selection κ) (src dst : EdgeGeometry κ) : s.Written src dst (s.prepare src dst) where
  vertices := rfl
  edgeCount := TupleArray.size_resized _ _ _
  vertexName := rfl
  vertexSize := rfl
  edgeName := rfl
  edgeSize := rfl

theorem Written.withVertexData {g : EdgeGeometry κ} {m : AttributeMatrix κ} (h : s.Written src dst g)
    (hm : m.name = g.vertexData.name ∧ m.size = g.vertexData.size) :
    s.Written src dst { g with vertexData := m } :=
  { h with
    vertexName := hm.1.trans h.vertexName
    vertexSize := hm.2.trans h.vertexSize }

theorem Written.withEdgeData {g : EdgeGeometry κ} {m : AttributeMatrix κ} (h : s.Written src dst g)
    (hm : m.name = g.edgeData.name ∧ m.size = g.edgeData.size) :
    s.Written src dst { g with edgeData := m } :=
  { h with
    edgeName := hm.1.trans h.edgeName
    edgeSize := hm.2.trans h.edgeSize }

theorem Written.setLinks {g : EdgeGeometry κ} {links : List Link} (h : s.Written src dst g)
    (hl : links.length = s.keepEdge.kept) : s.Written src dst (g.setLinks links) :=
  { h with edgeCount := (EdgeGeometry.size_edgeList links).trans hl }

theorem length_newLinks (h : Selection.of src bounds policy = .ok s) {links : List Link}
    (hl : s.newLinks src = .ok links) : links.length = s.keepEdge.kept := by
  rw [(newLinks_spec h hl).1, kept_edges h]

theorem vertexCount_compact (s : Selection κ) (src dst : EdgeGeometry κ) (links : List Link) :
    (s.compact src dst links).vertexCount = s.keepVertex.kept :=
  (EdgeGeometry.size_vertexList _).trans (length_positions s src)

theorem edgeCount_compact (h : Selection.of src bounds policy = .ok s) {links : List Link}
    (hl : s.newLinks src = .ok links) : (s.compact src dst links).edgeCount = s.keepEdge.kept :=
  (EdgeGeometry.size_edgeList links).trans (length_newLinks h hl)

/-- A kept edge joins the ranks of its endpoints. -/
theorem edge?_compact (h : Selection.of src bounds policy = .ok s) {links : List Link}
    (hl : s.newLinks src = .ok links) {j e : Nat} (he : (src.keptEdges bounds policy)[j]? = some e) :
    ∃ old new, src.edge? e = some old ∧ (s.compact src dst links).edge? j = some new ∧
      Renumbered (src.keptVertices bounds policy) old new := by
  obtain ⟨old, new, ho, hn, hr⟩ := (newLinks_spec h hl).2 j e he
  refine ⟨old, new, ho, ?_, hr⟩
  rw [← EdgeGeometry.getElem?_links, EdgeGeometry.links_of_edges (g := s.compact src dst links) rfl, hn]

/-- The result of a complete crop fits together. -/
theorem validate_compact (h : Selection.of src bounds policy = .ok s) (hc : s.Copyable src dst)
    {links : List Link} (hl : s.newLinks src = .ok links) : (s.compact src dst links).validate = .ok () := by
  have hv := s.vertexCount_compact src dst links
  have he : (s.compact src dst links).edgeCount = s.keepEdge.kept := edgeCount_compact h hl
  obtain ⟨hlen, hnew⟩ := newLinks_spec h hl
  refine EdgeGeometry.validate_eq_ok.2 ⟨fun l hlk => ?_, ?_, ?_⟩
  · rw [EdgeGeometry.links_of_edges (g := s.compact src dst links) rfl] at hlk
    obtain ⟨j, hj⟩ := List.mem_iff_getElem?.1 hlk
    have hjl : j < (src.keptEdges bounds policy).length := hlen ▸ (List.getElem?_eq_some_iff.1 hj).1
    obtain ⟨old, new, -, hn, h₁, h₂⟩ := hnew j _ (List.getElem?_eq_getElem hjl)
    obtain rfl : l = new := by
      rw [hj] at hn
      exact Option.some.inj hn
    rw [hv, kept_vertices h]
    exact ⟨(List.getElem?_eq_some_iff.1 h₁).1, (List.getElem?_eq_some_iff.1 h₂).1⟩
  · rw [hv]
    exact ⟨rfl, AttributeMatrix.inStep_compact hc.vertexData⟩
  · rw [he]
    exact ⟨rfl, AttributeMatrix.inStep_compact hc.edgeData⟩

omit [Coordinate κ] in
/-- The last stage says what announces the edge arrays. -/
theorem progress_finish (s : Selection κ) (schedule : Schedule) (src dst : EdgeGeometry κ) (p : Progress) :
    (s.finish schedule src dst p).progress =
      (copyAttributes schedule edgeLabel s.keepEdge src.edgeData dst.edgeData p).2.2 := by
  unfold finish
  split
  next h => rw [h]
  next h => rw [h]
  next h =>
    rw [h]
    dsimp only
    split <;> rfl

omit [Coordinate κ] in
theorem finish_cancelled_iff {schedule : Schedule} {p : Progress} :
    (s.finish schedule src dst p).result = .ok .cancelled ↔
      (copyAttributes schedule edgeLabel s.keepEdge src.edgeData dst.edgeData p).1 = .ok false := by
  unfold finish
  split
  next h => simp [h]
  next h => simp [h]
  next h =>
    rw [h]
    dsimp only
    split <;> simp

end Selection

/-! ## The ends of a crop -/

/-- How a crop may end. -/
inductive CropEnds (src dst : EdgeGeometry κ) (bounds : Box κ) (policy : BoundaryPolicy) (schedule : Schedule) :
    CropRun κ → Prop
  /-- Nothing was selected and nothing written. -/
  | unselected {e : CropError κ} (h : Selection.of src bounds policy = .error e) :
      CropEnds src dst bounds policy schedule ⟨.error e, dst, .start⟩
  /-- An array of the source has no namesake that fits. -/
  | refused {s : Selection κ} {e : Error} {g : EdgeGeometry κ} {p : Progress}
      (h : Selection.of src bounds policy = .ok s) (hc : ¬s.Copyable src dst) (hw : s.Written src dst g) :
      CropEnds src dst bounds policy schedule ⟨.error (.refused e), g, p⟩
  | cancelled {s : Selection κ} {g : EdgeGeometry κ} {p : Progress}
      (h : Selection.of src bounds policy = .ok s) (hr : schedule.Rises) (hw : s.Written src dst g) :
      CropEnds src dst bounds policy schedule ⟨.ok .cancelled, g, p⟩
  | complete {s : Selection κ} {links : List Link} {p : Progress}
      (h : Selection.of src bounds policy = .ok s) (hl : s.newLinks src = .ok links) (hc : s.Copyable src dst) :
      CropEnds src dst bounds policy schedule ⟨.ok (.complete s.stats), s.compact src dst links, p⟩

/-- The last stage of a crop, the vertices and the links being in place. -/
theorem finish_ends {s : Selection κ} {links : List Link} (schedule : Schedule) (p : Progress)
    (h : Selection.of src bounds policy = .ok s) (hl : s.newLinks src = .ok links)
    (hc : AttributeMatrix.Copyable s.keepVertex src.vertexData (dst.vertexData.resized s.keepVertex.kept)) :
    CropEnds src dst bounds policy schedule (s.finish schedule src
      ({ s.prepare src dst with
        vertexData := src.vertexData.compact s.keepVertex dst.vertexData.name }.setLinks links) p) := by
  have hw := ((s.written_prepare src dst).withVertexData
    (m := src.vertexData.compact s.keepVertex dst.vertexData.name) ⟨rfl, rfl⟩).setLinks
    (Selection.length_newLinks h hl)
  unfold Selection.finish
  have hends := copyAttributes_ends schedule edgeLabel src.edgeData p hw.edgeSize
  generalize copyAttributes schedule edgeLabel s.keepEdge src.edgeData _ p = r at hends ⊢
  cases hends with
  | refused hce hm => exact .refused h (fun hcs => hce hcs.edgeData) (hw.withEdgeData hm)
  | cancelled hr hm => exact .cancelled h hr (hw.withEdgeData hm)
  | complete hce =>
    have hcs : s.Copyable src dst := ⟨hc, hce⟩
    have hfit := Selection.validate_compact h hcs hl
    have hassert : (s.compact src dst links).assertFits = .ok () := by
      rw [EdgeGeometry.assertFits, hfit]
      rfl
    -- with the copied matrix in place the destination is the compacted geometry
    dsimp only
    split
    next e he => cases hassert.symm.trans he
    next => exact .complete h hl hcs

/-- Every crop ends in one of these ways. -/
theorem crop_ends (src dst : EdgeGeometry κ) (bounds : Box κ) (policy : BoundaryPolicy) (schedule : Schedule) :
    CropEnds src dst bounds policy schedule (crop src dst bounds policy schedule) := by
  unfold crop
  cases h : Selection.of src bounds policy with
  | error e => exact .unselected h
  | ok s =>
    obtain ⟨links, hl⟩ := Selection.exists_newLinks h
    have hw := s.written_prepare src dst
    simp only [Selection.write, hl]
    have hends := copyAttributes_ends schedule vertexLabel src.vertexData .start hw.vertexSize
    generalize copyAttributes schedule vertexLabel s.keepVertex src.vertexData _ .start = r at hends ⊢
    cases hends with
    | refused hc hm => exact .refused h (fun hcs => hc hcs.vertexData) (hw.withVertexData hm)
    | cancelled hr hm => exact .cancelled h hr (hw.withVertexData hm)
    | complete hc => exact finish_ends schedule _ h hl hc

/-- Once a selection is made and every array fits, nothing but the flag keeps a
crop from its end. -/
theorem crop_of_copyable {s : Selection κ} {links : List Link} (hs : Selection.of src bounds policy = .ok s)
    (hl : s.newLinks src = .ok links) (hc : s.Copyable src dst) (schedule : Schedule) :
    (crop src dst bounds policy schedule).result = .ok (.complete s.stats) ∧
        (crop src dst bounds policy schedule).destination = s.compact src dst links ∨
      (crop src dst bounds policy schedule).result = .ok .cancelled ∧ schedule.Rises := by
  have hends := crop_ends src dst bounds policy schedule
  generalize crop src dst bounds policy schedule = run at hends ⊢
  cases hends with
  | unselected he => cases he.symm.trans hs
  | refused hs' hc' =>
    cases hs'.symm.trans hs
    exact absurd hc hc'
  | cancelled _ hr _ => exact .inr ⟨rfl, hr⟩
  | complete hs' hl' =>
    cases hs'.symm.trans hs
    cases hl'.symm.trans hl
    exact .inl ⟨rfl, rfl⟩

/-- Into an empty geometry of the same layout, a source whose arrays are in
step is cropped unless nothing can be selected. -/
theorem crop_eq_error_iff {schedule : Schedule} (hin : src.InStep) {err : CropError κ} :
    (crop src src.emptyLike bounds policy schedule).result = .error err ↔
      Selection.of src bounds policy = .error err := by
  cases hs : Selection.of src bounds policy with
  | error e => simp only [crop, hs, Except.error.injEq]
  | ok s =>
    obtain ⟨links, hl⟩ := Selection.exists_newLinks hs
    have hc := (Selection.copyable_iff hs).2 ⟨src.sameLayout_emptyLike, hin⟩
    rcases crop_of_copyable hs hl hc schedule with ⟨hr, -⟩ | ⟨hr, -⟩ <;> simp [hr]

end Wireframe
