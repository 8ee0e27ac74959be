import Wireframe.Crop.Filter
import Wireframe.Proofs.Buffered
import Wireframe.Proofs.CompleteCrop
import Wireframe.Proofs.GeometryStore
/-!
# What a run of the filter does to the store

A run either leaves the store as it was or places the result of one complete
crop. Placing never fails, since the preflight has found the destination free,
or taken by the source where the crop is in place.

`execute_ends` says how a run may end; what is proved of runs elsewhere is a
case analysis over `FilterEnds`.
-/

namespace Wireframe

variable {κ : Type} [Coordinate κ]

namespace CropParameters

/-! ## The preflight -/

/-- What a preflight that succeeds has found. -/
theorem preflight_eq_ok {s : GeometryStore κ} {v : CropParameters κ} {check : Preflight} :
    v.preflight s = .ok check ↔ ∃ source, s.geometry v.source = .ok source ∧
      (∃ a, v.crops a = true) ∧ v.invertedAxes = [] ∧ (v.inPlace = true ∨ s.contains v.destination = false) ∧
      check = ⟨warnings source, summaryText ++ v.dimensions, v.destination⟩ := by
  have hall : (Axis.all.all fun a => !v.crops a) = true ↔ ¬∃ a, v.crops a = true := by
    rw [List.all_eq_true]
    constructor
    · rintro h ⟨a, ha⟩
      have := h a a.mem_all
      simp [ha] at this
    · intro h a _
      simpa using fun ha => h ⟨a, ha⟩
  unfold preflight
  cases hs : s.geometry v.source with
  | error e => simp
  | ok source =>
    by_cases hc : ∃ a, v.crops a = true
    case neg => simp [hc, hall.2 hc]
    dsimp only
    rw [if_neg fun h => hall.1 h hc]
    cases hi : v.invertedAxes with
    | cons a as => simp
    | nil =>
      dsimp only [List.head?_nil]
      by_cases hfree : v.inPlace = true ∨ s.contains v.destination = false
      · rw [if_neg (by rcases hfree with hf | hf <;> simp [hf])]
        constructor
        · intro h
          cases h
          exact ⟨source, rfl, hc, rfl, hfree, rfl⟩
        · rintro ⟨_, hso, -, -, -, rfl⟩
          cases hso
          rfl
      · rw [if_pos (by simpa using hfree)]
        simp [hfree]

/-! ## Placing the result -/

/-- After a preflight the result of a crop can be placed. -/
theorem place_spec {s : GeometryStore κ} {v : CropParameters κ} {check : Preflight}
    (h : v.preflight s = .ok check) (g : EdgeGeometry κ) :
    ∃ t, v.place s g = .ok t ∧ s.Placed t v.destination g ∧
      t.size = if v.inPlace then s.size else s.size + 1 := by
  obtain ⟨source, hs, -, -, hfree, -⟩ := preflight_eq_ok.1 h
  unfold place
  by_cases hp : v.inPlace = true
  · -- in place the destination is the source, which the preflight has found
    have hd : v.destination = v.source := if_pos hp
    rw [if_pos hp, if_pos hp, hd]
    exact GeometryStore.replace_spec g (GeometryStore.contains_of_geometry hs)
  · rw [if_neg hp, if_neg hp]
    exact GeometryStore.insert_spec g (hfree.resolve_left hp)

/-! ## The ends of a run -/

/-- The crop that a run makes of its source. -/
def cropOf (v : CropParameters κ) (source : EdgeGeometry κ) (schedule : Schedule) : CropRun κ :=
  crop source source.emptyLike v.bounds v.policy schedule

/-- How a run may end. -/
inductive FilterEnds (s : GeometryStore κ) (v : CropParameters κ) (schedule : Schedule) : FilterRun κ → Prop
  | rejected {e : CropError κ} (h : v.preflight s = .error e) : FilterEnds s v schedule ⟨.error e, s, []⟩
  | failed {check : Preflight} {source : EdgeGeometry κ} {e : CropError κ} (h : v.preflight s = .ok check)
      (hs : s.geometry v.source = .ok source) (hr : (v.cropOf source schedule).result = .error e) :
      FilterEnds s v schedule ⟨.error e, s, (v.cropOf source schedule).progress.messages⟩
  | cancelled {check : Preflight} {source : EdgeGeometry κ} (h : v.preflight s = .ok check)
      (hs : s.geometry v.source = .ok source) (hr : (v.cropOf source schedule).result = .ok .cancelled) :
      FilterEnds s v schedule ⟨.ok ⟨check.warnings, .cancelled, check.destination⟩, s,
        (v.cropOf source schedule).progress.messages⟩
  /-- Only here the store changes. -/
  | complete {check : Preflight} {source : EdgeGeometry κ} {stats : CropStats} {t : GeometryStore κ}
      (h : v.preflight s = .ok check) (hs : s.geometry v.source = .ok source)
      (hr : (v.cropOf source schedule).result = .ok (.complete stats))
      (ht : s.Placed t check.destination (v.cropOf source schedule).destination)
      (hsize : t.size = if v.inPlace then s.size else s.size + 1) :
      FilterEnds s v schedule ⟨.ok ⟨check.warnings, .complete stats, check.destination⟩, t,
        (v.cropOf source schedule).progress.messages⟩

/-- Every run ends in one of these ways. -/
theorem execute_ends (s : GeometryStore κ) (v : CropParameters κ) (schedule : Schedule) :
    FilterEnds s v schedule (v.execute s schedule) := by
  unfold execute executeBy
  cases h : v.preflight s with
  | error e => exact .rejected h
  | ok check =>
    obtain ⟨source, hs, -, -, -, hcheck⟩ := preflight_eq_ok.1 h
    simp only [hs]
    change FilterEnds s v schedule (v.conclude s check (v.cropOf source schedule))
    unfold conclude
    split
    next e hr => exact .failed h hs hr
    next hr => exact .cancelled h hs hr
    next stats hr =>
      obtain ⟨t, ht, hplaced, hsize⟩ := place_spec h (v.cropOf source schedule).destination
      rw [ht]
      have hd : check.destination = v.destination := by rw [hcheck]
      exact .complete h hs hr (hd ▸ hplaced) hsize

/-- A source that has room for all its elements is cropped as if room had not
to be looked for. -/
theorem executeChecked_eq {s : GeometryStore κ} {v : CropParameters κ}
    (h : ∀ source, s.geometry v.source = .ok source →
      source.loose.HasVertexRoom source.vertexCount ∧ source.loose.HasEdgeRoom source.edgeCount)
    (schedule : Schedule) : v.executeChecked s schedule = v.execute s schedule := by
  unfold executeChecked execute executeBy
  split
  next => rfl
  next =>
    split
    next => rfl
    next source hs =>
      obtain ⟨hv, he⟩ := h source hs
      rw [cropChecked_of_room fun sel hsel => hasRoom_of_source hsel source.sameLayout_emptyLike hv he]

/-! ## Runs as transactions -/

/-- A run that fails or is cancelled leaves the store as it was. A complete
one stores, under the reported path, what the crop made of an empty geometry
like the source, with the counts it reports, and changes no other path. -/
theorem execute_transaction (s : GeometryStore κ) (v : CropParameters κ) (schedule : Schedule) :
    match (v.execute s schedule).result with
    | .error _ => (v.execute s schedule).store = s
    | .ok ⟨_, .cancelled, _⟩ => (v.execute s schedule).store = s
    | .ok ⟨_, .complete stats, path⟩ => ∃ source g, s.geometry v.source = .ok source ∧
      (crop source source.emptyLike v.bounds v.policy schedule).result = .ok (.complete stats) ∧
      (crop source source.emptyLike v.bounds v.policy schedule).destination = g ∧
      (v.execute s schedule).store.geometry path = .ok g ∧
      g.vertexCount = stats.vertices ∧ g.edgeCount = stats.edges ∧
      (∀ q, q ≠ path → (v.execute s schedule).store.geometry q = s.geometry q) ∧
      (v.execute s schedule).store.size = if v.inPlace then s.size else s.size + 1 := by
  have hends := execute_ends s v schedule
  generalize v.execute s schedule = run at hends ⊢
  cases hends with
  | rejected | failed | cancelled => rfl
  | complete h hs hr ht hsize =>
    obtain ⟨sel, links, hsel, hl, -, hd, rfl⟩ := crop_complete hr
    refine ⟨_, _, hs, hr, rfl, ht.here, ?_, ?_, ht.elsewhere, hsize⟩
    · rw [hd, sel.vertexCount_compact]
      rfl
    · rw [hd, Selection.edgeCount_compact hsel hl]
      rfl

def linePath : Path := ⟨["Line"], by decide, by decide⟩

def croppedPath : Path := ⟨["Cropped"], by decide, by decide⟩

/-- Crops the sample geometry on one axis. -/
def cropLine : CropParameters Float32 where
  source := linePath
  created := croppedPath
  lo := ⟨0, 0, 0⟩
  hi := ⟨1.5, 0, 0⟩
  inPlace := false
  cropX := true
  cropY := false
  cropZ := false
  policy := .interpolate

def lineStore : GeometryStore Float32 := ⟨SortedMap.empty.insert linePath onAxis⟩

theorem execute_transaction_line :
    (cropLine.execute lineStore .never).result =
        .ok ⟨[vertexDataWarning], .complete ⟨3, 2, 1⟩, croppedPath⟩ ∧
      (cropLine.execute lineStore .never).store.size = 2 ∧
      (cropLine.execute lineStore .never).store.geometry linePath = .ok onAxis := by
  have hr : (cropLine.execute lineStore .never).result =
      .ok ⟨[vertexDataWarning], .complete ⟨3, 2, 1⟩, croppedPath⟩ := by with_unfolding_all rfl
  have h := execute_transaction lineStore cropLine .never
  rw [hr] at h
  obtain ⟨source, g, -, -, -, -, -, -, helse, hsize⟩ := h
  exact ⟨hr, hsize, (helse linePath (by decide)).trans rfl⟩

end CropParameters

end Wireframe
