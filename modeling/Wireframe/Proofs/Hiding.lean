import Wireframe.Proofs.Filter
import Wireframe.Proofs.PathOrder
/-!
# What a new geometry hides

Storing a geometry under a free path leaves every other geometry and every
attribute matrix where it was found before. Of the arrays only those right
below the path can be lost: a path there led to an array of the matrix that
the path itself names, and now leads to a list of the new geometry or nowhere.

`Placed.keeps_iff` says when nothing is lost, whatever wrote the geometry.
-/

namespace Wireframe

variable {κ : Type}

/-! ## Resolving paths -/

theorem TypedArray.expect_eq_ok {a : TypedArray κ} {name : String} {t : ScalarType}
    {b : TupleArray (t.Value κ)} : a.expect name t = .ok b ↔ a = ⟨t, b⟩ := by
  obtain ⟨u, c⟩ := a
  unfold expect as?
  by_cases h : u = t
  · subst h
    simp
  · simp [h]

theorem AttributeMatrix.getAs_eq_ok {m : AttributeMatrix κ} {name : String} {t : ScalarType}
    {b : TupleArray (t.Value κ)} : m.getAs name t = .ok b ↔ m.arrays.find? name = some ⟨t, b⟩ := by
  unfold getAs get
  cases m.arrays.find? name with
  | none => simp [bind, Except.bind]
  | some a => simp [bind, Except.bind, TypedArray.expect_eq_ok]

namespace GeometryStore

variable {s t : GeometryStore κ} {p q : Path} {g : EdgeGeometry κ}

/-- A path leads to an array through the geometry right above it or, where
there is none, through the matrix above it. -/
theorem array_eq_ok {u : ScalarType} {a : TupleArray (u.Value κ)} :
    s.array q u = .ok a ↔ ∃ r, q.parent? = some r ∧
      ((∃ k, s.geometries.find? r = some k ∧ listOf? k q.target = some ⟨u, a⟩) ∨
        s.geometries.find? r = none ∧ ∃ m, s.matrix r = .ok m ∧ m.arrays.find? q.target = some ⟨u, a⟩) := by
  unfold array
  cases q.parent? with
  | none => simp
  | some r =>
    cases hr : s.geometries.find? r with
    | some k =>
      cases hl : listOf? k q.target with
      | none => simp [hr, hl]
      | some b => simp [hr, hl, TypedArray.expect_eq_ok]
    | none =>
      cases hm : s.matrix r with
      | error e => simp [hr, hm, bind, Except.bind]
      | ok m => simp [hr, hm, bind, Except.bind, AttributeMatrix.getAs_eq_ok]

/-! ## What other paths keep -/

/-- Whatever a path led to in `s` it leads to in `t`. -/
structure Keeps (s t : GeometryStore κ) (q : Path) : Prop where
  geometry : ∀ k, s.geometry q = .ok k → t.geometry q = .ok k
  matrix : ∀ m, s.matrix q = .ok m → t.matrix q = .ok m
  array : ∀ (u : ScalarType) (a : TupleArray (u.Value κ)), s.array q u = .ok a → t.array q u = .ok a

/-- A geometry under `p` hides an array: a path right below `p` leads through
the matrix that `p` names to an array that is no list of the geometry. -/
def Hides (s : GeometryStore κ) (p : Path) (g : EdgeGeometry κ) : Prop :=
  ∃ (q : Path) (m : AttributeMatrix κ) (a : TypedArray κ), q.parent? = some p ∧ s.matrix p = .ok m ∧
    m.arrays.find? q.target = some a ∧ listOf? g q.target ≠ some a

theorem find?_of_free (h : s.contains p = false) : s.geometries.find? p = none := by
  rw [contains, SortedMap.contains] at h
  exact Option.isNone_iff_eq_none.1 (Option.isSome_eq_false_iff.1 h)

namespace Placed

variable (h : s.Placed t p g) (hfree : s.contains p = false)
include h

theorem find?_self : t.geometries.find? p = some g := geometry_eq_ok.1 h.here

theorem find?_of_ne {r : Path} (hr : r ≠ p) : t.geometries.find? r = s.geometries.find? r := by
  apply Option.ext
  intro k
  rw [← geometry_eq_ok, ← geometry_eq_ok, h.elsewhere r hr]

include hfree

/-- The new geometry comes above no path that had one above it. -/
theorem above?_eq {k : EdgeGeometry κ} (hk : s.above? q = some k) : t.above? q = some k := by
  obtain ⟨r, hr, hg⟩ := Option.bind_eq_some_iff.1 hk
  have hne : r ≠ p := by
    rintro rfl
    rw [find?_of_free hfree] at hg
    cases hg
  rw [above?, hr, Option.bind_some, h.find?_of_ne hne, hg]

theorem matrix_eq {m : AttributeMatrix κ} (hm : s.matrix q = .ok m) : t.matrix q = .ok m := by
  cases ha : s.above? q with
  | none =>
    rw [matrix, ha] at hm
    cases hm
  | some k => rw [← hm, matrix, matrix, ha, h.above?_eq hfree ha]

theorem array_eq {u : ScalarType} {a : TupleArray (u.Value κ)} (hq : q.parent? ≠ some p)
    (ha : s.array q u = .ok a) : t.array q u = .ok a := by
  obtain ⟨r, hr, hcase⟩ := array_eq_ok.1 ha
  have hne : r ≠ p := by
    rintro rfl
    exact hq hr
  refine array_eq_ok.2 ⟨r, hr, ?_⟩
  rw [h.find?_of_ne hne]
  rcases hcase with hlist | ⟨hnone, m, hm, hf⟩
  · exact .inl hlist
  · exact .inr ⟨hnone, m, h.matrix_eq hfree hm, hf⟩

/-- A path that is not right below the new geometry leads where it led. -/
theorem keeps (hp : q ≠ p) (hq : q.parent? ≠ some p) : s.Keeps t q where
  geometry _ hk := (h.elsewhere q hp).trans hk
  matrix _ hm := h.matrix_eq hfree hm
  array _ _ ha := h.array_eq hfree hq ha

/-- All other paths lead where they led exactly when no array is hidden. -/
theorem keeps_iff : (∀ q, q ≠ p → s.Keeps t q) ↔ ¬s.Hides p g := by
  have hnone := find?_of_free hfree
  constructor
  · rintro hkeep ⟨q, m, ⟨u, a⟩, hq, hm, hf, hl⟩
    have ha : s.array q u = .ok a := array_eq_ok.2 ⟨p, hq, .inr ⟨hnone, m, hm, hf⟩⟩
    obtain ⟨r, hr, hcase⟩ := array_eq_ok.1 ((hkeep q (Path.ne_of_parent? hq)).array u a ha)
    obtain rfl : p = r := Option.some.inj (hq.symm.trans hr)
    rw [h.find?_self] at hcase
    obtain ⟨k, hk, hlist⟩ | ⟨hk, -⟩ := hcase
    · cases hk
      exact hl hlist
    · cases hk
  · intro hhide q hp
    by_cases hq : q.parent? = some p
    case neg => exact h.keeps hfree hp hq
    refine ⟨fun k hk => (h.elsewhere q hp).trans hk, fun m hm => h.matrix_eq hfree hm, fun u a ha => ?_⟩
    -- no geometry was right above `q`, so the array came from a matrix
    obtain ⟨r, hr, hcase⟩ := array_eq_ok.1 ha
    obtain rfl : p = r := Option.some.inj (hq.symm.trans hr)
    rw [hnone] at hcase
    obtain ⟨k, hk, -⟩ | ⟨-, m, hm, hf⟩ := hcase
    · cases hk
    · refine array_eq_ok.2 ⟨p, hq, .inl ⟨g, h.find?_self, ?_⟩⟩
      exact Classical.byContradiction fun hl => hhide ⟨q, m, ⟨u, a⟩, hq, hm, hf, hl⟩

end Placed

/-! ## New geometries -/

variable [Coordinate κ]

/-- A complete run out of place stores what its crop made under a free path. -/
theorem placed_of_execute {v : CropParameters κ} {schedule : Schedule} {warnings : List Warning} {stats : CropStats}
    (hnew : v.inPlace = false)
    (hr : (v.execute s schedule).result = .ok ⟨warnings, .complete stats, p⟩) :
    ∃ source, s.geometry v.source = .ok source ∧ s.contains p = false ∧
      s.Placed (v.execute s schedule).store p (v.cropOf source schedule).destination := by
  have hends := v.execute_ends s schedule
  generalize v.execute s schedule = run at hr hends ⊢
  cases hends with
  | rejected | failed | cancelled => cases hr
  | complete h hs _ ht =>
    cases hr
    obtain ⟨_, -, -, -, hfree, rfl⟩ := CropParameters.preflight_eq_ok.1 h
    exact ⟨_, hs, hfree.resolve_left (by simp [hnew]), ht⟩

/-- A geometry newly stored, by an insertion or by a complete run, leaves every
path alone that is not right below its own, and all other paths exactly when
it hides no array. -/
theorem new_geometry_keeps_iff (s : GeometryStore κ) (p : Path) :
    (∀ g t, s.insert p g = .ok t →
      (∀ q, q ≠ p → q.parent? ≠ some p → s.Keeps t q) ∧ ((∀ q, q ≠ p → s.Keeps t q) ↔ ¬s.Hides p g)) ∧
    ∀ (v : CropParameters κ) (schedule : Schedule) (warnings : List Warning) (stats : CropStats),
      v.inPlace = false → (v.execute s schedule).result = .ok ⟨warnings, .complete stats, p⟩ →
      ∃ source, s.geometry v.source = .ok source ∧
        (∀ q, q ≠ p → q.parent? ≠ some p → s.Keeps (v.execute s schedule).store q) ∧
        ((∀ q, q ≠ p → s.Keeps (v.execute s schedule).store q) ↔
          ¬s.Hides p (crop source source.emptyLike v.bounds v.policy schedule).destination) := by
  constructor
  · intro g t ht
    have hfree := free_of_insert ht
    obtain ⟨t', ht', h, -⟩ := insert_spec g hfree
    obtain rfl : t = t' := Except.ok.inj (ht.symm.trans ht')
    exact ⟨fun q => h.keeps hfree, h.keeps_iff hfree⟩
  · intro v schedule warnings stats hnew hr
    obtain ⟨source, hs, hfree, h⟩ := placed_of_execute hnew hr
    exact ⟨source, hs, fun q => h.keeps hfree, h.keeps_iff hfree⟩

open CropParameters (cropLine linePath croppedPath lineStore)

theorem new_geometry_keeps_line :
    (∃ t, lineStore.insert croppedPath onAxis = .ok t ∧ ∀ q, q ≠ croppedPath → lineStore.Keeps t q) ∧
      (cropLine.execute lineStore .never).result =
        .ok ⟨[vertexDataWarning], .complete ⟨3, 2, 1⟩, croppedPath⟩ ∧
      ∀ q, q ≠ croppedPath → lineStore.Keeps (cropLine.execute lineStore .never).store q := by
  -- nothing is stored above the new path, so it names no matrix
  have hhide : ∀ g, ¬lineStore.Hides croppedPath g := by
    rintro g ⟨_, _, _, -, hm, -⟩
    cases hm
  have hr : (cropLine.execute lineStore .never).result =
      .ok ⟨[vertexDataWarning], .complete ⟨3, 2, 1⟩, croppedPath⟩ := by with_unfolding_all rfl
  obtain ⟨t, ht, -⟩ := insert_spec (s := lineStore) (p := croppedPath) onAxis (by with_unfolding_all rfl)
  obtain ⟨source, -, -, hkeep⟩ := (new_geometry_keeps_iff lineStore croppedPath).2 cropLine .never _ _ rfl hr
  exact ⟨⟨t, ht, ((new_geometry_keeps_iff lineStore croppedPath).1 onAxis t ht).2.2 (hhide _)⟩, hr,
    hkeep.2 (hhide _)⟩

/-- The path of the vertex matrix of the sample geometry. -/
def lineMatrixPath : Path := ⟨["Line", "Vertex Data"], by decide, by decide⟩

/-- The path of its array. -/
def lineIdsPath : Path := ⟨["Line", "Vertex Data", "Ids"], by decide, by decide⟩

theorem insert_loses_array : ∃ t, lineStore.insert lineMatrixPath onAxis = .ok t ∧
    lineStore.array lineIdsPath .i32 = .ok ⟨1, [10, 11, 12, 13], by decide, by decide⟩ ∧
    t.array lineIdsPath .i32 = .error (.missingObject lineIdsPath) :=
  ⟨_, rfl, rfl, rfl⟩

end GeometryStore

end Wireframe
