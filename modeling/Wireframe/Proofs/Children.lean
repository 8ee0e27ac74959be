import Wireframe.Proofs.Hiding
import Wireframe.Proofs.Stopping
/-!
# Finding what belongs to a geometry

The lists and matrices of a stored geometry are looked for one name below its
path, the arrays of a matrix two names below. The lists and the vertex matrix
are always found. Two things can stand in the way of the rest: both matrices
may have one name, which then stands for that of the vertices, and a geometry
stored under the path of a matrix takes the arrays there for its own lists.
Nothing else can.

A store in which whatever is written finds room, so that neither happens,
keeps every part of its geometries within reach.
-/

namespace Wireframe

variable {κ : Type}

/-! ## Parts of a stored geometry -/

namespace EdgeGeometry

/-- The two attribute matrices. -/
def matrices (g : EdgeGeometry κ) : List (AttributeMatrix κ) := [g.vertexData, g.edgeData]

theorem mem_matrices {g : EdgeGeometry κ} {m : AttributeMatrix κ} :
    m ∈ g.matrices ↔ m = g.vertexData ∨ m = g.edgeData := by simp [matrices]

/-- The name of the edge matrix leads to another matrix. -/
def Ambiguous (g : EdgeGeometry κ) : Prop :=
  ValidName g.edgeData.name ∧ g.vertexData.name = g.edgeData.name ∧ g.vertexData ≠ g.edgeData

end EdgeGeometry

namespace GeometryStore

variable {s t : GeometryStore κ} {p q : Path} {g k : EdgeGeometry κ} {m : AttributeMatrix κ}

/-- Every part of a geometry under `p` is found by its names, as far as these
can stand in a path. -/
structure Addressable (s : GeometryStore κ) (p : Path) (g : EdgeGeometry κ) : Prop where
  vertexList : ∃ q, p.child EdgeGeometry.vertexListName = .ok q ∧ s.array q .f32 = .ok g.vertices
  edgeList : ∃ q, p.child EdgeGeometry.edgeListName = .ok q ∧ s.array q .u64 = .ok g.edges
  matrix : ∀ m ∈ g.matrices, ∀ q, p.child m.name = .ok q → s.matrix q = .ok m
  array : ∀ m ∈ g.matrices, ∀ q, p.child m.name = .ok q → ∀ name r, q.child name = .ok r →
    ∀ (u : ScalarType) (a : TupleArray (u.Value κ)), m.arrays.find? name = some ⟨u, a⟩ → s.array r u = .ok a

/-- A geometry stored under the path of a matrix of `g` hides an array there. -/
def Shadowed (s : GeometryStore κ) (p : Path) (g : EdgeGeometry κ) : Prop :=
  ∃ m ∈ g.matrices, ∃ q k, p.child m.name = .ok q ∧ s.geometry q = .ok k ∧ s.Hides q k

section Stored
variable (h : s.geometry p = .ok g)
include h

theorem above?_child {name : String} (hq : p.child name = .ok q) : s.above? q = some g := by
  rw [above?, (Path.child_eq_ok.1 hq).1, Option.bind_some, geometry_eq_ok.1 h]

/-- A name of a list leads to the list. -/
theorem array_list {name : String} {u : ScalarType} {a : TupleArray (u.Value κ)} (hv : ValidName name)
    (hl : listOf? g name = some ⟨u, a⟩) : ∃ q, p.child name = .ok q ∧ s.array q u = .ok a := by
  obtain ⟨q, hq⟩ := p.exists_child hv
  obtain ⟨hp, rfl⟩ := Path.child_eq_ok.1 hq
  exact ⟨q, hq, array_eq_ok.2 ⟨p, hp, .inl ⟨g, geometry_eq_ok.1 h, hl⟩⟩⟩

theorem matrix_vertexData (hq : p.child g.vertexData.name = .ok q) : s.matrix q = .ok g.vertexData := by
  rw [matrix, above?_child h hq]
  dsimp only
  rw [if_pos (Path.child_eq_ok.1 hq).2.symm]

theorem matrix_child (hamb : ¬g.Ambiguous) (hm : m ∈ g.matrices) (hq : p.child m.name = .ok q) :
    s.matrix q = .ok m := by
  obtain rfl | rfl := EdgeGeometry.mem_matrices.1 hm
  · exact matrix_vertexData h hq
  · have htarget := (Path.child_eq_ok.1 hq).2
    by_cases hn : g.vertexData.name = g.edgeData.name
    · have hv : ValidName g.edgeData.name := htarget ▸ q.valid_target
      have he : g.vertexData = g.edgeData := Classical.byContradiction fun hne => hamb ⟨hv, hn, hne⟩
      rw [← he]
      exact matrix_vertexData h (hn ▸ hq)
    · rw [matrix, above?_child h hq]
      dsimp only
      rw [if_neg (htarget ▸ hn), if_pos htarget.symm]

/-- With names that tell the matrices apart and nothing hidden, every part is
found. -/
theorem addressable_of (hamb : ¬g.Ambiguous) (hshadow : ¬s.Shadowed p g) : s.Addressable p g where
  vertexList := array_list h (by decide) rfl
  edgeList := array_list h (by decide) rfl
  matrix _ hm _ hq := matrix_child h hamb hm hq
  array m hm q hq name r hr u a ha := by
    obtain ⟨hparent, rfl⟩ := Path.child_eq_ok.1 hr
    have hmatrix := matrix_child h hamb hm hq
    refine array_eq_ok.2 ⟨q, hparent, ?_⟩
    cases hk : s.geometries.find? q with
    | none => exact .inr ⟨rfl, m, hmatrix, ha⟩
    | some k =>
      refine .inl ⟨k, rfl, Classical.byContradiction fun hl => hshadow ?_⟩
      exact ⟨m, hm, q, k, hq, geometry_eq_ok.2 hk, r, m, ⟨u, a⟩, hparent, hmatrix, ha, hl⟩

end Stored

namespace Addressable

theorem not_ambiguous (ha : s.Addressable p g) : ¬g.Ambiguous := by
  rintro ⟨hv, hn, hne⟩
  obtain ⟨q, hq⟩ := p.exists_child hv
  have hvertex := ha.matrix g.vertexData (EdgeGeometry.mem_matrices.2 (.inl rfl)) q (hn ▸ hq)
  have hedge := ha.matrix g.edgeData (EdgeGeometry.mem_matrices.2 (.inr rfl)) q hq
  exact hne (Except.ok.inj (hvertex.symm.trans hedge))

theorem not_shadowed (ha : s.Addressable p g) : ¬s.Shadowed p g := by
  rintro ⟨m, hm, q, k, hq, hk, r, m', ⟨u, a⟩, hr, hm', hf, hl⟩
  obtain rfl : m = m' := Except.ok.inj ((ha.matrix m hm q hq).symm.trans hm')
  have harray := ha.array m hm q hq r.target r (Path.child_eq_ok.2 ⟨hr, rfl⟩) u a hf
  obtain ⟨q', hr', hcase⟩ := array_eq_ok.1 harray
  obtain rfl : q = q' := Option.some.inj (hr.symm.trans hr')
  rw [geometry_eq_ok.1 hk] at hcase
  obtain ⟨k', hk', hlist⟩ | ⟨hnone, -⟩ := hcase
  · cases hk'
    exact hl hlist
  · cases hnone

end Addressable

/-! ## Stores with room for every part -/

/-- `q` is the path of a matrix of `g`, which is stored under `p`. -/
def NamesMatrix (p : Path) (g : EdgeGeometry κ) (q : Path) : Prop := ∃ m ∈ g.matrices, p.child m.name = .ok q

theorem not_namesMatrix_self (p : Path) (g : EdgeGeometry κ) : ¬NamesMatrix p g p := fun ⟨_, _, h⟩ =>
  Path.ne_of_parent? (Path.child_eq_ok.1 h).1 rfl

/-- The matrices of `g` have different names, none of them names a place where
a geometry is stored, and `p` is not the path of a matrix itself. -/
structure HasRoom (s : GeometryStore κ) (p : Path) (g : EdgeGeometry κ) : Prop where
  distinct : g.vertexData.name ≠ g.edgeData.name
  below : ∀ q k, s.geometry q = .ok k → ¬NamesMatrix p g q
  above : ∀ q k, s.geometry q = .ok k → ¬NamesMatrix q k p

/-- Room is a matter of names. -/
theorem HasRoom.congr (h : s.HasRoom p g) (hv : k.vertexData.name = g.vertexData.name)
    (he : k.edgeData.name = g.edgeData.name) : s.HasRoom p k := by
  have hiff : ∀ q, NamesMatrix p k q ↔ NamesMatrix p g q := by
    simp [NamesMatrix, EdgeGeometry.mem_matrices, hv, he]
  exact ⟨hv ▸ he ▸ h.distinct, fun q j hj => (hiff q).not.2 (h.below q j hj), h.above⟩

/-- Every geometry has the room it needs. -/
def Tidy (s : GeometryStore κ) : Prop := ∀ p g, s.geometry p = .ok g → s.HasRoom p g

theorem Tidy.addressable (hs : s.Tidy) (h : s.geometry p = .ok g) : s.Addressable p g := by
  have hroom := hs p g h
  refine addressable_of h (fun ha => hroom.distinct ha.2.1) ?_
  rintro ⟨m, hm, q, k, hq, hk, -⟩
  exact hroom.below q k hk ⟨m, hm, hq⟩

/-- A write that finds room leaves room for all. -/
theorem Placed.tidy (h : s.Placed t p g) (hs : s.Tidy) (hroom : s.HasRoom p g) : t.Tidy := by
  intro q k hk
  rcases h.stored hk with ⟨rfl, rfl⟩ | hk
  · refine ⟨hroom.distinct, fun r j hj => ?_, fun r j hj => ?_⟩
    · rcases h.stored hj with ⟨rfl, rfl⟩ | hj
      · exact not_namesMatrix_self _ _
      · exact hroom.below r j hj
    · rcases h.stored hj with ⟨rfl, rfl⟩ | hj
      · exact not_namesMatrix_self _ _
      · exact hroom.above r j hj
  · have hq := hs q k hk
    refine ⟨hq.distinct, fun r j hj => ?_, fun r j hj => ?_⟩
    · rcases h.stored hj with ⟨rfl, rfl⟩ | hj
      · exact hroom.above q k hk
      · exact hq.below r j hj
    · rcases h.stored hj with ⟨rfl, rfl⟩ | hj
      · exact hroom.below q k hk
      · exact hq.above r j hj

/-- A removal leaves room for what remains. -/
theorem tidy_of_erase (hs : s.Tidy) (h : s.erase p = .ok t) : t.Tidy := by
  intro q k hk
  have hq := hs q k (geometry_of_erase h hk)
  exact ⟨hq.distinct, fun r j hj => hq.below r j (geometry_of_erase h hj),
    fun r j hj => hq.above r j (geometry_of_erase h hj)⟩

variable [Coordinate κ]

/-- A crop has the room of its source. A run in place writes where the source
was; out of place the source needs room under the new path. -/
theorem tidy_of_execute {v : CropParameters κ} {schedule : Schedule} (hs : s.Tidy)
    (hroom : v.inPlace = false → ∀ source, s.geometry v.source = .ok source → s.HasRoom v.created source) :
    (v.execute s schedule).store.Tidy := by
  have hends := v.execute_ends s schedule
  generalize v.execute s schedule = run at hends ⊢
  cases hends with
  | rejected | failed | cancelled => exact hs
  | @complete _ source _ _ h hsource hr ht =>
    obtain ⟨_, -, -, -, -, rfl⟩ := CropParameters.preflight_eq_ok.1 h
    have hplace : s.HasRoom v.destination source := by
      unfold CropParameters.destination
      split
      next => exact hs v.source source hsource
      next hin => exact hroom (by simpa using hin) source hsource
    obtain ⟨sel, links, -, -, -, hd, -⟩ := crop_complete hr
    have hdest : (v.cropOf source schedule).destination = sel.compact source source.emptyLike links := hd
    rw [hdest] at ht
    exact ht.tidy hs (hplace.congr rfl rfl)

/-- The stores that come from the empty one by writes, removals and runs of the
filter, as long as whatever is written finds room. -/
inductive Grown : GeometryStore κ → Prop
  | empty : Grown empty
  | insert {s t : GeometryStore κ} {p : Path} {g : EdgeGeometry κ} (hs : Grown s) (hroom : s.HasRoom p g)
      (h : s.insert p g = .ok t) : Grown t
  | replace {s t : GeometryStore κ} {p : Path} {g : EdgeGeometry κ} (hs : Grown s) (hroom : s.HasRoom p g)
      (h : s.replace p g = .ok t) : Grown t
  | erase {s t : GeometryStore κ} {p : Path} (hs : Grown s) (h : s.erase p = .ok t) : Grown t
  | execute {s : GeometryStore κ} (v : CropParameters κ) (schedule : Schedule) (hs : Grown s)
      (hroom : v.inPlace = false → ∀ source, s.geometry v.source = .ok source → s.HasRoom v.created source) :
      Grown (v.execute s schedule).store

theorem Grown.tidy (hs : s.Grown) : s.Tidy := by
  induction hs with
  | empty =>
    intro p g h
    cases h
  | insert _ hroom h ih => exact (placed_of_insert h).tidy ih hroom
  | replace _ hroom h ih => exact (placed_of_replace h).tidy ih hroom
  | erase _ h ih => exact tidy_of_erase ih h
  | execute v schedule _ hroom ih => exact tidy_of_execute ih hroom

/-! ## What is found -/

/-- Of a stored geometry the lists and the vertex matrix are always found, and
every part is found exactly when its matrices can be told apart and no geometry
below it hides an array. In a store that has grown with room for all, every
part of every geometry is found. -/
theorem addressable_iff (s : GeometryStore κ) :
    (∀ p g, s.geometry p = .ok g →
      (∃ q, p.child EdgeGeometry.vertexListName = .ok q ∧ s.array q .f32 = .ok g.vertices) ∧
        (∃ q, p.child EdgeGeometry.edgeListName = .ok q ∧ s.array q .u64 = .ok g.edges) ∧
        (∀ q, p.child g.vertexData.name = .ok q → s.matrix q = .ok g.vertexData) ∧
        (s.Addressable p g ↔ ¬g.Ambiguous ∧ ¬s.Shadowed p g)) ∧
      (s.Grown → ∀ p g, s.geometry p = .ok g → s.Addressable p g) := by
  constructor
  · intro p g h
    refine ⟨array_list h (by decide) rfl, array_list h (by decide) rfl, fun q hq => matrix_vertexData h hq, ?_⟩
    constructor
    · exact fun ha => ⟨ha.not_ambiguous, ha.not_shadowed⟩
    · rintro ⟨hamb, hshadow⟩
      exact addressable_of h hamb hshadow
  · intro hs p g h
    exact hs.tidy.addressable h

open CropParameters (linePath lineStore)

theorem addressable_iff_line :
    lineStore.Grown ∧ lineStore.geometry linePath = .ok onAxis ∧ lineStore.Addressable linePath onAxis ∧
      ¬onAxis.Ambiguous ∧ ¬lineStore.Shadowed linePath onAxis := by
  have hs : lineStore.Grown := .insert .empty ⟨by decide, nofun, nofun⟩ rfl
  have hstored : lineStore.geometry linePath = .ok onAxis := rfl
  obtain ⟨hall, hgrown⟩ := addressable_iff lineStore
  obtain ⟨-, -, -, hiff⟩ := hall linePath onAxis hstored
  have ha := hgrown hs linePath onAxis hstored
  exact ⟨hs, hstored, ha, hiff.1 ha⟩

/-- The sample geometry with an edge matrix that has the name of the vertex matrix. -/
def twins : EdgeGeometry Float32 :=
  { weighted with edgeData := { weighted.edgeData with name := EdgeGeometry.vertexDataName } }

/-- The path of the array of its edge matrix. -/
def twinWeightsPath : Path := ⟨["Line", "Vertex Data", "Weights"], by decide, by decide⟩

/-- Two insertions hide an array, and so does one of a geometry whose matrices
have the same name. -/
theorem inserts_hide_arrays :
    (∃ s t, empty.insert lineMatrixPath onAxis = .ok s ∧ s.insert linePath onAxis = .ok t ∧
      t.geometry linePath = .ok onAxis ∧ t.array lineIdsPath .i32 = .error (.missingObject lineIdsPath) ∧
      ¬t.Addressable linePath onAxis) ∧
    ∃ s, empty.insert linePath twins = .ok s ∧ s.geometry linePath = .ok twins ∧
      s.array twinWeightsPath .i32 = .error (.missingArray "Vertex Data" "Weights") ∧
      ¬s.Addressable linePath twins := by
  constructor
  · refine ⟨_, _, rfl, rfl, rfl, rfl, fun ha => ?_⟩
    have hfound := ha.array onAxis.vertexData (EdgeGeometry.mem_matrices.2 (.inl rfl)) lineMatrixPath
      (Path.child_eq_ok.2 ⟨rfl, rfl⟩) "Ids" lineIdsPath (Path.child_eq_ok.2 ⟨rfl, rfl⟩) .i32 _ rfl
    cases hfound
  · refine ⟨_, rfl, rfl, rfl, fun ha => ?_⟩
    have hfound := ha.array twins.edgeData (EdgeGeometry.mem_matrices.2 (.inr rfl)) lineMatrixPath
      (Path.child_eq_ok.2 ⟨rfl, rfl⟩) "Weights" twinWeightsPath (Path.child_eq_ok.2 ⟨rfl, rfl⟩) .i32 _ rfl
    cases hfound

end GeometryStore

end Wireframe
