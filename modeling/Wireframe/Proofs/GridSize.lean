import Wireframe.Cell.LabelGrid
/-!
# Which buffers make a grid

A buffer makes a grid if it has one label for every point and no product on
the way from the first extent to the last leaves 64 bits. The second condition
follows from the first where the last extent is not zero, since the product of
the first two is then at most the number of labels.

A grid whose last extent is zero has no points, but it is refused with its
empty buffer if the product of the other two is no count. With a zero in
another place it is accepted, so there the order of the extents matters.
-/

namespace Wireframe

namespace Dims

/-- The products from the left are counts. -/
structure Counted (d : Dims) : Prop where
  row : d.nx ≤ maxCount
  plane : d.nx * d.ny ≤ maxCount
  volume : d.volume ≤ maxCount

theorem count?_eq_some {d : Dims} {n : Nat} : d.count? = some n ↔ d.Counted ∧ d.volume = n := by
  simp only [count?, toList, List.foldlM_cons, List.foldlM_nil, Option.bind_eq_bind, Option.bind_eq_some_iff,
    Option.pure_def, Option.some.injEq, mulCount?_eq_some, Nat.one_mul]
  constructor
  · rintro ⟨_, ⟨hx, rfl⟩, _, ⟨hxy, rfl⟩, _, ⟨hxyz, rfl⟩, rfl⟩
    exact ⟨⟨hx, hxy, hxyz⟩, rfl⟩
  · rintro ⟨⟨hx, hxy, hxyz⟩, rfl⟩
    exact ⟨_, ⟨hx, rfl⟩, _, ⟨hxy, rfl⟩, _, ⟨hxyz, rfl⟩, rfl⟩

/-- With a last extent that is not zero it is enough to count the points. -/
theorem counted_iff {d : Dims} (hx : d.nx ≤ maxCount) :
    d.Counted ↔ d.volume ≤ maxCount ∧ (d.nz = 0 → d.nx * d.ny ≤ maxCount) := by
  refine ⟨fun h => ⟨h.volume, fun _ => h.plane⟩, fun ⟨hv, hz⟩ => ⟨hx, ?_, hv⟩⟩
  by_cases h0 : d.nz = 0
  · exact hz h0
  · exact Nat.le_trans (Nat.le_mul_of_pos_right _ (Nat.pos_of_ne_zero h0)) hv

end Dims

namespace LabelGrid

theorem ofLabels_eq_ok {dims : Dims} {labels : Array Int32} {g : LabelGrid} :
    ofLabels dims labels = .ok g ↔ dims.Counted ∧ g.dims = dims ∧ g.labels = labels := by
  unfold ofLabels
  split
  next n hn =>
    obtain ⟨hc, rfl⟩ := Dims.count?_eq_some.1 hn
    split
    next hs =>
      rw [Except.ok.injEq]
      constructor
      · rintro rfl
        exact ⟨hc, rfl, rfl⟩
      · rintro ⟨-, rfl, rfl⟩
        rfl
    next hs =>
      simp only [reduceCtorEq, false_iff]
      rintro ⟨-, rfl, rfl⟩
      exact hs g.size_labels
  next hn =>
    simp only [reduceCtorEq, false_iff]
    rintro ⟨hc, -⟩
    rw [Dims.count?_eq_some.2 ⟨hc, rfl⟩] at hn
    cases hn

theorem exists_ofLabels_iff {dims : Dims} {labels : Array Int32} :
    (∃ g, ofLabels dims labels = .ok g) ↔ dims.Counted ∧ labels.size = dims.volume := by
  constructor
  · rintro ⟨g, hg⟩
    obtain ⟨hc, rfl, rfl⟩ := ofLabels_eq_ok.1 hg
    exact ⟨hc, g.size_labels⟩
  · rintro ⟨hc, hs⟩
    exact ⟨⟨dims, labels, hs⟩, ofLabels_eq_ok.2 ⟨hc, rfl, rfl⟩⟩

/-- A buffer is accepted exactly when it has the right size, unless the last
extent is zero and the product of the other two is no count. What is refused
is told the count, or the greatest one where there is none. -/
theorem ofLabels_accepts_iff (nx ny nz : UInt64) (labels : Array Int32) :
    let dims : Dims := ⟨nx.toNat, ny.toNat, nz.toNat⟩
    ((∃ g, ofLabels dims labels = .ok g) ↔
        labels.size = dims.volume ∧ labels.size ≤ maxCount ∧
          (nz = 0 → nx.toNat * ny.toNat ≤ maxCount)) ∧
      ∀ e, ofLabels dims labels = .error e →
        e = .labelCountMismatch dims (dims.count?.getD maxCount) labels.size := by
  intro dims
  have hx : dims.nx ≤ maxCount := Nat.le_sub_one_of_lt nx.toNat_lt_size
  have hz : dims.nz = 0 ↔ nz = 0 := UInt64.toNat_inj (b := 0)
  constructor
  · rw [exists_ofLabels_iff, Dims.counted_iff hx, hz]
    constructor
    · rintro ⟨⟨hv, hplane⟩, hs⟩
      exact ⟨hs, hs ▸ hv, hplane⟩
    · rintro ⟨hs, hv, hplane⟩
      exact ⟨⟨hs ▸ hv, hplane⟩, hs⟩
  · intro e he
    unfold ofLabels at he
    split at he
    next n hn =>
      rw [hn, Option.getD_some]
      split at he <;> cases he
      rfl
    next hn =>
      rw [hn, Option.getD_none]
      cases he
      rfl

/-- A grid without points is refused with its empty buffer for the order of
its extents, two of which are the 32nd power of two. -/
theorem ofLabels_refuses_empty :
    ofLabels ⟨4294967296, 4294967296, 0⟩ #[] =
        .error (.labelCountMismatch ⟨4294967296, 4294967296, 0⟩ maxCount 0) ∧
      (#[] : Array Int32).size = Dims.volume ⟨4294967296, 4294967296, 0⟩ ∧
      ∃ g, ofLabels ⟨0, 4294967296, 4294967296⟩ #[] = .ok g := by
  refine ⟨by rfl, by rfl, exists_ofLabels_iff.2 ⟨?_, by rfl⟩⟩
  exact ⟨by decide, by decide, by decide⟩

end LabelGrid

end Wireframe
