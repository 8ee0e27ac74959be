import Wireframe.GeometryStore
import Wireframe.Proofs.SortedMap
/-!
# Writing to the store

A write names one path. Afterwards the geometry is found there and every other
path holds what it held before; an insertion adds one geometry, a replacement
none. A removal only takes away.
-/

namespace Wireframe.GeometryStore

variable {κ : Type} {s t : GeometryStore κ} {p : Path} {g : EdgeGeometry κ}

theorem geometry_eq_ok : s.geometry p = .ok g ↔ s.geometries.find? p = some g := by
  unfold geometry
  split <;> simp_all

theorem contains_of_geometry (h : s.geometry p = .ok g) : s.contains p = true := by
  rw [contains, SortedMap.contains, geometry_eq_ok.1 h]
  rfl

/-- `t` is `s` but for the geometry under `p`, which is `g`. -/
structure Placed (s t : GeometryStore κ) (p : Path) (g : EdgeGeometry κ) : Prop where
  here : t.geometry p = .ok g
  elsewhere : ∀ q, q ≠ p → t.geometry q = s.geometry q

theorem Placed.stored (h : s.Placed t p g) {q : Path} {k : EdgeGeometry κ} (hk : t.geometry q = .ok k) :
    (q = p ∧ k = g) ∨ s.geometry q = .ok k := by
  by_cases hq : q = p
  · subst hq
    exact .inl ⟨rfl, Except.ok.inj (hk.symm.trans h.here)⟩
  · exact .inr ((h.elsewhere q hq).symm.trans hk)

/-- An insertion finds the path free and writes there only. -/
theorem insert_spec (g : EdgeGeometry κ) (h : s.contains p = false) :
    ∃ t, s.insert p g = .ok t ∧ Placed s t p g ∧ t.size = s.size + 1 := by
  refine ⟨_, if_neg (by simp [h]), ⟨?_, fun q hq => ?_⟩, SortedMap.size_insert g h⟩
  · exact geometry_eq_ok.2 (SortedMap.find?_insert_self _ _ _)
  · simp only [geometry, SortedMap.find?_insert_of_ne _ _ hq]

/-- A replacement finds the path taken and writes there only. -/
theorem replace_spec (g : EdgeGeometry κ) (h : s.contains p = true) :
    ∃ t, s.replace p g = .ok t ∧ Placed s t p g ∧ t.size = s.size := by
  obtain ⟨old, hold⟩ := Option.isSome_iff_exists.1 h
  refine ⟨_, if_pos h, ⟨?_, fun q hq => ?_⟩, SortedMap.size_modify _ _ _⟩
  · rw [geometry_eq_ok, SortedMap.find?_modify_self, hold, Option.map_some]
  · simp only [geometry, SortedMap.find?_modify_of_ne _ _ hq]

/-! ## Writes that went well -/

theorem free_of_insert (h : s.insert p g = .ok t) : s.contains p = false := by
  unfold insert at h
  split at h
  next => cases h
  next hc => simpa using hc

theorem placed_of_insert (h : s.insert p g = .ok t) : s.Placed t p g := by
  obtain ⟨t', ht', hplaced, -⟩ := insert_spec g (free_of_insert h)
  exact Except.ok.inj (ht'.symm.trans h) ▸ hplaced

theorem taken_of_replace (h : s.replace p g = .ok t) : s.contains p = true := by
  unfold replace at h
  split at h
  next hc => exact hc
  next => cases h

theorem placed_of_replace (h : s.replace p g = .ok t) : s.Placed t p g := by
  obtain ⟨t', ht', hplaced, -⟩ := replace_spec g (taken_of_replace h)
  exact Except.ok.inj (ht'.symm.trans h) ▸ hplaced

/-- A removal adds nothing. -/
theorem geometry_of_erase (h : s.erase p = .ok t) {q : Path} {k : EdgeGeometry κ} (hk : t.geometry q = .ok k) :
    s.geometry q = .ok k := by
  unfold erase at h
  split at h
  next =>
    cases h
    exact geometry_eq_ok.2 (SortedMap.find?_erase_eq_some.1 (geometry_eq_ok.1 hk)).2
  next => cases h

end Wireframe.GeometryStore
