import Wireframe.Mask
import Wireframe.Proofs.Lists
import Mathlib.Data.List.Sort
/-!
# Old and new numbers

`Mask.indices` lists the old positions of the kept elements in ascending
order, so it leads from new numbers to old ones. `Mask.ranks` is its inverse
and `Mask.select` reads a list along it: whatever is compacted through one
mask is compacted the same way, by looking up `indices`.
-/

namespace Wireframe.Mask

variable {α : Type}

/-! ## Old positions -/

theorem mem_indicesFrom (m : Mask) (i j : Nat) :
    j ∈ m.indicesFrom i ↔ i ≤ j ∧ m[j - i]? = some true := by
  induction m generalizing i with
  | nil => simp [indicesFrom]
  | cons b m ih =>
    rcases Nat.lt_trichotomy j i with hj | rfl | hj
    · cases b <;> simp [indicesFrom, ih] <;> omega
    · cases b <;> simp [indicesFrom, ih]
    · obtain ⟨k, rfl⟩ : ∃ k, j = i + 1 + k := ⟨j - (i + 1), by omega⟩
      have hk : i + 1 + k - i = k + 1 := by omega
      have hne : i + 1 + k ≠ i := by omega
      have hle : i ≤ i + 1 + k := by omega
      cases b <;> simp [indicesFrom, ih, hk, hne, hle]

theorem mem_indices {m : Mask} {i : Nat} : i ∈ m.indices ↔ m[i]? = some true := by
  simp [indices, mem_indicesFrom]

theorem indicesFrom_sorted (m : Mask) (i : Nat) : (m.indicesFrom i).Pairwise (· < ·) := by
  induction m generalizing i with
  | nil => exact .nil
  | cons b m ih =>
    cases b
    · exact ih (i + 1)
    · refine List.pairwise_cons.2 ⟨fun j hj => ?_, ih (i + 1)⟩
      exact ((mem_indicesFrom m (i + 1) j).1 hj).1

theorem indices_sorted (m : Mask) : m.indices.Pairwise (· < ·) := indicesFrom_sorted m 0

theorem length_indicesFrom (m : Mask) (i : Nat) : (m.indicesFrom i).length = m.kept := by
  induction m generalizing i with
  | nil => rfl
  | cons b m ih => cases b <;> simpa [indicesFrom, kept] using ih (i + 1)

theorem length_indices (m : Mask) : m.indices.length = m.kept := length_indicesFrom m 0

/-- A new number is at most the old one. -/
theorem le_of_indicesFrom {m : Mask} {i r j : Nat} (h : (m.indicesFrom i)[r]? = some j) :
    i + r ≤ j := by
  induction m generalizing i r with
  | nil => simp [indicesFrom] at h
  | cons b m ih =>
    cases b
    · have := ih h; omega
    · cases r with
      | zero => simp [indicesFrom] at h; omega
      | succ r =>
        have := ih (r := r) (by simpa [indicesFrom] using h)
        omega

theorem le_of_indices {m : Mask} {r j : Nat} (h : m.indices[r]? = some j) : r ≤ j := by
  have := le_of_indicesFrom h
  omega

/-! ## New numbers -/

theorem le_of_ranksFrom {m : Mask} {n i r : Nat} (h : (m.ranksFrom n)[i]? = some (some r)) :
    n ≤ r := by
  induction m generalizing n i with
  | nil => simp [ranksFrom] at h
  | cons b m ih =>
    cases i with
    | zero => cases b <;> simp [ranksFrom] at h; omega
    | succ i =>
      cases b
      · exact ih (by simpa [ranksFrom] using h)
      · have := ih (by simpa [ranksFrom] using h)
        omega

theorem ranksFrom_eq_some (m : Mask) (n k i d : Nat) :
    (m.ranksFrom n)[i]? = some (some (n + d)) ↔ (m.indicesFrom k)[d]? = some (k + i) := by
  induction m generalizing n k i d with
  | nil => simp [ranksFrom, indicesFrom]
  | cons b m ih =>
    cases b with
    | false =>
      cases i with
      | zero =>
        have hno : (indicesFrom (k + 1) m)[d]? ≠ some k := fun h => by
          have := le_of_indicesFrom h
          omega
        simp [ranksFrom, indicesFrom, hno]
      | succ i =>
        simp only [ranksFrom, indicesFrom, List.getElem?_cons_succ]
        rw [ih n (k + 1) i d, show k + 1 + i = k + (i + 1) by omega]
    | true =>
      -- the two sides start over here, one with the next rank and one with the next position
      rcases i with _ | i <;> rcases d with _ | d
      · simp [ranksFrom, indicesFrom]
      · have hno : (indicesFrom (k + 1) m)[d]? ≠ some k := fun h => by
          have := le_of_indicesFrom h
          omega
        simp [ranksFrom, indicesFrom, hno]
      · have hno : (ranksFrom (n + 1) m)[i]? ≠ some (some n) := fun h => by
          have := le_of_ranksFrom h
          omega
        simp [ranksFrom, indicesFrom, hno]
      · simp only [ranksFrom, indicesFrom, List.getElem?_cons_succ]
        rw [show n + (d + 1) = n + 1 + d by omega, ih (n + 1) (k + 1) i d,
          show k + 1 + i = k + (i + 1) by omega]

/-- `ranks` and `indices` are inverse to one another. -/
theorem ranks_eq_some {m : Mask} {i r : Nat} :
    m.ranks[i]? = some (some r) ↔ m.indices[r]? = some i := by
  have h := ranksFrom_eq_some m 0 0 i r
  rwa [Nat.zero_add, Nat.zero_add] at h

/-- Every kept element has a new number. -/
theorem ranks_of_kept {m : Mask} {i : Nat} (h : m[i]? = some true) :
    ∃ r, m.ranks[i]? = some (some r) := by
  obtain ⟨r, hr⟩ := List.mem_iff_getElem?.1 (mem_indices.2 h)
  exact ⟨r, ranks_eq_some.2 hr⟩

/-! ## Kept elements of a list -/

theorem select_drop (m : Mask) (i : Nat) (l : List α) (h : i + m.length ≤ l.length) :
    (m.select (l.drop i)).map some = (m.indicesFrom i).map (l[·]?) := by
  induction m generalizing i with
  | nil => cases l.drop i <;> rfl
  | cons b m ih =>
    simp only [List.length_cons] at h
    have hi : i < l.length := by omega
    rw [List.drop_eq_getElem_cons hi]
    have hrest := ih (i + 1) (by omega)
    cases b
    · exact hrest
    · simp only [select, indicesFrom, List.map_cons, hrest, List.getElem?_eq_getElem hi]

/-- The kept elements are those at the kept positions. -/
theorem map_some_select {m : Mask} {l : List α} (h : m.length ≤ l.length) :
    (m.select l).map some = m.indices.map (l[·]?) := by
  simpa [indices] using select_drop m 0 l (by omega)

theorem length_select {m : Mask} {l : List α} (h : m.length ≤ l.length) :
    (m.select l).length = m.kept := by
  rw [← length_indices, ← List.length_map (f := some), map_some_select h, List.length_map]

theorem getElem?_select {m : Mask} {l : List α} (h : m.length ≤ l.length) (r : Nat) :
    (m.select l)[r]? = m.indices[r]?.bind (l[·]?) :=
  getElem?_of_map_some (map_some_select h) r

theorem select_sublist (m : Mask) (l : List α) : (m.select l).Sublist l := by
  induction m generalizing l with
  | nil => cases l <;> exact List.nil_sublist _
  | cons b m ih =>
    cases l with
    | nil => cases b <;> exact .slnil
    | cons x l =>
      cases b
      · exact (ih l).cons x
      · exact (ih l).cons_cons x

/-- A mask that judges each element by itself selects as `filter` does. -/
theorem select_of_map (p : α → Bool) (l : List α) : select (l.map p) l = l.filter p := by
  induction l with
  | nil => rfl
  | cons x l ih =>
    cases h : p x <;> simp [select, h, ih]

end Wireframe.Mask
