import Wireframe.SortedMap
import Mathlib.Data.List.Sort
import Mathlib.Data.List.Nodup
/-!
# Looking up in sorted maps

A sorted map is determined by what `find?` answers, and every operation is
described by its answers: writing changes one of them, changing values maps
all of them. Keys stay in order, so maps with the same keys list them alike.
-/

namespace Wireframe.SortedMap

variable {K V W : Type} {cmp : K → K → Ordering}

/-! ## Keys -/

theorem keys_sorted (m : SortedMap K V cmp) : m.keys.Pairwise fun a b => cmp a b = .lt :=
  List.pairwise_map.2 m.sorted

@[simp]
theorem keys_mapEntries (f : K → V → W) (m : SortedMap K V cmp) : (m.mapEntries f).keys = m.keys := by
  simp [keys, mapEntries]

@[simp]
theorem keys_mapValues (f : V → W) (m : SortedMap K V cmp) : (m.mapValues f).keys = m.keys :=
  keys_mapEntries _ m

@[simp]
theorem keys_modify (m : SortedMap K V cmp) (k : K) (f : V → V) : (m.modify k f).keys = m.keys :=
  keys_mapEntries _ m

@[simp]
theorem size_modify (m : SortedMap K V cmp) (k : K) (f : V → V) : (m.modify k f).size = m.size :=
  List.length_map _

section Order
variable [Std.TransCmp cmp]

instance : Std.Asymm fun a b : K => cmp a b = .lt where
  asymm a b hab hba := by
    rw [Std.OrientedCmp.gt_of_lt hab] at hba
    cases hba

instance : Std.Asymm fun a b : K × V => cmp a.1 b.1 = .lt where
  asymm a b hab hba := by
    rw [Std.OrientedCmp.gt_of_lt hab] at hba
    cases hba

theorem keys_nodup (m : SortedMap K V cmp) : m.keys.Nodup := m.keys_sorted.nodup

/-- Two maps with the same keys list them alike. -/
theorem keys_eq_iff {m : SortedMap K V cmp} {n : SortedMap K W cmp} :
    m.keys = n.keys ↔ ∀ k, k ∈ m.keys ↔ k ∈ n.keys := by
  constructor
  · intro h k
    rw [h]
  · exact m.keys_sorted.eq_of_mem_iff n.keys_sorted

end Order

section Lookup
variable [Std.TransCmp cmp] [Std.LawfulEqCmp cmp]

/-! ## Entries -/

theorem find?_eq_some {m : SortedMap K V cmp} {k : K} {v : V} :
    m.find? k = some v ↔ (k, v) ∈ m.entries := by
  unfold find?
  constructor
  · intro h
    obtain ⟨e, he, rfl⟩ := Option.map_eq_some_iff.1 h
    have hk : cmp k e.1 = .eq := by simpa using List.find?_some he
    rw [Std.LawfulEqCmp.eq_of_compare hk]
    exact List.mem_of_find?_eq_some he
  · intro h
    cases hf : m.entries.find? fun e => cmp k e.1 == .eq with
    | none =>
      have := List.find?_eq_none.1 hf _ h
      simp [Std.ReflCmp.compare_self] at this
    | some e =>
      have hk : cmp k e.1 = .eq := by simpa using List.find?_some hf
      have he := List.inj_on_of_nodup_map m.keys_nodup (List.mem_of_find?_eq_some hf) h
        (Std.LawfulEqCmp.eq_of_compare hk).symm
      rw [he, Option.map_some]

theorem mem_keys {m : SortedMap K V cmp} {k : K} : k ∈ m.keys ↔ ∃ v, m.find? k = some v := by
  unfold keys
  rw [List.mem_map]
  constructor
  · rintro ⟨e, he, rfl⟩
    exact ⟨e.2, find?_eq_some.2 he⟩
  · rintro ⟨v, hv⟩
    exact ⟨(k, v), find?_eq_some.1 hv, rfl⟩

theorem contains_iff {m : SortedMap K V cmp} {k : K} : m.contains k = true ↔ k ∈ m.keys := by
  rw [contains, Option.isSome_iff_exists, mem_keys]

theorem find?_eq_none {m : SortedMap K V cmp} {k : K} : m.find? k = none ↔ k ∉ m.keys := by
  rw [mem_keys, Option.eq_none_iff_forall_ne_some, not_exists]

/-- Two maps that answer alike are the same. -/
theorem ext_find? {m n : SortedMap K V cmp} (h : ∀ k, m.find? k = n.find? k) : m = n := by
  apply SortedMap.ext
  refine m.sorted.eq_of_mem_iff n.sorted fun e => ?_
  rw [← find?_eq_some (k := e.1), h, find?_eq_some]

/-! ## Writing -/

omit [Std.TransCmp cmp] [Std.LawfulEqCmp cmp] in
theorem mem_insertEntry_self (k : K) (v : V) (l : List (K × V)) :
    (k, v) ∈ insertEntry cmp k v l := by
  induction l with
  | nil => simp [insertEntry]
  | cons e l ih =>
    rw [insertEntry]
    split <;> simp [ih]

omit [Std.TransCmp cmp] in
theorem mem_insertEntry_of_ne {k : K} {v : V} {e : K × V} {l : List (K × V)} (h : e ∈ l)
    (hk : e.1 ≠ k) : e ∈ insertEntry cmp k v l := by
  induction l with
  | nil => cases h
  | cons f l ih =>
    rw [insertEntry]
    split
    next => exact List.mem_cons_of_mem _ h
    next hc =>
      rcases List.mem_cons.1 h with rfl | h
      · exact absurd (Std.LawfulEqCmp.eq_of_compare hc).symm hk
      · exact List.mem_cons_of_mem _ h
    next =>
      rcases List.mem_cons.1 h with rfl | h
      · exact List.mem_cons_self
      · exact List.mem_cons_of_mem _ (ih h)

@[simp]
theorem find?_insert_self (m : SortedMap K V cmp) (k : K) (v : V) :
    (m.insert k v).find? k = some v :=
  find?_eq_some.2 (mem_insertEntry_self k v m.entries)

theorem find?_insert_of_ne (m : SortedMap K V cmp) {k k' : K} (v : V) (h : k' ≠ k) :
    (m.insert k v).find? k' = m.find? k' := by
  apply Option.ext
  intro w
  rw [find?_eq_some, find?_eq_some]
  constructor
  · intro hm
    rcases mem_insertEntry hm with he | hm
    · exact absurd (congrArg Prod.fst he) h
    · exact hm
  · intro hm
    exact mem_insertEntry_of_ne hm h

theorem find?_erase_eq_some {m : SortedMap K V cmp} {k k' : K} {v : V} :
    (m.erase k).find? k' = some v ↔ k' ≠ k ∧ m.find? k' = some v := by
  rw [find?_eq_some, find?_eq_some, erase, List.mem_filter, and_comm]
  have hk : cmp k k' = .eq ↔ k' = k :=
    ⟨fun h => (Std.LawfulEqCmp.eq_of_compare h).symm, fun h => h ▸ Std.ReflCmp.compare_self⟩
  simp [hk]

omit [Std.TransCmp cmp] in
theorem length_insertEntry {k : K} {v : V} {l : List (K × V)} (h : ∀ e ∈ l, e.1 ≠ k) :
    (insertEntry cmp k v l).length = l.length + 1 := by
  induction l with
  | nil => rfl
  | cons e l ih =>
    rw [insertEntry]
    split
    next => rfl
    next hc => exact absurd (Std.LawfulEqCmp.eq_of_compare hc).symm (h e List.mem_cons_self)
    next => simp [ih fun f hf => h f (List.mem_cons_of_mem _ hf)]

/-- A new key adds one entry. -/
theorem size_insert {m : SortedMap K V cmp} {k : K} (v : V) (h : m.contains k = false) :
    (m.insert k v).size = m.size + 1 := by
  refine length_insertEntry fun e he hk => ?_
  have hm : k ∈ m.keys := List.mem_map.2 ⟨e, he, hk⟩
  rw [contains_iff.2 hm] at h
  cases h

theorem mem_keys_insert {m : SortedMap K V cmp} {k k' : K} {v : V} :
    k' ∈ (m.insert k v).keys ↔ k' = k ∨ k' ∈ m.keys := by
  by_cases h : k' = k
  · subst h
    simp [mem_keys]
  · simp [mem_keys, find?_insert_of_ne m v h, h]

/-! ## Changing values -/

theorem find?_mapEntries (f : K → V → W) (m : SortedMap K V cmp) (k : K) :
    (m.mapEntries f).find? k = (m.find? k).map (f k) := by
  cases h : m.find? k with
  | none =>
    rw [Option.map_none, find?_eq_none, keys_mapEntries, ← find?_eq_none]
    exact h
  | some v =>
    rw [find?_eq_some] at h
    exact find?_eq_some.2 (List.mem_map_of_mem (f := fun e => (e.1, f e.1 e.2)) h)

theorem find?_mapValues (f : V → W) (m : SortedMap K V cmp) (k : K) :
    (m.mapValues f).find? k = (m.find? k).map f :=
  find?_mapEntries _ m k

theorem find?_modify_self (m : SortedMap K V cmp) (k : K) (f : V → V) :
    (m.modify k f).find? k = (m.find? k).map f := by
  rw [modify, find?_mapEntries]
  simp [Std.ReflCmp.compare_self]

theorem find?_modify_of_ne (m : SortedMap K V cmp) {k k' : K} (f : V → V) (h : k' ≠ k) :
    (m.modify k f).find? k' = m.find? k' := by
  have hc : cmp k k' ≠ .eq := fun hc => h (Std.LawfulEqCmp.eq_of_compare hc).symm
  rw [modify, find?_mapEntries]
  simp [hc]

end Lookup

end Wireframe.SortedMap
