/-!
# Maps kept in key order

A map is the list of its entries, the keys strictly increasing under a given
comparison. Two maps with the same entries are therefore equal, and listing a
map needs no sorting. Keys that compare equal are the same key.
-/

namespace Wireframe

/-- Entries with strictly increasing keys. -/
@[ext]
structure SortedMap (K V : Type) (cmp : K → K → Ordering) where
  entries : List (K × V)
  sorted : entries.Pairwise fun a b => cmp a.1 b.1 = .lt

namespace SortedMap

variable {K V : Type} {cmp : K → K → Ordering}

/-- The map without entries. -/
def empty : SortedMap K V cmp := ⟨[], .nil⟩

instance : Inhabited (SortedMap K V cmp) := ⟨empty⟩

/-- The keys, in order. -/
def keys (m : SortedMap K V cmp) : List K := m.entries.map (·.1)

/-- The number of entries. -/
def size (m : SortedMap K V cmp) : Nat := m.entries.length

/-- Whether there is no entry. -/
def isEmpty (m : SortedMap K V cmp) : Bool := m.entries.isEmpty

/-- The value stored under a key. -/
def find? (m : SortedMap K V cmp) (k : K) : Option V :=
  (m.entries.find? fun e => cmp k e.1 == .eq).map (·.2)

/-- Whether a key has an entry. -/
def contains (m : SortedMap K V cmp) (k : K) : Bool := (m.find? k).isSome

/-! ## Writing -/

/-- Puts an entry into its place, over an entry with the same key. -/
def insertEntry (cmp : K → K → Ordering) (k : K) (v : V) : List (K × V) → List (K × V)
  | [] => [(k, v)]
  | e :: rest =>
    match cmp k e.1 with
    | .lt => (k, v) :: e :: rest
    | .eq => (k, v) :: rest
    | .gt => e :: insertEntry cmp k v rest

theorem mem_insertEntry {k : K} {v : V} {a : K × V} {l : List (K × V)}
    (h : a ∈ insertEntry cmp k v l) : a = (k, v) ∨ a ∈ l := by
  induction l with
  | nil => simpa [insertEntry] using h
  | cons e rest ih =>
    rw [insertEntry] at h
    split at h
    · simpa using h
    · rcases List.mem_cons.1 h with h | h <;> simp [h]
    · rcases List.mem_cons.1 h with h | h
      · simp [h]
      · rcases ih h with h | h <;> simp [h]

theorem sorted_insertEntry [Std.TransCmp cmp] [Std.LawfulEqCmp cmp] {k : K} {v : V}
    {l : List (K × V)} (h : l.Pairwise fun a b => cmp a.1 b.1 = .lt) :
    (insertEntry cmp k v l).Pairwise fun a b => cmp a.1 b.1 = .lt := by
  induction l with
  | nil => simp [insertEntry]
  | cons e rest ih =>
    obtain ⟨hd, tl⟩ := List.pairwise_cons.1 h
    rw [insertEntry]
    split
    next hk =>
      refine List.pairwise_cons.2 ⟨fun a ha => ?_, h⟩
      rcases List.mem_cons.1 ha with rfl | ha
      · exact hk
      · exact Std.TransCmp.lt_trans hk (hd a ha)
    next hk =>
      refine List.pairwise_cons.2 ⟨fun a ha => ?_, tl⟩
      rw [Std.LawfulEqCmp.eq_of_compare hk]
      exact hd a ha
    next hk =>
      refine List.pairwise_cons.2 ⟨fun a ha => ?_, ih tl⟩
      rcases mem_insertEntry ha with rfl | ha
      · exact Std.OrientedCmp.lt_of_gt hk
      · exact hd a ha

/-- Stores a value, in place of the one already under its key. -/
def insert [Std.TransCmp cmp] [Std.LawfulEqCmp cmp] (m : SortedMap K V cmp) (k : K) (v : V) :
    SortedMap K V cmp :=
  ⟨insertEntry cmp k v m.entries, sorted_insertEntry m.sorted⟩

/-- Drops the entry of a key. -/
def erase (m : SortedMap K V cmp) (k : K) : SortedMap K V cmp :=
  ⟨m.entries.filter fun e => cmp k e.1 != .eq, m.sorted.filter _⟩

/-! ## Changing values -/

/-- Changes the values, each knowing its key; the keys stay. -/
def mapEntries {W : Type} (f : K → V → W) (m : SortedMap K V cmp) : SortedMap K W cmp :=
  ⟨m.entries.map fun e => (e.1, f e.1 e.2), m.sorted.map _ fun _ _ h => h⟩

/-- Changes every value. -/
def mapValues {W : Type} (f : V → W) (m : SortedMap K V cmp) : SortedMap K W cmp :=
  m.mapEntries fun _ v => f v

/-- Changes the value under a key, if there is one. -/
def modify (m : SortedMap K V cmp) (k : K) (f : V → V) : SortedMap K V cmp :=
  m.mapEntries fun k' v => if cmp k k' == .eq then f v else v

end SortedMap

end Wireframe
