import Wireframe.AttributeMatrix
import Wireframe.Proofs.SortedMap
import Wireframe.Proofs.TupleArray
/-!
# Layouts and sizes of matrices

The layout of a matrix is what its lookups say of types and widths, and
resizing keeps it. A matrix is in step when every array has as many tuples as
the matrix has elements, which is what `validate` accepts.

A matrix is resized if it has room. Without room there is a first array that
cannot be resized, and those before it have been: `Changed` says so.
-/

namespace Wireframe.AttributeMatrix

variable {κ : Type} {m n : AttributeMatrix κ}

/-! ## Layouts -/

/-- The element type and the width of an array. -/
def shape (a : TypedArray κ) : ScalarType × Nat := (a.type, a.width)

theorem layout_eq_entries (m : AttributeMatrix κ) : m.layout = (m.arrays.mapValues shape).entries := rfl

/-- Two matrices have the same layout when they hold arrays of the same shape
under the same names. -/
theorem layout_eq_iff : m.layout = n.layout ↔
    ∀ k, (m.arrays.find? k).map shape = (n.arrays.find? k).map shape := by
  rw [layout_eq_entries, layout_eq_entries]
  constructor
  · intro h k
    rw [← SortedMap.find?_mapValues, SortedMap.ext h, SortedMap.find?_mapValues]
  · intro h
    have he : m.arrays.mapValues shape = n.arrays.mapValues shape := by
      apply SortedMap.ext_find?
      intro k
      rw [SortedMap.find?_mapValues, SortedMap.find?_mapValues, h k]
    rw [he]

theorem names_of_layout (h : m.layout = n.layout) : m.names = n.names := by
  have hk := congrArg (List.map Prod.fst) h
  rw [layout, layout, List.map_map, List.map_map] at hk
  exact hk

/-! ## Arrays in step -/

/-- Every array has a given number of tuples. -/
def InStep (size : Nat) (m : AttributeMatrix κ) : Prop :=
  ∀ k a, m.arrays.find? k = some a → a.size = size

theorem validate_eq_ok : m.validate = .ok () ↔ m.InStep m.size := by
  unfold validate InStep
  split
  next e he =>
    simp only [reduceCtorEq, false_iff]
    intro h
    have hs := h e.1 e.2 (SortedMap.find?_eq_some.2 (List.mem_of_find?_eq_some he))
    have := List.find?_some he
    simp [hs] at this
  next hnone =>
    simp only [true_iff]
    intro k a ha
    have := List.find?_eq_none.1 hnone _ (SortedMap.find?_eq_some.1 ha)
    simpa using this

theorem inStep_empty (name : String) (size : Nat) : (empty name size : AttributeMatrix κ).InStep size := by
  intro k a ha
  cases ha

theorem InStep.insert {size : Nat} (h : m.InStep size) (name : String) {a : TypedArray κ} (ha : a.size = size) :
    ({ m with arrays := m.arrays.insert name a } : AttributeMatrix κ).InStep size := by
  intro k b hb
  by_cases hk : k = name
  · subst hk
    rw [SortedMap.find?_insert_self] at hb
    cases hb
    exact ha
  · rw [SortedMap.find?_insert_of_ne _ _ hk] at hb
    exact h k b hb

theorem InStep.erase {size : Nat} (h : m.InStep size) (name : String) : (m.erase name).InStep size :=
  fun k a ha => h k a (SortedMap.find?_erase_eq_some.1 ha).2

/-- Changing every array in place keeps it in step if no size changes. -/
theorem InStep.mapEntries {size : Nat} (h : m.InStep size) {change : String → TypedArray κ → TypedArray κ}
    (hc : ∀ k a, m.arrays.find? k = some a → (change k a).size = a.size) :
    ({ m with arrays := m.arrays.mapEntries change } : AttributeMatrix κ).InStep size := by
  intro k b hb
  rw [SortedMap.find?_mapEntries] at hb
  obtain ⟨a, ha, rfl⟩ := Option.map_eq_some_iff.1 hb
  exact (hc k a ha).trans (h k a ha)

theorem InStep.put {size : Nat} (h : m.InStep size) (name : String) {a : TypedArray κ} (ha : a.size = size) :
    (m.put name a).InStep size := by
  refine h.mapEntries fun k b hb => ?_
  split
  · exact ha.trans (h k b hb).symm
  · rfl

/-- Arrays that are all brought to one size are in step, whatever they were before. -/
theorem inStep_of_map {size : Nat} {f : TypedArray κ → TypedArray κ} (hf : ∀ a, (f a).size = size)
    (h : ∀ k, n.arrays.find? k = (m.arrays.find? k).map f) : n.InStep size := by
  intro k b hb
  rw [h] at hb
  obtain ⟨a, -, rfl⟩ := Option.map_eq_some_iff.1 hb
  exact hf a

/-! ## Putting arrays into their places -/

theorem find?_put_self (m : AttributeMatrix κ) {name : String} {b : TypedArray κ} (a : TypedArray κ)
    (h : m.arrays.find? name = some b) : (m.put name a).arrays.find? name = some a := by
  rw [put, SortedMap.find?_modify_self, h, Option.map_some]

theorem find?_put_of_ne (m : AttributeMatrix κ) {name n : String} (a : TypedArray κ) (h : n ≠ name) :
    (m.put name a).arrays.find? n = m.arrays.find? n :=
  SortedMap.find?_modify_of_ne _ _ h

theorem put_self {name : String} {a : TypedArray κ} (h : m.arrays.find? name = some a) :
    m.put name a = m := by
  refine AttributeMatrix.ext rfl rfl (SortedMap.ext_find? fun k => ?_)
  by_cases hk : k = name
  · subst hk
    rw [find?_put_self m a h, h]
  · exact find?_put_of_ne m a hk

/-! ## Resizing -/

section Resize
variable [Coordinate κ]

theorem find?_resized (m : AttributeMatrix κ) (size : Nat) (k : String) :
    (m.resized size).arrays.find? k = (m.arrays.find? k).map fun a => a.resized size :=
  SortedMap.find?_mapValues _ _ k

@[simp]
theorem names_resized (m : AttributeMatrix κ) (size : Nat) : (m.resized size).names = m.names :=
  SortedMap.keys_mapValues _ _

theorem size_resized (a : TypedArray κ) (size : Nat) : (a.resized size).size = size :=
  TupleArray.size_resized _ _ _

theorem inStep_resized (m : AttributeMatrix κ) (size : Nat) : (m.resized size).InStep size :=
  inStep_of_map (fun a => size_resized a size) (find?_resized m size)

theorem layout_resized (m : AttributeMatrix κ) (size : Nat) : (m.resized size).layout = m.layout := by
  rw [layout_eq_iff]
  intro k
  rw [find?_resized, Option.map_map]
  rfl

theorem size_blank (a : TypedArray κ) (size : Nat) : (a.blank size).size = size :=
  TupleArray.size_blank _ _ _

theorem find?_blank (m : AttributeMatrix κ) (size : Nat) (k : String) :
    (m.blank size).arrays.find? k = (m.arrays.find? k).map fun a => a.blank size :=
  SortedMap.find?_mapValues _ _ k

theorem inStep_blank (m : AttributeMatrix κ) (size : Nat) : (m.blank size).InStep size :=
  inStep_of_map (fun a => size_blank a size) (find?_blank m size)

theorem layout_blank (m : AttributeMatrix κ) (size : Nat) : (m.blank size).layout = m.layout := by
  rw [layout_eq_iff]
  intro k
  rw [find?_blank, Option.map_map]
  rfl

end Resize

/-! ## Room -/

theorem hasRoom_iff {size : Nat} :
    m.HasRoom size ↔ ∀ k a, m.arrays.find? k = some a → size * a.width ≤ maxCount :=
  ⟨fun h k a ha => h (k, a) (SortedMap.find?_eq_some.1 ha), fun h e he => h e.1 e.2 (SortedMap.find?_eq_some.2 he)⟩

theorem HasRoom.mono {size size' : Nat} (h : m.HasRoom size') (hle : size ≤ size') : m.HasRoom size :=
  fun e he => (Nat.mul_le_mul_right _ hle).trans (h e he)

/-- Whether there is room depends on the layout alone. -/
theorem hasRoom_congr (h : m.layout = n.layout) (size : Nat) : m.HasRoom size ↔ n.HasRoom size := by
  have hwidths : ∀ r : AttributeMatrix κ, r.HasRoom size ↔ ∀ f ∈ r.layout, size * f.2.2 ≤ maxCount := fun r => by
    simp only [HasRoom, layout, List.forall_mem_map]
  rw [hwidths, hwidths, h]

/-- The named arrays are changed and the others are as they were. -/
structure Changed (change : TypedArray κ → TypedArray κ) (done : List String) (m r : AttributeMatrix κ) : Prop where
  name : r.name = m.name
  size : r.size = m.size
  array : ∀ k, r.arrays.find? k = if k ∈ done then (m.arrays.find? k).map change else m.arrays.find? k

theorem Changed.layout {change : TypedArray κ → TypedArray κ} {done : List String} (h : Changed change done m n)
    (hchange : ∀ a, shape (change a) = shape a) : n.layout = m.layout := by
  rw [layout_eq_iff]
  intro k
  rw [h.array]
  split
  · rw [Option.map_map]
    exact congrArg (Option.map · _) (funext hchange)
  · rfl

/-- With all of its arrays changed a matrix is what it is with each value mapped. -/
theorem Changed.all {change : TypedArray κ → TypedArray κ} {done : List String} (h : Changed change done m n)
    (hdone : done = m.names) : n = { m with arrays := m.arrays.mapValues change } := by
  subst hdone
  refine AttributeMatrix.ext h.name h.size (SortedMap.ext_find? fun k => ?_)
  rw [h.array, SortedMap.find?_mapValues]
  split
  · rfl
  next hk => rw [SortedMap.find?_eq_none.2 hk, Option.map_none]

/-- An array that is changed first counts among the changed ones. -/
theorem Changed.cons {change : TypedArray κ → TypedArray κ} {name : String} {done : List String} {a : TypedArray κ}
    (ha : m.arrays.find? name = some a) (h : Changed change done (m.put name (change a)) n) (hn : name ∉ done) :
    Changed change (name :: done) m n where
  name := h.name
  size := h.size
  array k := by
    by_cases hk : k = name
    · subst hk
      rw [h.array, if_neg hn, if_pos List.mem_cons_self, find?_put_self m _ ha, ha, Option.map_some]
    · simp only [h.array, find?_put_of_ne m _ hk, List.mem_cons, hk, false_or]

/-- Where the change of an array asks for something of it, either all named
arrays have it and are changed, or those before the first that lacks it. -/
theorem changeEach_spec {fits : TypedArray κ → Prop} [DecidablePred fits]
    {f : TypedArray κ → Except Fault (TypedArray κ)} {change : TypedArray κ → TypedArray κ}
    (hf : ∀ a, f a = if fits a then .ok (change a) else .error .overflow) (names : List String)
    (hn : names.Nodup) (m : AttributeMatrix κ) (hall : ∀ k ∈ names, ∃ a, m.arrays.find? k = some a) :
    (∃ r, changeEach f names m = (.ok (), r) ∧ Changed change names m r ∧
        ∀ k ∈ names, ∀ a, m.arrays.find? k = some a → fits a) ∨
      ∃ r done, changeEach f names m = (.error .overflow, r) ∧ Changed change done m r ∧ done <+: names ∧
        ∃ k ∈ names, ∃ a, m.arrays.find? k = some a ∧ ¬fits a := by
  induction names generalizing m with
  | nil => exact .inl ⟨m, rfl, ⟨rfl, rfl, fun _ => rfl⟩, fun k hk => absurd hk List.not_mem_nil⟩
  | cons name rest ih =>
    obtain ⟨hname, hrest⟩ := List.nodup_cons.1 hn
    obtain ⟨a, ha⟩ := hall name List.mem_cons_self
    have hother : ∀ k ∈ rest, (m.put name (change a)).arrays.find? k = m.arrays.find? k :=
      fun k hk => find?_put_of_ne m _ fun he => hname (he ▸ hk)
    by_cases hfits : fits a
    · have hstep : changeEach f (name :: rest) m = changeEach f rest (m.put name (change a)) := by
        simp only [changeEach, ha, hf, if_pos hfits]
      rw [hstep]
      obtain ⟨r, hr, hc, hrestfits⟩ | ⟨r, done, hr, hc, hpre, k, hk, b, hb, hbad⟩ :=
        ih hrest (m.put name (change a)) fun k hk => hother k hk ▸ hall k (List.mem_cons_of_mem _ hk)
      · refine .inl ⟨r, hr, hc.cons ha hname, fun k hk b hb => ?_⟩
        rcases List.mem_cons.1 hk with rfl | hk
        · rw [ha, Option.some.injEq] at hb
          exact hb ▸ hfits
        · exact hrestfits k hk b ((hother k hk).trans hb)
      · exact .inr ⟨r, name :: done, hr, hc.cons ha fun hd => hname (hpre.subset hd), List.cons_prefix_cons.2 ⟨rfl, hpre⟩,
          k, List.mem_cons_of_mem _ hk, b, (hother k hk).symm.trans hb, hbad⟩
    · refine .inr ⟨m, [], ?_, ⟨rfl, rfl, fun _ => rfl⟩, List.nil_prefix, name, List.mem_cons_self, a, ha, hfits⟩
      simp only [changeEach, ha, hf, if_neg hfits]

variable [Coordinate κ]

theorem resize_array (a : TypedArray κ) (size : Nat) :
    a.resize size = if size * a.width ≤ maxCount then .ok (a.resized size) else .error .overflow := by
  rw [TypedArray.resize, TupleArray.resize_eq]
  unfold TypedArray.width
  split <;> rfl

theorem emptyLike_array (a : TypedArray κ) (size : Nat) :
    a.emptyLike size = if size * a.width ≤ maxCount then .ok (a.blank size) else .error .overflow := by
  rw [TypedArray.emptyLike, TupleArray.emptyLike_eq]
  unfold TypedArray.width
  split <;> rfl

/-- A matrix is resized if it has room, and then the check passes. Otherwise
the program ends at the first array that is too wide, and the others of the
matrix are resized as far as they come before it. -/
theorem resize_spec (m : AttributeMatrix κ) (size : Nat) :
    (m.HasRoom size ∧ m.resize size = (.ok (), m.resized size)) ∨
      ¬m.HasRoom size ∧ ∃ r done, m.resize size = (.error (.fault .overflow), r) ∧ done <+: m.names ∧
        Changed (·.resized size) done { m with size := size } r := by
  unfold resize
  obtain ⟨r, hr, hc, hfits⟩ | ⟨r, done, hr, hc, hpre, k, hk, a, ha, hbad⟩ :=
    changeEach_spec (fun a => resize_array a size) m.names (SortedMap.keys_nodup _) { m with size := size }
      fun _ => SortedMap.mem_keys.1
  · have hvalid : (m.resized size).validate = .ok () := validate_eq_ok.2 (inStep_resized m size)
    have hroom : m.HasRoom size := hasRoom_iff.2 fun k a ha => hfits k (SortedMap.mem_keys.2 ⟨a, ha⟩) a ha
    obtain rfl : r = m.resized size := hc.all rfl
    refine .inl ⟨hroom, ?_⟩
    rw [hr]
    dsimp only
    rw [hvalid]
    rfl
  · have hroom : ¬m.HasRoom size := fun h => hbad (hasRoom_iff.1 h k a ha)
    refine .inr ⟨hroom, r, done, ?_, hpre, hc⟩
    rw [hr]

theorem resize_of_hasRoom {size : Nat} (h : m.HasRoom size) : m.resize size = (.ok (), m.resized size) := by
  obtain ⟨-, hr⟩ | ⟨hn, -⟩ := m.resize_spec size
  · exact hr
  · exact absurd h hn

/-- A matrix without room keeps its layout all the same. -/
theorem resize_of_not_hasRoom {size : Nat} (h : ¬m.HasRoom size) :
    ∃ r, m.resize size = (.error (.fault .overflow), r) ∧ r.size = size ∧ r.layout = m.layout := by
  obtain ⟨hy, -⟩ | ⟨-, r, done, hr, -, hc⟩ := m.resize_spec size
  · exact absurd hy h
  · exact ⟨r, hr, hc.size, hc.layout fun _ => rfl⟩

/-- A matrix like another is made if there is room for it. -/
theorem emptyLike_eq (m : AttributeMatrix κ) (size : Nat) :
    m.emptyLike size = if m.HasRoom size then .ok (m.blank size) else .error .overflow := by
  unfold emptyLike
  obtain ⟨r, hr, hc, hfits⟩ | ⟨r, done, hr, -, -, k, -, a, ha, hbad⟩ :=
    changeEach_spec (fun a => emptyLike_array a size) m.names (SortedMap.keys_nodup _) { m with size := size }
      fun _ => SortedMap.mem_keys.1
  · have hroom : m.HasRoom size := hasRoom_iff.2 fun k a ha => hfits k (SortedMap.mem_keys.2 ⟨a, ha⟩) a ha
    rw [hr, if_pos hroom]
    exact congrArg Except.ok (hc.all rfl)
  · have hroom : ¬m.HasRoom size := fun h => hbad (hasRoom_iff.1 h k a ha)
    rw [hr, if_neg hroom]

end Wireframe.AttributeMatrix
