import Wireframe.TupleArray
import Wireframe.Proofs.Mask
/-!
# An array is its tuples

`tuple?` reads off the flat list what `tuples` cuts out of it, and the width
and the tuples determine the array. `TupleArray.select` is the array of the
tuples that a mask keeps, which is what a masked copy has to produce.
-/

namespace Wireframe.TupleArray

variable {α : Type}

/-! ## Cutting a list into tuples -/

theorem length_chunks (w n : Nat) (l : List α) : (chunks w n l).length = n := by
  induction n generalizing l with
  | zero => rfl
  | succ n ih => simp [chunks, ih]

theorem getElem?_chunks (w n : Nat) (l : List α) (i : Nat) :
    (chunks w n l)[i]? = if i < n then some ((l.drop (i * w)).take w) else none := by
  induction n generalizing l i with
  | zero => simp [chunks]
  | succ n ih =>
    cases i with
    | zero => simp [chunks]
    | succ i =>
      simp only [chunks, List.getElem?_cons_succ, ih, List.drop_drop, Nat.succ_mul,
        Nat.add_lt_add_iff_right]
      rw [Nat.add_comm w]

theorem flatten_chunks (w n : Nat) (l : List α) : (chunks w n l).flatten = l.take (n * w) := by
  induction n generalizing l with
  | zero => simp [chunks]
  | succ n ih => rw [chunks, List.flatten_cons, ih, Nat.succ_mul, Nat.add_comm, List.take_add]

theorem take_chunks (w n k : Nat) (l : List α) : (chunks w n l).take k = chunks w (min k n) l := by
  induction n generalizing k l with
  | zero => simp [chunks]
  | succ n ih =>
    cases k with
    | zero => simp [chunks]
    | succ k => rw [chunks, List.take_succ_cons, ih, Nat.succ_min_succ, chunks]

theorem length_flatten {w : Nat} {ts : List (List α)} (h : ∀ t ∈ ts, t.length = w) :
    ts.flatten.length = ts.length * w := by
  induction ts with
  | nil => simp
  | cons t ts ih =>
    have ht := h t List.mem_cons_self
    have hts := ih fun u hu => h u (List.mem_cons_of_mem _ hu)
    simp only [List.flatten_cons, List.length_append, List.length_cons, Nat.succ_mul]
    omega

theorem chunks_flatten {w : Nat} {ts : List (List α)} (h : ∀ t ∈ ts, t.length = w) :
    chunks w ts.length ts.flatten = ts := by
  induction ts with
  | nil => rfl
  | cons t ts ih =>
    have ht := h t List.mem_cons_self
    rw [List.length_cons, List.flatten_cons, chunks, List.take_left' ht, List.drop_left' ht,
      ih fun u hu => h u (List.mem_cons_of_mem _ hu)]

/-! ## Reading -/

theorem length_tuples (a : TupleArray α) : a.tuples.length = a.size := length_chunks _ _ _

theorem getElem?_tuples (a : TupleArray α) (i : Nat) : a.tuples[i]? = a.tuple? i := by
  rw [tuples, getElem?_chunks, tuple?]

theorem flatten_tuples (a : TupleArray α) : a.tuples.flatten = a.values := by
  rw [tuples, flatten_chunks, size_mul_width, List.take_length]

/-- The width and the tuples determine an array. -/
theorem ext_tuples {a b : TupleArray α} (hw : a.width = b.width) (ht : a.tuples = b.tuples) : a = b :=
  TupleArray.ext hw (by rw [← flatten_tuples, ht, flatten_tuples])

theorem tuple?_eq_none {a : TupleArray α} {i : Nat} : a.tuple? i = none ↔ a.size ≤ i := by
  rw [← getElem?_tuples, List.getElem?_eq_none_iff, length_tuples]

theorem lt_size_of_tuple? {a : TupleArray α} {i : Nat} {t : List α} (h : a.tuple? i = some t) :
    i < a.size := by
  by_contra hi
  rw [tuple?_eq_none.2 (by omega)] at h
  cases h

theorem lt_size_iff {a : TupleArray α} {i : Nat} : i < a.size ↔ i * a.width + a.width ≤ a.values.length := by
  rw [size, Nat.lt_iff_add_one_le, Nat.le_div_iff_mul_le a.width_pos, Nat.succ_mul]

theorem exists_tuple? {a : TupleArray α} {i : Nat} (h : i < a.size) : ∃ t, a.tuple? i = some t := by
  rw [tuple?, if_pos h]
  exact ⟨_, rfl⟩

theorem length_of_tuple? {a : TupleArray α} {i : Nat} {t : List α} (h : a.tuple? i = some t) :
    t.length = a.width := by
  have hi := lt_size_of_tuple? h
  have hle := tuple_end_le hi
  rw [tuple?, if_pos hi, Option.some.injEq] at h
  rw [← h, List.length_take, List.length_drop]
  omega

theorem length_of_mem_tuples {a : TupleArray α} {t : List α} (h : t ∈ a.tuples) :
    t.length = a.width := by
  obtain ⟨i, hi⟩ := List.mem_iff_getElem?.1 h
  exact length_of_tuple? (a.getElem?_tuples i ▸ hi)

/-! ## Making arrays -/

/-- The array of given tuples, all of one width. -/
def ofTuples (width : Nat) (ts : List (List α)) (hw : 0 < width) (h : ∀ t ∈ ts, t.length = width) :
    TupleArray α :=
  ⟨width, ts.flatten, hw, by rw [length_flatten h]; exact Nat.dvd_mul_left _ _⟩

theorem size_ofTuples {w : Nat} {ts : List (List α)} (hw : 0 < w) (h : ∀ t ∈ ts, t.length = w) :
    (ofTuples w ts hw h).size = ts.length := by
  show ts.flatten.length / w = ts.length
  rw [length_flatten h, Nat.mul_div_cancel _ hw]

theorem tuples_ofTuples {w : Nat} {ts : List (List α)} (hw : 0 < w) (h : ∀ t ∈ ts, t.length = w) :
    (ofTuples w ts hw h).tuples = ts := by
  rw [tuples, size_ofTuples hw h]
  exact chunks_flatten h

theorem length_resized (value : α) (a : TupleArray α) (n : Nat) : (a.resized value n).values.length = n * a.width := by
  simp only [resized, List.length_append, List.length_take, List.length_replicate]
  omega

theorem size_resized (value : α) (a : TupleArray α) (n : Nat) : (a.resized value n).size = n := by
  rw [size, length_resized]
  exact Nat.mul_div_cancel n a.width_pos

theorem size_blank (value : α) (a : TupleArray α) (n : Nat) : (a.blank value n).size = n := by
  have hlen : (a.blank value n).values.length = n * a.width := List.length_replicate
  rw [size, hlen]
  exact Nat.mul_div_cancel n a.width_pos

/-- A resized array has the tuples up to the new size and fills the others. -/
theorem tuples_resized (value : α) (a : TupleArray α) (n : Nat) :
    (a.resized value n).tuples = a.tuples.take n ++ .replicate (n - a.size) (.replicate a.width value) := by
  have hlen : ∀ t ∈ a.tuples.take n ++ .replicate (n - a.size) (.replicate a.width value), t.length = a.width := by
    intro t ht
    rcases List.mem_append.1 ht with ht | ht
    · exact length_of_mem_tuples (List.mem_of_mem_take ht)
    · rw [List.eq_of_mem_replicate ht, List.length_replicate]
  have hkept : (a.tuples.take n).flatten = a.values.take (n * a.width) := by
    rw [tuples, take_chunks, flatten_chunks, List.take_eq_take_iff, ← a.size_mul_width]
    rcases Nat.le_total n a.size with h | h
    · rw [Nat.min_eq_left h]
    · have hw := Nat.mul_le_mul_right a.width h
      rw [Nat.min_eq_right h, Nat.min_eq_right hw, Nat.min_self]
  have hfilled : n * a.width - a.values.length = (n - a.size) * a.width := by
    rw [← a.size_mul_width, Nat.sub_mul]
  have he : a.resized value n = ofTuples a.width _ a.width_pos hlen := by
    refine TupleArray.ext rfl ?_
    show a.values.take (n * a.width) ++ .replicate (n * a.width - a.values.length) value = List.flatten _
    rw [List.flatten_append, hkept, List.flatten_replicate_replicate, hfilled]
  rw [he, tuples_ofTuples]

/-- An array is resized if the number of its values is a count then. -/
theorem resize_eq (value : α) (a : TupleArray α) (n : Nat) :
    a.resize value n = if n * a.width ≤ maxCount then .ok (a.resized value n) else .error .overflow :=
  Checked.map_count _ _

theorem emptyLike_eq (value : α) (a : TupleArray α) (n : Nat) :
    a.emptyLike value n = if n * a.width ≤ maxCount then .ok (a.blank value n) else .error .overflow :=
  Checked.map_count _ _

/-- The tuples that a mask keeps, in order. -/
def select (mask : Mask) (a : TupleArray α) : TupleArray α :=
  ofTuples a.width (mask.select a.tuples) a.width_pos fun _ ht =>
    length_of_mem_tuples (mask.select_sublist a.tuples |>.subset ht)

theorem tuples_select (mask : Mask) (a : TupleArray α) :
    (a.select mask).tuples = mask.select a.tuples :=
  tuples_ofTuples _ _

theorem size_select {mask : Mask} {a : TupleArray α} (h : mask.length = a.size) :
    (a.select mask).size = mask.kept := by
  rw [← length_tuples, tuples_select, Mask.length_select]
  rw [length_tuples, h]

theorem tuple?_select {mask : Mask} {a : TupleArray α} (h : mask.length = a.size) (i : Nat) :
    (a.select mask).tuple? i = mask.indices[i]?.bind a.tuple? := by
  rw [← getElem?_tuples, tuples_select, Mask.getElem?_select (by rw [length_tuples, h])]
  simp only [getElem?_tuples]

/-! ## Overwriting tuples -/

/-- Overwriting one tuple leaves the others as they are. -/
theorem setTuple?_spec {a : TupleArray α} {front back : List (List α)} {x t : List α}
    (h : a.tuples = front ++ x :: back) (ht : t.length = a.width) :
    ∃ b, a.setTuple? front.length t = some b ∧ b.width = a.width ∧ b.tuples = front ++ t :: back := by
  have hlen : ∀ u ∈ front ++ x :: back, u.length = a.width := fun u hu => length_of_mem_tuples (h ▸ hu)
  have hfront : front.flatten.length = front.length * a.width :=
    length_flatten fun u hu => hlen u (List.mem_append_left _ hu)
  have hx : x.length = a.width := hlen x (by simp)
  have hlt : front.length < a.size := by
    rw [← length_tuples, h, List.length_append, List.length_cons]
    omega
  have hvalues : a.values = front.flatten ++ (x ++ back.flatten) := by
    rw [← flatten_tuples, h, List.flatten_append, List.flatten_cons]
  have hnew : ∀ u ∈ front ++ t :: back, u.length = a.width := by
    intro u hu
    rcases List.mem_append.1 hu with hu | hu
    · exact hlen u (List.mem_append_left _ hu)
    · rcases List.mem_cons.1 hu with rfl | hu
      · exact ht
      · exact hlen u (by simp [hu])
  refine ⟨ofTuples a.width (front ++ t :: back) a.width_pos hnew, ?_, rfl, tuples_ofTuples _ hnew⟩
  unfold setTuple?
  rw [dif_pos ⟨hlt, ht⟩, Option.some.injEq]
  refine TupleArray.ext rfl ?_
  show a.values.take (front.length * a.width) ++ t ++ a.values.drop (front.length * a.width + a.width) =
    (front ++ t :: back).flatten
  rw [hvalues, List.take_left' hfront, ← List.drop_drop, List.drop_left' hfront, List.drop_left' hx,
    List.flatten_append, List.flatten_cons, List.append_assoc]

/-- Overwriting a tuple sets it in the list of tuples. -/
theorem setTuple?_eq_set {a : TupleArray α} {i : Nat} {t : List α} (hi : i < a.size) (ht : t.length = a.width) :
    ∃ b, a.setTuple? i t = some b ∧ b.width = a.width ∧ b.tuples = a.tuples.set i t := by
  have hlt : i < a.tuples.length := by rwa [length_tuples]
  have hsplit : a.tuples = a.tuples.take i ++ a.tuples[i] :: a.tuples.drop (i + 1) := by
    rw [← List.drop_eq_getElem_cons hlt, List.take_append_drop]
  have hfront : (a.tuples.take i).length = i := List.length_take_of_le hlt.le
  obtain ⟨b, hb, hw, hset⟩ := setTuple?_spec hsplit ht
  rw [hfront] at hb
  exact ⟨b, hb, hw, by rw [hset, List.set_eq_take_append_cons_drop, if_pos hlt]⟩

theorem fits_of_setTuple? {a b : TupleArray α} {i : Nat} {t : List α} (h : a.setTuple? i t = some b) :
    i < a.size ∧ t.length = a.width := by
  unfold setTuple? at h
  split at h
  next hfits => exact hfits
  next => cases h

/-- Overwriting keeps the width and the length. -/
theorem length_of_setTuple? {a b : TupleArray α} {i : Nat} {t : List α} (h : a.setTuple? i t = some b) :
    b.width = a.width ∧ b.values.length = a.values.length := by
  obtain ⟨hi, ht⟩ := fits_of_setTuple? h
  obtain ⟨c, hc, hw, hset⟩ := setTuple?_eq_set hi ht
  obtain rfl : b = c := Option.some.inj (h.symm.trans hc)
  refine ⟨hw, ?_⟩
  rw [← b.size_mul_width, ← a.size_mul_width, ← length_tuples, hset, List.length_set, length_tuples, hw]

theorem copyTuple_eq_ok {a src b : TupleArray α} {i j : Nat} : a.copyTuple i src j = .ok b ↔
    src.width = a.width ∧ ∃ t, src.tuple? j = some t ∧ a.setTuple? i t = some b := by
  unfold copyTuple
  by_cases hw : src.width = a.width
  · rw [if_neg (not_not.2 hw)]
    cases src.tuple? j with
    | none => simp
    | some t =>
      dsimp only
      cases hset : a.setTuple? i t <;> simp [hw, hset]
  · simp [hw]

theorem copyTuple_eq_error {a src : TupleArray α} {i j : Nat}
    (h : ¬(src.width = a.width ∧ i < a.size ∧ j < src.size)) : ∃ e, a.copyTuple i src j = .error e := by
  cases hcopy : a.copyTuple i src j with
  | error e => exact ⟨e, rfl⟩
  | ok b =>
    obtain ⟨hw, t, hj, hset⟩ := copyTuple_eq_ok.1 hcopy
    exact absurd ⟨hw, (fits_of_setTuple? hset).1, lt_size_of_tuple? hj⟩ h

theorem copyTuple_ok {d src : TupleArray α} {front back : List (List α)} {x t : List α} {j : Nat}
    (hd : d.tuples = front ++ x :: back) (hw : src.width = d.width) (hj : src.tuple? j = some t) :
    ∃ d', d.copyTuple front.length src j = .ok d' ∧ d'.width = d.width ∧ d'.tuples = front ++ t :: back := by
  obtain ⟨d', hset, hw', ht'⟩ := setTuple?_spec hd ((length_of_tuple? hj).trans hw)
  exact ⟨d', copyTuple_eq_ok.2 ⟨hw, t, hj, hset⟩, hw', ht'⟩

/-- Copying tuples of `src` one after the other over the last ones of `d`
keeps what comes before. -/
theorem foldlM_copyTuple {src : TupleArray α} (js : List Nat) (ts : List (List α))
    (hts : js.map src.tuple? = ts.map some) (front back : List (List α)) (d : TupleArray α)
    (hw : src.width = d.width) (hd : d.tuples = front ++ back) (hlen : back.length = js.length) :
    ∃ d', (js.zipIdx front.length).foldlM (fun d (j, i) => d.copyTuple i src j) d = .ok d' ∧
      d'.width = d.width ∧ d'.tuples = front ++ ts := by
  induction js generalizing ts front back d with
  | nil =>
    obtain rfl : ts = [] := by simpa using hts.symm
    obtain rfl : back = [] := List.length_eq_zero_iff.1 hlen
    exact ⟨d, rfl, rfl, hd⟩
  | cons j js ih =>
    obtain ⟨x, back, rfl⟩ := List.exists_cons_of_length_eq_add_one hlen
    cases ts with
    | nil => simp at hts
    | cons t ts =>
      simp only [List.map_cons, List.cons.injEq] at hts
      obtain ⟨d₁, h₁, hw₁, ht₁⟩ := copyTuple_ok hd hw hts.1
      -- what was just written now comes before the next tuple and is kept
      obtain ⟨d', h', hw', ht'⟩ := ih ts hts.2 (front ++ [t]) back d₁ (hw.trans hw₁.symm)
        (by rw [ht₁, List.append_assoc]; rfl) (by simpa using hlen)
      refine ⟨d', ?_, hw'.trans hw₁, by rw [ht', List.append_assoc]; rfl⟩
      rw [List.length_append, List.length_singleton] at h'
      simp only [List.zipIdx_cons, List.foldlM_cons, h₁]
      exact h'

end Wireframe.TupleArray
