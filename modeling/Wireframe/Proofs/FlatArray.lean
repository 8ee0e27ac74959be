import Wireframe.FlatArray
import Wireframe.Proofs.TupleArray
/-!
# A bare buffer holds tuples

A width and a list of values are an array of tuples as long as the width divides
the length. Every array that can be made has this property and every call keeps
it, an error or a fault included, so that a reached array is the flat form of a
`TupleArray`. What a call answers is then told by the tuples alone: `Holds` says
which tuples an array has, a copy sets one of them, and resizing takes the first
of them and appends filled ones.

Two things go wrong with great numbers. Where overflow traps, an index can be so
great that the end of its tuple is no count although the beginning is one: it
lies past every buffer, but asking for it is a fault. Where overflow wraps, such
a tuple is found to be none; but an array that is resized to more values than
can be counted gets fewer tuples than were asked for, and maybe a part of one.
-/

namespace Wireframe.FlatArray

variable {α : Type}

/-- It is a fault to reckon where a tuple ends, though not where it begins. -/
def Overruns (overflow : Overflow) (width i : Nat) : Prop :=
  overflow = .traps ∧ i * width ≤ maxCount ∧ maxCount < i * width + width

instance (overflow : Overflow) (width i : Nat) : Decidable (Overruns overflow width i) :=
  inferInstanceAs (Decidable (_ ∧ _ ∧ _))

/-- Width and length are counts. -/
structure Counted (t : TupleArray α) : Prop where
  width : t.width ≤ maxCount
  length : t.values.length ≤ maxCount

/-! ## Making flat forms -/

theorem ofValues_flat (width : Nat) (values : List α) :
    ofValues width values = (TupleArray.ofValues width values).map TupleArray.flat := by
  unfold ofValues TupleArray.ofValues
  by_cases hw : width = 0
  · rw [if_pos hw, dif_pos hw]
    rfl
  · rw [if_neg hw, dif_neg hw]
    by_cases hd : width ∣ values.length
    · rw [if_neg (not_not.2 (Nat.mod_eq_zero_of_dvd hd)), dif_pos hd]
      rfl
    · rw [if_pos fun h => hd (Nat.dvd_of_mod_eq_zero h), dif_neg hd]
      rfl

/-- Unless the number of values wraps, filling makes the same array or ends in
the same error or fault. -/
theorem filled_flat {overflow : Overflow} (value : α) {size width : Nat} (h : overflow.Exact (size * width)) :
    filled overflow value size width = (TupleArray.filled value size width).map (Except.map TupleArray.flat) := by
  unfold filled TupleArray.filled
  by_cases hw : width = 0
  · rw [if_pos hw, dif_pos hw]
    rfl
  · rw [if_neg hw, dif_neg hw]
    by_cases hcount : size * width ≤ maxCount
    · rw [overflow.count_of_le hcount, Checked.count_of_le hcount]
      rfl
    · obtain rfl : overflow = .traps := h.resolve_right hcount
      rw [Overflow.count, Checked.count_of_lt (Nat.lt_of_not_le hcount)]
      rfl

/-! ## Reading flat forms -/

section Flat

variable (t : TupleArray α)

theorem size_flat : t.flat.size = .ok t.size := Checked.quotient_of_pos t.width_pos

theorem tuples_flat : t.flat.tuples = .ok t.tuples := by
  rw [tuples, size_flat]
  rfl

variable {t} (overflow : Overflow) (ht : Counted t)

include ht

/-- A tuple whose end is no count is not there. -/
theorem not_lt_size_of_end {i : Nat} (h : maxCount < i * t.width + t.width) : ¬i < t.size := by
  intro hi
  have hend := TupleArray.lt_size_iff.1 hi
  have hlen := ht.length
  omega

/-- No tuple that is there overruns. -/
theorem not_overruns {i : Nat} (hi : i < t.size) : ¬Overruns overflow t.width i :=
  fun h => not_lt_size_of_end ht h.2.2 hi

omit ht in
theorem place?_of_start {i : Nat} (h : i * t.width ≤ maxCount) : t.flat.place? overflow i =
    (overflow.count (i * t.width + t.width)).map fun stop =>
      if i * t.width ≤ stop ∧ stop ≤ t.values.length then some (i * t.width, stop) else none := by
  unfold place? mulCount? TupleArray.flat
  dsimp only
  rw [if_pos h]
  rfl

omit ht in
theorem place?_of_no_start {i : Nat} (h : ¬i * t.width ≤ maxCount) : t.flat.place? overflow i = .ok none := by
  unfold place? mulCount? TupleArray.flat
  dsimp only
  rw [if_neg h]

/-- The end of a tuple that is no count wraps to before its beginning. -/
theorem place?_wrapped {i : Nat} (hstart : i * t.width ≤ maxCount) (hend : maxCount < i * t.width + t.width) :
    t.flat.place? .wraps i = .ok none := by
  have hw := ht.width
  have hsize : UInt64.size = maxCount + 1 := rfl
  have hstop : (i * t.width + t.width) % UInt64.size = i * t.width + t.width - UInt64.size := by
    rw [Nat.mod_eq_sub_mod (by omega), Nat.mod_eq_of_lt (by omega)]
  have hbefore : ¬i * t.width ≤ i * t.width + t.width - UInt64.size := by omega
  rw [place?_of_start .wraps hstart, Overflow.count, hstop, Except.map, if_neg fun h => hbefore h.1]

/-- An index past the end has no place, whether or not the place can be reckoned. -/
theorem place?_flat (i : Nat) : t.flat.place? overflow i =
    if Overruns overflow t.width i then .error .overflow
    else .ok (if i < t.size then some (i * t.width, i * t.width + t.width) else none) := by
  by_cases hstart : i * t.width ≤ maxCount
  · by_cases hend : i * t.width + t.width ≤ maxCount
    · have hno : ¬Overruns overflow t.width i := fun h => Nat.not_lt.2 hend h.2.2
      have hbefore : i * t.width ≤ i * t.width + t.width := Nat.le_add_right _ _
      rw [place?_of_start overflow hstart, overflow.count_of_le hend, if_neg hno]
      simp only [Except.map, hbefore, true_and, TupleArray.lt_size_iff]
    · have hover := Nat.lt_of_not_le hend
      cases overflow with
      | traps =>
        rw [place?_of_start .traps hstart, Overflow.count, Checked.count_of_lt hover, if_pos ⟨rfl, hstart, hover⟩]
        rfl
      | wraps =>
        rw [place?_wrapped ht hstart hover, if_neg (by rintro ⟨⟨⟩, -⟩), if_neg (not_lt_size_of_end ht hover)]
  · have hno : ¬Overruns overflow t.width i := fun h => hstart h.2.1
    rw [place?_of_no_start overflow hstart, if_neg hno, if_neg (not_lt_size_of_end ht (by omega))]

theorem tuple?_flat (i : Nat) : t.flat.tuple? overflow i =
    if Overruns overflow t.width i then .error .overflow else .ok (t.tuple? i) := by
  unfold tuple?
  rw [place?_flat overflow ht]
  split
  next => rfl
  next =>
    unfold TupleArray.tuple?
    split
    next =>
      show Except.ok (some ((t.values.drop (i * t.width)).take (i * t.width + t.width - i * t.width))) = _
      rw [Nat.add_sub_cancel_left]
    next => rfl

theorem tuple?_of_lt {i : Nat} (hi : i < t.size) : ∃ u, t.tuple? i = some u ∧ t.flat.tuple? overflow i = .ok (some u) := by
  obtain ⟨u, hu⟩ := TupleArray.exists_tuple? hi
  exact ⟨u, hu, by rw [tuple?_flat overflow ht, if_neg (not_overruns overflow ht hi), hu]⟩

theorem exists_tuple?_flat (i : Nat) : (∃ u, t.flat.tuple? overflow i = .ok (some u)) ↔ i < t.size := by
  constructor
  · rintro ⟨u, hu⟩
    rw [tuple?_flat overflow ht] at hu
    split at hu
    next => cases hu
    next => exact TupleArray.lt_size_of_tuple? (Except.ok.inj hu)
  · intro hi
    obtain ⟨u, -, hu⟩ := tuple?_of_lt overflow ht hi
    exact ⟨u, hu⟩

/-- Reading one tuple after the other is reading all of them. -/
theorem map_tuple?_flat : (List.range t.size).map (t.flat.tuple? overflow) = t.tuples.map fun u => .ok (some u) := by
  apply List.ext_getElem?
  intro i
  rw [List.getElem?_map, List.getElem?_map, TupleArray.getElem?_tuples]
  by_cases hi : i < t.size
  · obtain ⟨u, hu, hflat⟩ := tuple?_of_lt overflow ht hi
    rw [List.getElem?_range hi, Option.map_some, hflat, hu]
    rfl
  · have hpast : (List.range t.size)[i]? = none := List.getElem?_eq_none (by simpa using hi)
    rw [hpast, TupleArray.tuple?_eq_none.2 (Nat.not_lt.1 hi)]
    rfl

/-- The tuple at an index, or the error that tells the size. -/
theorem tuple_flat (i : Nat) : t.flat.tuple overflow i =
    if Overruns overflow t.width i then .error .overflow
    else .ok ((t.tuple? i).elim (.error (.tupleOutOfRange i t.size)) .ok) := by
  unfold tuple
  rw [size_flat, tuple?_flat overflow ht]
  by_cases hover : Overruns overflow t.width i
  · rw [if_pos hover, if_pos hover]
    rfl
  · rw [if_neg hover, if_neg hover]
    cases t.tuple? i <;> rfl

/-! ## Writing flat forms -/

omit ht in
theorem resize_flat (value : α) {n : Nat} (hn : n * t.width ≤ maxCount) :
    t.flat.resize overflow value n = (.ok (), (t.resized value n).flat) := by
  unfold resize TupleArray.flat
  dsimp only
  rw [overflow.count_of_le hn]
  rfl

omit ht in
/-- Too many tuples may be a fault. -/
theorem resize_traps (value : α) {n : Nat} (hn : maxCount < n * t.width) :
    t.flat.resize .traps value n = (.error .overflow, t.flat) := by
  unfold resize TupleArray.flat
  dsimp only
  rw [Overflow.count, Checked.count_of_lt hn]

omit ht in
/-- Or too many tuples become fewer. -/
theorem resize_wraps (value : α) {n : Nat} (hn : maxCount < n * t.width) :
    ∃ b k, t.flat.resize .wraps value n = (.ok (), b) ∧ b.size = .ok k ∧ k < n := by
  have hlost : n * t.width % UInt64.size < n * t.width :=
    Nat.lt_of_lt_of_le (Nat.mod_lt _ (by decide)) (Nat.succ_le_of_lt hn)
  refine ⟨_, _, rfl, Checked.quotient_of_pos t.width_pos, (Nat.div_lt_iff_lt_mul t.width_pos).2 ?_⟩
  simp only [TupleArray.flat, List.length_append, List.length_take, List.length_replicate]
  omega

omit ht in
theorem set_flat (i : Nat) (value : α) : t.flat.set i value =
    (t.setValue? i value).elim (.error .indexOutOfRange, t.flat) fun b => (.ok (), b.flat) := by
  unfold set TupleArray.setValue? TupleArray.flat
  dsimp only
  split <;> rfl

/-- A tuple that is as long as the width is written if the index is in range. -/
theorem write_flat {tuple : List α} (hfits : tuple.length = t.width) (i : Nat) : t.flat.write overflow i tuple =
    if Overruns overflow t.width i then (.error .overflow, t.flat)
    else (t.setTuple? i tuple).elim (.ok false, t.flat) fun b => (.ok true, b.flat) := by
  unfold write
  rw [place?_flat overflow ht]
  by_cases hover : Overruns overflow t.width i
  · rw [if_pos hover, if_pos hover]
  · rw [if_neg hover, if_neg hover]
    unfold TupleArray.setTuple?
    by_cases hi : i < t.size
    · rw [if_pos hi, dif_pos ⟨hi, hfits⟩]
      dsimp only
      rw [if_pos (by omega)]
      rfl
    · rw [if_neg hi, dif_neg fun h => hi h.1]
      rfl

/-- Any other tuple leaves the array as it was. -/
theorem write_misfit {tuple : List α} (hfits : tuple.length ≠ t.width) (i : Nat) :
    (t.flat.write overflow i tuple).2 = t.flat := by
  unfold write
  rw [place?_flat overflow ht]
  by_cases hover : Overruns overflow t.width i
  · rw [if_pos hover]
  · rw [if_neg hover]
    by_cases hi : i < t.size
    · rw [if_pos hi]
      dsimp only
      rw [if_neg (by omega)]
    · rw [if_neg hi]

/-- A copy does what it does to tuples, unless an index overruns before it is
found to be past the end. -/
theorem copyTuple_flat {src : TupleArray α} (hsrc : Counted src) (i j : Nat) :
    t.flat.copyTuple overflow i src.flat j =
      if src.width = t.width ∧ (Overruns overflow src.width j ∨ j < src.size ∧ Overruns overflow t.width i) then
        (.error .overflow, t.flat)
      else match t.copyTuple i src j with
        | .ok b => (.ok (.ok ()), b.flat)
        | .error e => (.ok (.error e), t.flat) := by
  have hwidth : src.flat.width = t.flat.width ↔ src.width = t.width := Iff.rfl
  unfold copyTuple TupleArray.copyTuple
  by_cases hw : src.width = t.width
  · rw [if_neg (not_not.2 (hwidth.2 hw)), if_neg (not_not.2 hw), tuple_flat overflow hsrc]
    by_cases hj : Overruns overflow src.width j
    · rw [if_pos hj, if_pos ⟨hw, .inl hj⟩]
    · rw [if_neg hj]
      cases hu : src.tuple? j with
      | none =>
        have hpast : ¬j < src.size := Nat.not_lt.2 (TupleArray.tuple?_eq_none.1 hu)
        rw [if_neg fun h => h.2.elim hj fun h => hpast h.1]
        rfl
      | some u =>
        have hthere := TupleArray.lt_size_of_tuple? hu
        dsimp only [Option.elim]
        rw [size_flat, write_flat overflow ht ((TupleArray.length_of_tuple? hu).trans hw)]
        by_cases hi : Overruns overflow t.width i
        · rw [if_pos hi, if_pos ⟨hw, .inr ⟨hthere, hi⟩⟩]
        · rw [if_neg hi, if_neg fun h => h.2.elim hj fun h => hi h.2]
          cases t.setTuple? i u <;> rfl
  · rw [if_pos fun h => hw (hwidth.1 h), if_pos hw, if_neg fun h => hw h.1]
    rfl

end Flat

/-! ## Tuples that an array has -/

/-- These are the tuples of the array, however it is asked for them. -/
structure Holds (overflow : Overflow) (a : FlatArray α) (ts : List (List α)) : Prop where
  size : a.size = .ok ts.length
  length : a.values.length = ts.length * a.width
  widths : ∀ u ∈ ts, u.length = a.width
  tuples : a.tuples = .ok ts
  /-- Past the end there is none, which may be a fault to find out. -/
  tuple? : ∀ i, a.tuple? overflow i = if Overruns overflow a.width i then .error .overflow else .ok ts[i]?
  there : ∀ i, (∃ u, a.tuple? overflow i = .ok (some u)) ↔ i < ts.length
  each : (List.range ts.length).map (a.tuple? overflow) = ts.map fun u => .ok (some u)

variable {overflow : Overflow}

theorem holds_flat {t : TupleArray α} (ht : Counted t) : t.flat.Holds overflow t.tuples where
  size := by rw [size_flat, TupleArray.length_tuples]
  length := by
    rw [TupleArray.length_tuples]
    exact t.size_mul_width.symm
  widths _ := TupleArray.length_of_mem_tuples
  tuples := tuples_flat t
  tuple? i := by
    rw [tuple?_flat overflow ht, TupleArray.getElem?_tuples]
    rfl
  there i := by rw [exists_tuple?_flat overflow ht, TupleArray.length_tuples]
  each := by rw [TupleArray.length_tuples, map_tuple?_flat overflow ht]

/-! ## What a call keeps -/

/-- The flat form of an array of that width, whose width and length are counts. -/
def IsFlat (width : Nat) (a : FlatArray α) : Prop := ∃ t : TupleArray α, a = t.flat ∧ t.width = width ∧ Counted t

variable {width : Nat} {a : FlatArray α}

theorem IsFlat.ofValues {values : List α} (hw : width ≤ maxCount) (hlen : values.length ≤ maxCount)
    (h : FlatArray.ofValues width values = .ok a) : IsFlat width a := by
  rw [ofValues_flat] at h
  unfold TupleArray.ofValues at h
  split at h
  next => cases h
  next =>
    split at h
    next => exact ⟨_, (Except.ok.inj h).symm, rfl, hw, hlen⟩
    next => cases h

theorem IsFlat.filled {value : α} {size : Nat} (hw : width ≤ maxCount) (hsize : overflow.Exact (size * width))
    (h : FlatArray.filled overflow value size width = .ok (.ok a)) : IsFlat width a := by
  rw [filled_flat value hsize] at h
  unfold TupleArray.filled at h
  split at h
  next => cases h
  next =>
    rw [Checked.map_count] at h
    split at h
    next hcount => exact ⟨_, (Except.ok.inj (Except.ok.inj h)).symm, rfl, hw, by rwa [List.length_replicate]⟩
    next => cases h

theorem IsFlat.resize {n : Nat} (value : α) (hn : overflow.Exact (n * width)) (h : IsFlat width a) :
    IsFlat width (a.resize overflow value n).2 := by
  obtain ⟨t, rfl, rfl, ht⟩ := h
  by_cases hcount : n * t.width ≤ maxCount
  · rw [resize_flat overflow value hcount]
    exact ⟨t.resized value n, rfl, rfl, ht.width, by rwa [TupleArray.length_resized]⟩
  · obtain rfl : overflow = .traps := hn.resolve_right hcount
    rw [resize_traps value (Nat.lt_of_not_le hcount)]
    exact ⟨t, rfl, rfl, ht⟩

theorem IsFlat.set (i : Nat) (value : α) (h : IsFlat width a) : IsFlat width (a.set i value).2 := by
  obtain ⟨t, rfl, rfl, ht⟩ := h
  rw [set_flat]
  unfold TupleArray.setValue?
  split
  next => exact ⟨_, rfl, rfl, ht.width, by rw [List.length_set]; exact ht.length⟩
  next => exact ⟨t, rfl, rfl, ht⟩

theorem IsFlat.write (i : Nat) (tuple : List α) (h : IsFlat width a) :
    IsFlat width (a.write overflow i tuple).2 := by
  obtain ⟨t, rfl, rfl, ht⟩ := h
  by_cases hfits : tuple.length = t.width
  · rw [write_flat overflow ht hfits]
    split
    next => exact ⟨t, rfl, rfl, ht⟩
    next =>
      cases hset : t.setTuple? i tuple with
      | none => exact ⟨t, rfl, rfl, ht⟩
      | some b =>
        obtain ⟨hw, hb⟩ := TupleArray.length_of_setTuple? hset
        exact ⟨b, rfl, hw, hw.trans_le ht.width, hb.trans_le ht.length⟩
  · rw [write_misfit overflow ht hfits]
    exact ⟨t, rfl, rfl, ht⟩

/-- Whatever is copied from, at most one tuple is written. -/
theorem copyTuple_leaves (overflow : Overflow) (a : FlatArray α) (i : Nat) (src : FlatArray α) (j : Nat) :
    (a.copyTuple overflow i src j).2 = a ∨
      ∃ tuple, (a.copyTuple overflow i src j).2 = (a.write overflow i tuple).2 := by
  unfold copyTuple
  split
  next => exact .inl rfl
  next =>
    split
    next => exact .inl rfl
    next => exact .inl rfl
    next tuple _ =>
      rcases a.size with f | size
      · exact .inl rfl
      · refine .inr ⟨tuple, ?_⟩
        obtain ⟨_ | _ | _, b⟩ := a.write overflow i tuple <;> rfl

theorem IsFlat.copyTuple (i : Nat) (src : FlatArray α) (j : Nat) (h : IsFlat width a) :
    IsFlat width (a.copyTuple overflow i src j).2 := by
  rcases a.copyTuple_leaves overflow i src j with hsame | ⟨tuple, hwrite⟩
  · rwa [hsame]
  · rw [hwrite]
    exact h.write i tuple

theorem IsFlat.leaves (value : α) {c : Call α} (hc : c.Exact overflow width) (h : IsFlat width a) :
    IsFlat width (c.leaves overflow value a) := by
  cases c with
  | resize size => exact h.resize value hc
  | copyTuple i src j => exact h.copyTuple i src j
  | write i tuple => exact h.write i tuple
  | set i v => exact h.set i v

/-- A reached array is the flat form of one of the width it was made with. -/
theorem Reached.isFlat {value : α} (h : Reached overflow value width a) : IsFlat width a := by
  induction h with
  | filled hw hsize h => exact .filled hw hsize h
  | ofValues hw hlen h => exact .ofValues hw hlen h
  | call c hc _ ih => exact ih.leaves value hc

/-! ## Copying and resizing -/

/-- Within range a copy sets a tuple. -/
theorem copyTuple_sets {t src : TupleArray α} (ht : Counted t) (hsrc : Counted src) {i j : Nat} {u : List α}
    (hw : src.width = t.width) (hi : i < t.size) (hu : src.tuple? j = some u) :
    ∃ b, t.flat.copyTuple overflow i src.flat j = (.ok (.ok ()), b) ∧ b.width = t.width ∧
      b.Holds overflow (t.tuples.set i u) := by
  have hj := TupleArray.lt_size_of_tuple? hu
  obtain ⟨b, hset, hwidth, htuples⟩ := TupleArray.setTuple?_eq_set hi ((TupleArray.length_of_tuple? hu).trans hw)
  have hcopy : t.copyTuple i src j = .ok b := TupleArray.copyTuple_eq_ok.2 ⟨hw, u, hu, hset⟩
  have hno : ¬(src.width = t.width ∧
      (Overruns overflow src.width j ∨ j < src.size ∧ Overruns overflow t.width i)) :=
    fun h => h.2.elim (not_overruns overflow hsrc hj) fun h => not_overruns overflow ht hi h.2
  refine ⟨b.flat, by rw [copyTuple_flat overflow ht hsrc, if_neg hno, hcopy], hwidth, ?_⟩
  rw [← htuples]
  exact holds_flat ⟨hwidth.trans_le ht.width, (TupleArray.length_of_setTuple? hset).2.trans_le ht.length⟩

/-- Out of range a copy leaves the array as it was. It is refused, or an index
overruns. -/
theorem copyTuple_refused {t src : TupleArray α} (ht : Counted t) (hsrc : Counted src) {i j : Nat}
    (h : ¬(src.width = t.width ∧ i < t.size ∧ j < src.size)) :
    ∃ r, t.flat.copyTuple overflow i src.flat j = (r, t.flat) ∧ ((∃ e, r = .ok (.error e)) ∨
      r = .error .overflow ∧ (Overruns overflow t.width i ∨ Overruns overflow src.width j)) := by
  rw [copyTuple_flat overflow ht hsrc]
  split
  next hover => exact ⟨_, rfl, .inr ⟨rfl, hover.2.elim .inr fun hover => .inl hover.2⟩⟩
  next =>
    obtain ⟨e, he⟩ := TupleArray.copyTuple_eq_error h
    rw [he]
    exact ⟨_, rfl, .inl ⟨e, rfl⟩⟩

/-- Resizing takes the first tuples and fills up. -/
theorem resize_takes (value : α) {t : TupleArray α} (ht : Counted t) {n : Nat} (hn : n * t.width ≤ maxCount) :
    ∃ b, t.flat.resize overflow value n = (.ok (), b) ∧ b.width = t.width ∧
      b.Holds overflow (t.tuples.take n ++ .replicate (n - t.tuples.length) (.replicate t.width value)) := by
  refine ⟨(t.resized value n).flat, resize_flat overflow value hn, rfl, ?_⟩
  rw [TupleArray.length_tuples, ← TupleArray.tuples_resized]
  exact holds_flat ⟨ht.width, by rwa [TupleArray.length_resized]⟩

/-- A reached array has the width it was made with, at least one, and all there
is to read from it are its tuples. A copy from another one sets a tuple if the
widths agree and both indices are in range, and else it leaves the array as it
was. Resizing keeps the first tuples and fills up with others. If these are too
many to be counted, then either resizing is a fault and the array as it was, or
it ends with fewer tuples than were asked for. -/
theorem reached_tuples {value : α} {width : Nat} {a : FlatArray α} (h : Reached overflow value width a) :
    0 < width ∧ a.width = width ∧ ∃ ts, a.Holds overflow ts ∧
      (∀ (k : Nat) (src : FlatArray α), Reached overflow value k src → ∃ us, src.Holds overflow us ∧ ∀ i j : Nat,
        (k = width → i < ts.length → ∀ u, us[j]? = some u →
          ∃ b, a.copyTuple overflow i src j = (.ok (.ok ()), b) ∧ b.width = width ∧ b.Holds overflow (ts.set i u)) ∧
        (¬(k = width ∧ i < ts.length ∧ j < us.length) →
          ∃ r, a.copyTuple overflow i src j = (r, a) ∧ ((∃ e, r = .ok (.error e)) ∨
            r = .error .overflow ∧ (Overruns overflow width i ∨ Overruns overflow k j)))) ∧
      ∀ n : Nat,
        (n * width ≤ maxCount → ∃ b, a.resize overflow value n = (.ok (), b) ∧ b.width = width ∧
          b.Holds overflow (ts.take n ++ .replicate (n - ts.length) (.replicate width value))) ∧
        (maxCount < n * width → (overflow = .traps ∧ a.resize overflow value n = (.error .overflow, a)) ∨
          (overflow = .wraps ∧ ∃ b k, a.resize overflow value n = (.ok (), b) ∧ b.size = .ok k ∧ k < n)) := by
  obtain ⟨t, rfl, rfl, ht⟩ := h.isFlat
  refine ⟨t.width_pos, rfl, t.tuples, holds_flat ht, fun k src hsrc => ?_,
    fun n => ⟨resize_takes value ht, fun hn => ?_⟩⟩
  · obtain ⟨s, rfl, rfl, hs⟩ := hsrc.isFlat
    refine ⟨s.tuples, holds_flat hs, fun i j => ⟨fun hw hi u hu => ?_, fun hno => copyTuple_refused ht hs ?_⟩⟩
    · rw [TupleArray.length_tuples] at hi
      rw [TupleArray.getElem?_tuples] at hu
      exact copyTuple_sets ht hs hw hi hu
    · rwa [TupleArray.length_tuples, TupleArray.length_tuples] at hno
  · cases overflow with
    | traps => exact .inl ⟨rfl, resize_traps value hn⟩
    | wraps => exact .inr ⟨rfl, resize_wraps value hn⟩

/-- Two tuples of width two. -/
def samplePairs : FlatArray Nat := ⟨2, [7, 8, 9, 10]⟩

/-- The sample with room for a third tuple. -/
def sampleThree : FlatArray Nat := ⟨2, [7, 8, 9, 10, 0, 0]⟩

/-- The second tuple is copied into the room for a third. There is no third one
to be copied from the sample itself. -/
theorem reached_tuples_pairs :
    Reached .wraps 0 2 samplePairs ∧ samplePairs.resize .wraps 0 3 = (.ok (), sampleThree) ∧
      Reached .wraps 0 2 sampleThree ∧
      (∃ b, sampleThree.copyTuple .wraps 2 samplePairs 1 = (.ok (.ok ()), b) ∧
        b.Holds .wraps [[7, 8], [9, 10], [9, 10]]) ∧
      ∃ r, sampleThree.copyTuple .wraps 2 samplePairs 2 = (r, sampleThree) := by
  have hpairs : Reached .wraps 0 2 samplePairs :=
    .ofValues (by decide) (show ([7, 8, 9, 10] : List Nat).length ≤ maxCount by decide) rfl
  have hthree : Reached .wraps 0 2 sampleThree := .call (.resize 3) (show Overflow.wraps.Exact (3 * 2) by decide) hpairs
  obtain ⟨-, -, ts, hts, hcopy, -⟩ := reached_tuples hthree
  obtain ⟨us, hus, hcopied⟩ := hcopy 2 samplePairs hpairs
  obtain rfl : [[7, 8], [9, 10], [0, 0]] = ts := Except.ok.inj hts.tuples
  obtain rfl : [[7, 8], [9, 10]] = us := Except.ok.inj hus.tuples
  obtain ⟨b, hb, -, hholds⟩ := (hcopied 2 1).1 rfl (by decide) _ rfl
  obtain ⟨r, hr, -⟩ := (hcopied 2 2).2 (by decide)
  exact ⟨hpairs, rfl, hthree, ⟨b, hb, hholds⟩, r, hr⟩

/-- Three times this number is two more than `maxCount + 1`. -/
def tooMany : Nat := 6148914691236517206

/-- Asked for that many triples, an array has two values, or what asks ends in a
fault. And a fault it is, where overflow traps, to ask for the last tuple that
could be. -/
theorem resize_overflows :
    Reached .wraps 0 3 (⟨3, []⟩ : FlatArray Nat) ∧ Reached .traps 0 1 (⟨1, []⟩ : FlatArray Nat) ∧
      FlatArray.resize .wraps 0 ⟨3, []⟩ tooMany = (.ok (), ⟨3, [0, 0]⟩) ∧
      FlatArray.resize .traps 0 ⟨3, []⟩ tooMany = (.error .overflow, ⟨3, []⟩) ∧
      (⟨1, []⟩ : FlatArray Nat).tuple? .traps maxCount = .error .overflow := by
  have hnone : ([] : List Nat).length ≤ maxCount := Nat.zero_le _
  exact ⟨.ofValues (by decide) hnone rfl, .ofValues (by decide) hnone rfl, rfl, rfl, rfl⟩

end Wireframe.FlatArray
