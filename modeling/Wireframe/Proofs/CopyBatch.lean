import Wireframe.Proofs.CopyInPlace
/-!
# How a batch of copies ends

A copy reads and writes the array of its own name only, so whether it can be
made is settled before its batch begins. While the flag is down the copies are
therefore made in the order of the names up to the first that cannot be made,
and what the others would have written is as it was.
-/

namespace Wireframe

variable {κ : Type}

namespace InPlace

variable {mask : Mask} {src dst m : AttributeMatrix κ} {name : String} {names : List String}

/-! ## One array of a matrix -/

theorem copyArray_eq (mask : Mask) (src dst : AttributeMatrix κ) (name : String) :
    copyArray mask src dst name = settle dst (AttributeMatrix.copyArray mask src dst name) := by
  unfold copyArray AttributeMatrix.copyArray
  cases src.get name with
  | error e => rfl
  | ok a =>
    cases hb : dst.get name with
    | error e => rfl
    | ok b =>
      dsimp only
      rw [copyMasked_eq]
      cases hc : a.copyMasked name mask b with
      | error e =>
        -- the untouched array is put back in its own place
        have hput : dst.put name b = dst := AttributeMatrix.put_self (AttributeMatrix.get_eq_ok.1 hb)
        simp only [hc, hput, settle, bind, Except.bind]
      | ok c => simp only [hc, settle, bind, Except.bind, pure, Except.pure]

/-- An array is copied over its namesake. -/
theorem copyArray_pair {a b : TypedArray κ} (ha : src.arrays.find? name = some a)
    (hb : dst.arrays.find? name = some b) :
    (copyArray mask src dst name).1 = (copyMasked name mask a b).1 := by
  rw [copyArray, AttributeMatrix.get_eq_ok.2 ha, AttributeMatrix.get_eq_ok.2 hb]

/-- A copy that is made puts the kept tuples of its source in their place. -/
theorem copyArray_ok (h : (copyArray mask src dst name).1 = .ok ()) :
    ∃ a b, src.arrays.find? name = some a ∧ dst.arrays.find? name = some b ∧
      copyArray mask src dst name = (.ok (), dst.put name (a.select mask)) := by
  rw [copyArray_eq] at h ⊢
  obtain ⟨d, hd⟩ := settle_eq_ok.1 h
  obtain ⟨a, b, ha, hb, -, rfl⟩ := AttributeMatrix.copyArray_eq_ok.1 hd
  exact ⟨a, b, ha, hb, by rw [hd, settle]⟩

theorem copyArray_error {e : Error} (h : (copyArray mask src dst name).1 = .error e) :
    copyArray mask src dst name = (.error e, dst) := by
  refine Prod.ext h ?_
  rw [copyArray_eq] at h ⊢
  exact settle_of_error h

/-- Whether a copy can be made depends on the array that it writes over and on
no other. -/
theorem copyArray_congr (hname : m.name = dst.name) (h : m.arrays.find? name = dst.arrays.find? name) :
    (copyArray mask src m name).1 = (copyArray mask src dst name).1 := by
  have hget : m.get name = dst.get name := by
    unfold AttributeMatrix.get
    rw [h, hname]
  unfold copyArray
  rw [hget]
  cases src.get name <;> cases dst.get name <;> rfl

/-! ## Batches -/

/-- One copy for each array of the destination, in the order of the names,
from its namesake in the source. -/
structure Paired (mask : Mask) (src dst : AttributeMatrix κ) (names : List String) : Prop where
  sorted : names.Pairwise (byteOrder · · = .lt)
  all : ∀ k, k ∈ names ↔ k ∈ dst.names
  pair : ∀ k ∈ names, ∃ a b, src.arrays.find? k = some a ∧ dst.arrays.find? k = some b ∧
    (copyArray mask src dst k).1 = (copyMasked k mask a b).1

theorem paired_names (mask : Mask) (h : src.names = dst.names) : Paired mask src dst dst.names where
  sorted := SortedMap.keys_sorted _
  all _ := Iff.rfl
  pair k hk := by
    obtain ⟨a, ha⟩ := AttributeMatrix.mem_names.1 (h ▸ hk)
    obtain ⟨b, hb⟩ := AttributeMatrix.mem_names.1 hk
    exact ⟨a, b, ha, hb, copyArray_pair ha hb⟩

/-- The copies of a batch leave in place what they leave elsewhere, those that
are not made included. -/
theorem copyArrays_eq (schedule : Schedule) (mask : Mask) (src : AttributeMatrix κ) (names : List String)
    (dst : AttributeMatrix κ) (p : Progress) :
    copyArrays schedule mask src names dst p = AttributeMatrix.copyArrays schedule mask src names dst p := by
  induction names generalizing dst p with
  | nil => rfl
  | cons n names ih =>
    rw [copyArrays, AttributeMatrix.copyArrays]
    split
    · rw [ih]
    · rw [copyArray_eq]
      cases AttributeMatrix.copyArray mask src dst n with
      | error e => rfl
      | ok m => exact ih m p.read

/-- Of `dst` the named arrays are overwritten by their namesakes of `src`,
compacted by the mask, and nothing else is. -/
structure Copied (mask : Mask) (src dst : AttributeMatrix κ) (names : List String) (m : AttributeMatrix κ) : Prop where
  name : m.name = dst.name
  size : m.size = dst.size
  array : ∀ k, m.arrays.find? k =
    if k ∈ names then (src.arrays.find? k).map (·.select mask) else dst.arrays.find? k

theorem Copied.nil (mask : Mask) (src dst : AttributeMatrix κ) : Copied mask src dst [] dst where
  name := rfl
  size := rfl
  array _ := rfl

/-- An array that was not overwritten is copied as it would have been at first. -/
theorem Copied.same (hm : Copied mask src dst names m) (hn : name ∉ names) :
    (copyArray mask src m name).1 = (copyArray mask src dst name).1 := by
  refine copyArray_congr hm.name ?_
  rw [hm.array, if_neg hn]

theorem Copied.step (hm : Copied mask src dst names m) (h : (copyArray mask src m name).1 = .ok ()) :
    Copied mask src dst (names ++ [name]) (copyArray mask src m name).2 := by
  obtain ⟨a, b, ha, hb, hcopy⟩ := copyArray_ok h
  rw [hcopy]
  refine ⟨hm.name, hm.size, fun k => ?_⟩
  by_cases hk : k = name
  · subst hk
    rw [if_pos (by simp), AttributeMatrix.find?_put_self m _ hb, ha, Option.map_some]
  · simp only [AttributeMatrix.find?_put_of_ne m _ hk, hm.array, List.mem_append, List.mem_singleton, hk, or_false]

/-- How a batch ends while the flag is down: all copies are made, or those
before the first that cannot be made. -/
inductive BatchEnds (mask : Mask) (src dst : AttributeMatrix κ) (names : List String) :
    Except Error Bool → AttributeMatrix κ → Prop
  | complete {m : AttributeMatrix κ} (h : ∀ n ∈ names, (copyArray mask src dst n).1 = .ok ())
      (hm : Copied mask src dst names m) : BatchEnds mask src dst names (.ok true) m
  | failed {m : AttributeMatrix κ} {before after : List String} {k : String} {e : Error}
      (hnames : names = before ++ k :: after) (h : ∀ n ∈ before, (copyArray mask src dst n).1 = .ok ())
      (hk : (copyArray mask src dst k).1 = .error e) (hm : Copied mask src dst before m) :
    BatchEnds mask src dst names (.error e) m

theorem copyArrays_never (done rest : List String) (m : AttributeMatrix κ) (p : Progress)
    (hm : Copied mask src dst done m) (hdone : ∀ n ∈ done, (copyArray mask src dst n).1 = .ok ())
    (hnodup : (done ++ rest).Nodup) :
    BatchEnds mask src dst (done ++ rest) (copyArrays .never mask src rest m p).1
      (copyArrays .never mask src rest m p).2.1 := by
  -- `done` are the copies made so far
  induction rest generalizing done m p with
  | nil =>
    rw [List.append_nil]
    exact .complete hdone hm
  | cons k rest ih =>
    have hk : k ∉ done := fun h => List.disjoint_of_nodup_append hnodup h List.mem_cons_self
    have hsame := hm.same hk
    rw [copyArrays, if_neg (by simp [Progress.cancelled, Schedule.never])]
    cases hc : (copyArray mask src dst k).1 with
    | error e =>
      rw [copyArray_error (hsame.trans hc)]
      exact .failed rfl hdone hc hm
    | ok u =>
      obtain ⟨⟩ := u
      have hstep := hm.step (hsame.trans hc)
      obtain ⟨a, -, -, -, hcopy⟩ := copyArray_ok (hsame.trans hc)
      rw [hcopy] at hstep ⊢
      rw [List.append_cons] at hnodup ⊢
      refine ih (done ++ [k]) _ p.read hstep (fun n hn => ?_) hnodup
      rcases List.mem_append.1 hn with hn | hn
      · exact hdone n hn
      · rw [List.mem_singleton.1 hn, hc]

/-- While the flag is up nothing is copied. -/
theorem copyArrays_always (names : List String) (dst : AttributeMatrix κ) (p : Progress) :
    (copyArrays .always mask src names dst p).1 = .ok names.isEmpty ∧
      (copyArrays .always mask src names dst p).2.1 = dst := by
  induction names generalizing p with
  | nil => exact ⟨rfl, rfl⟩
  | cons n names ih =>
    obtain ⟨hresult, hdst⟩ := ih p.read
    have hup : p.cancelled .always = true := rfl
    rw [copyArrays, if_pos hup]
    exact ⟨congrArg (Except.map fun _ => false) hresult, hdst⟩

end InPlace

/-- The copies of two matrices are begun exactly when both have the same
names, and are those that `Paired` tells; otherwise the first name without a
namesake is reported and nothing is changed. In place they leave what
`AttributeMatrix.copyArrays` gives. With the flag down the batch ends as
`BatchEnds` tells. With the flag up from the start nothing is copied, and the
batch is complete only if it has no copies to make. -/
theorem InPlace.copyMatrix_outcomes (mask : Mask) (src dst : AttributeMatrix κ) (p : Progress) :
    let down := InPlace.copyMatrix .never mask src dst p
    let up := InPlace.copyMatrix .always mask src dst p
    ((∃ names, src.copyNames dst = .ok names) ↔ ∀ k, k ∈ src.names ↔ k ∈ dst.names) ∧
      (∀ e, src.copyNames dst = .error e → src.Unpaired dst e ∧
        ∀ schedule, InPlace.copyMatrix schedule mask src dst p = (.error e, dst, p)) ∧
      ∀ names, src.copyNames dst = .ok names →
        InPlace.Paired mask src dst names ∧
          (∀ schedule, InPlace.copyMatrix schedule mask src dst p =
            AttributeMatrix.copyArrays schedule mask src names dst p) ∧
          InPlace.BatchEnds mask src dst names down.1 down.2.1 ∧ up.1 = .ok names.isEmpty ∧ up.2.1 = dst := by
  intro down up
  refine ⟨?_, fun e h => ⟨AttributeMatrix.unpaired_of_error h, fun schedule => ?_⟩, fun names h => ?_⟩
  · have hkeys : src.names = dst.names ↔ ∀ k, k ∈ src.names ↔ k ∈ dst.names := SortedMap.keys_eq_iff
    rw [← hkeys]
    constructor
    · rintro ⟨names, h⟩
      exact (AttributeMatrix.copyNames_eq_ok.1 h).1
    · intro h
      exact ⟨dst.names, AttributeMatrix.copyNames_eq_ok.2 ⟨h, rfl⟩⟩
  · rw [copyMatrix, h]
  · have hrun : ∀ schedule, copyMatrix schedule mask src dst p = copyArrays schedule mask src names dst p :=
      fun schedule => by rw [copyMatrix, h]
    obtain ⟨hnames, rfl⟩ := AttributeMatrix.copyNames_eq_ok.1 h
    have hdown : down = copyArrays .never mask src dst.names dst p := hrun .never
    have hup : up = copyArrays .always mask src dst.names dst p := hrun .always
    rw [hdown, hup]
    refine ⟨paired_names mask hnames, fun schedule => ?_, ?_, copyArrays_always _ dst p⟩
    · rw [hrun, copyArrays_eq]
    · exact copyArrays_never [] _ dst p (.nil mask src dst) (fun n hn => (List.not_mem_nil hn).elim)
        (SortedMap.keys_nodup dst.arrays)

end Wireframe
