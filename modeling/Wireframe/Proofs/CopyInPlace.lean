import Wireframe.CopyInPlace
import Wireframe.Proofs.CompleteCrop
import Wireframe.Proofs.RefusedCopy
/-!
# A copy in place is made or refused

A masked copy checks the types, the widths, the length of the mask and the
number of kept tuples, in this order, and the first check that fails is
reported. After that no tuple is out of range: the kept indices lie in the
source, and they are as many as the destination has tuples. So a copy that
fails has not written anything.
-/

namespace Wireframe

variable {κ : Type}

/-- What is left of a destination by an operation that gives it a new value or
fails without touching it. -/
def settle {β : Type} (dst : β) : Except Error β → Except Error Unit × β
  | .ok b => (.ok (), b)
  | .error e => (.error e, dst)

section Settle

variable {β : Type} {dst : β} {r : Except Error β}

theorem settle_eq_ok : (settle dst r).1 = .ok () ↔ ∃ b, r = .ok b := by
  cases r <;> simp [settle]

theorem settle_eq_error {e : Error} : (settle dst r).1 = .error e ↔ r = .error e := by
  cases r <;> simp [settle]

theorem settle_of_error {e : Error} (h : (settle dst r).1 = .error e) : (settle dst r).2 = dst := by
  rw [settle_eq_error.1 h, settle]

end Settle

/-! ## Copies in place -/

namespace InPlace

section Tuples

variable {α : Type} {src dst d : TupleArray α}

/-- Where all tuples can be copied, copying them in place leaves the same. -/
theorem copyTuples_of_foldlM {pairs : List (Nat × Nat)}
    (h : pairs.foldlM (fun d (j, i) => d.copyTuple i src j) dst = .ok d) :
    copyTuples src pairs dst = (.ok (), d) := by
  induction pairs generalizing dst with
  | nil => cases h; rfl
  | cons pair pairs ih =>
    rw [List.foldlM_cons] at h
    obtain ⟨j, i⟩ := pair
    rw [copyTuples]
    cases hc : dst.copyTuple i src j with
    | error e => simp only [hc] at h; cases h
    | ok d' =>
      simp only [hc] at h
      exact ih h

/-- After the checks every tuple is copied, so what is left is all or nothing. -/
theorem copyKept_eq (name : String) (mask : Mask) (src dst : TupleArray α) :
    copyKept name mask src dst = settle dst (src.copyMasked name mask dst) := by
  unfold copyKept TupleArray.copyMasked
  split_ifs with hw hm hk
  · rfl
  · rfl
  · rfl
  · have hok : src.copyMasked name mask dst = .ok (src.select mask) :=
      TupleArray.copyMasked_eq_ok.2 ⟨⟨not_not.1 hw, not_not.1 hm, not_not.1 hk⟩, rfl⟩
    rw [TupleArray.copyMasked, if_neg hw, if_neg hm, if_neg hk] at hok
    rw [copyTuples_of_foldlM hok, hok, settle]

end Tuples

theorem copyMasked_eq (name : String) (mask : Mask) (src dst : TypedArray κ) :
    copyMasked name mask src dst = settle dst (src.copyMasked name mask dst) := by
  unfold copyMasked TypedArray.copyMasked
  cases src.as? dst.type with
  | none => rfl
  | some array =>
    dsimp only
    rw [copyKept_eq]
    cases array.copyMasked name mask dst.array <;> rfl

end InPlace

/-- A masked copy in place is made or refused. It is made exactly when both
arrays have one type and one width, the mask is as long as the source and
keeps as many tuples as the destination has. Then the destination holds the
tuples at the kept indices of the source, in their order. Otherwise it is
unchanged, and the first condition that is not met is reported. -/
theorem InPlace.copyMasked_all_or_nothing (name : String) (mask : Mask) (src dst : TypedArray κ) :
    let run := InPlace.copyMasked name mask src dst
    (run.1 = .ok () ↔ src.type = dst.type ∧ src.width = dst.width ∧ mask.length = src.size ∧
        mask.kept = dst.size) ∧
      (run.1 = .ok () → src.Gathers mask.indices run.2 ∧ run.2.type = dst.type ∧ run.2.width = dst.width ∧
        run.2.size = dst.size) ∧
      (∀ e, run.1 = .error e ↔ src.Misfit name mask dst e) ∧ (∀ e, run.1 = .error e → run.2 = dst) ∧
      ∀ i n, run.1 ≠ .error (.tupleOutOfRange i n) := by
  intro run
  have hrun : run = settle dst (src.copyMasked name mask dst) := copyMasked_eq name mask src dst
  have hok : run.1 = .ok () ↔ src.Fits mask dst := by
    rw [hrun, settle_eq_ok]
    simp only [TypedArray.copyMasked_eq_ok, exists_and_left, exists_eq, and_true]
  have herror : ∀ e, run.1 = .error e ↔ src.Misfit name mask dst e := fun e => by
    rw [hrun, settle_eq_error, TypedArray.copyMasked_eq_error]
  refine ⟨hok.trans ?_, fun h => ?_, herror, fun e h => ?_, fun i n h => ?_⟩
  · exact ⟨fun h => ⟨h.type, h.width, h.length, h.kept⟩, fun ⟨ht, hw, hl, hk⟩ => ⟨ht, hw, hl, hk⟩⟩
  · have hf := hok.1 h
    have hleft : run.2 = src.select mask := by
      rw [hrun, TypedArray.copyMasked_eq_ok.2 ⟨hf, rfl⟩, settle]
    rw [hleft]
    exact ⟨TypedArray.gathers_select hf.length, hf.type, hf.width, (TupleArray.size_select hf.length).trans hf.kept⟩
  · rw [hrun] at h ⊢
    exact settle_of_error h
  · cases (herror _).1 h

end Wireframe
