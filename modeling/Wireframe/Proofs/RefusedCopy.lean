import Wireframe.Proofs.MaskedCopy
/-!
# Why copies are refused

The checks of a masked copy are made in one order, and the first that fails is
reported. A copy that is refused is therefore told apart from one that is made
by what it reports, and nothing else is ever reported.

Before the copies of two matrices are made their names are compared, first
those of the source with those of the destination, then the other way round.
The first name without a namesake is reported, with the matrix that lacks it.
-/

namespace Wireframe

variable {κ : Type}

/-! ## One array -/

namespace TypedArray

/-- The first condition of a copy that two arrays and a mask do not meet. -/
inductive Misfit (name : String) (mask : Mask) (a b : TypedArray κ) : Error → Prop
  | type (h : a.type ≠ b.type) : Misfit name mask a b (.typeMismatch name b.type a.type)
  | width (ht : a.type = b.type) (h : a.width ≠ b.width) :
    Misfit name mask a b (.widthMismatch name b.width a.width)
  | length (ht : a.type = b.type) (hw : a.width = b.width) (h : mask.length ≠ a.size) :
    Misfit name mask a b (.tupleCountMismatch "copy mask" name mask.length a.size)
  | kept (ht : a.type = b.type) (hw : a.width = b.width) (hl : mask.length = a.size) (h : mask.kept ≠ b.size) :
    Misfit name mask a b (.tupleCountMismatch "copy destination" name mask.kept b.size)

variable {name : String} {mask : Mask} {a b : TypedArray κ} {e : Error}

theorem fits_or_misfit (name : String) (mask : Mask) (a b : TypedArray κ) :
    a.Fits mask b ∨ ∃ e, Misfit name mask a b e := by
  by_cases ht : a.type = b.type
  case neg => exact .inr ⟨_, .type ht⟩
  by_cases hw : a.width = b.width
  case neg => exact .inr ⟨_, .width ht hw⟩
  by_cases hl : mask.length = a.size
  case neg => exact .inr ⟨_, .length ht hw hl⟩
  by_cases hk : mask.kept = b.size
  case neg => exact .inr ⟨_, .kept ht hw hl hk⟩
  exact .inl ⟨ht, hw, hl, hk⟩

/-- Arrays of one type are copied as arrays of tuples. -/
theorem copyMasked_of_type {t : ScalarType} (x y : TupleArray (t.Value κ)) :
    copyMasked name mask ⟨t, x⟩ ⟨t, y⟩ = (x.copyMasked name mask y).map (⟨t, ·⟩) := by
  unfold copyMasked as?
  simp only [dite_true]
  cases x.copyMasked name mask y <;> rfl

theorem copyMasked_of_misfit (h : Misfit name mask a b e) : a.copyMasked name mask b = .error e := by
  obtain ⟨t, x⟩ := a
  obtain ⟨u, y⟩ := b
  cases h with
  | type h =>
    have has : as? (⟨t, x⟩ : TypedArray κ) u = none := dif_neg h
    rw [copyMasked, has]
  | width ht h =>
    cases ht
    replace h : x.width ≠ y.width := h
    rw [copyMasked_of_type, TupleArray.copyMasked, if_pos h]
    rfl
  | length ht hw h =>
    cases ht
    replace hw : x.width = y.width := hw
    replace h : mask.length ≠ x.size := h
    rw [copyMasked_of_type, TupleArray.copyMasked, if_neg (not_not.2 hw), if_pos h]
    rfl
  | kept ht hw hl h =>
    cases ht
    replace hw : x.width = y.width := hw
    replace hl : mask.length = x.size := hl
    replace h : mask.kept ≠ y.size := h
    rw [copyMasked_of_type, TupleArray.copyMasked, if_neg (not_not.2 hw), if_neg (not_not.2 hl), if_pos h]
    rfl

/-- A copy is refused for the first condition that is not met and for nothing else. -/
theorem copyMasked_eq_error : a.copyMasked name mask b = .error e ↔ Misfit name mask a b e := by
  refine ⟨fun h => ?_, copyMasked_of_misfit⟩
  obtain hf | ⟨e', h'⟩ := fits_or_misfit name mask a b
  · rw [copyMasked_eq_ok.2 ⟨hf, rfl⟩] at h
    cases h
  · rw [copyMasked_of_misfit h', Except.error.injEq] at h
    exact h ▸ h'

end TypedArray

/-! ## The names of two matrices -/

namespace AttributeMatrix

/-- The first name that only one of two matrices has, those of `src` going
first. -/
inductive Unpaired (src dst : AttributeMatrix κ) : Error → Prop
  | source {before after : List String} {k : String} (h : src.names = before ++ k :: after)
      (hbefore : ∀ n ∈ before, n ∈ dst.names) (hk : k ∉ dst.names) :
    Unpaired src dst (.missingArray dst.name k)
  | destination {before after : List String} {k : String} (hsrc : ∀ n ∈ src.names, n ∈ dst.names)
      (h : dst.names = before ++ k :: after) (hbefore : ∀ n ∈ before, n ∈ src.names) (hk : k ∉ src.names) :
    Unpaired src dst (.missingArray src.name k)

theorem unpaired_of_error {src dst : AttributeMatrix κ} {e : Error} (h : src.copyNames dst = .error e) :
    Unpaired src dst e := by
  unfold copyNames at h
  split at h
  next k hk =>
    cases h
    obtain ⟨before, after, hnames, hbefore, hno⟩ := find?_missing hk
    exact .source hnames hbefore hno
  next hnone =>
    split at h
    next k hk =>
      cases h
      obtain ⟨before, after, hnames, hbefore, hno⟩ := find?_missing hk
      exact .destination (find?_missing_eq_none.1 hnone) hnames hbefore hno
    next => cases h

end AttributeMatrix

end Wireframe
