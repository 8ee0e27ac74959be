import Wireframe.Proofs.Clip
import Wireframe.Proofs.Filter
/-!
# The boxes that the preflight lets through

The preflight refuses a cropped axis whose upper bound lies below its lower
one. What is not a number lies below nothing, so an axis with such a bound is
let through, and then no point is inside the box. Otherwise no lower bound is
above the upper one and the lower corner is inside, for an axis that is not
cropped lies between the infinities.
-/

namespace Wireframe

open Coordinate

variable {κ : Type} [Coordinate κ]

namespace Box

/-- No bound is above the other or not a number. -/
def WellFormed (b : Box κ) : Prop := ∀ a, le (b.lo.coord a) (b.hi.coord a) = true

/-- A box is well-formed if there is a point inside, and the other way round. -/
theorem exists_contains_iff [OrderedCoordinate κ] {b : Box κ} : (∃ p, b.contains p = true) ↔ b.WellFormed := by
  constructor
  · rintro ⟨p, hp⟩ a
    obtain ⟨hlo, hhi⟩ := contains_iff.1 hp a a.mem_all
    exact OrderedCoordinate.trans hlo hhi
  · intro h
    refine ⟨b.lo, contains_iff.2 fun a _ => ⟨?_, h a⟩⟩
    exact le_self (OrderedCoordinate.number_of_le (h a)).1

theorem lo_ofAxes (crop : Axis → Bool) (lo hi : Point κ) (a : Axis) :
    (ofAxes crop lo hi).lo.coord a = if crop a then lo.coord a else negInf :=
  Point.coord_ofCoords _ a

theorem hi_ofAxes (crop : Axis → Bool) (lo hi : Point κ) (a : Axis) :
    (ofAxes crop lo hi).hi.coord a = if crop a then hi.coord a else posInf :=
  Point.coord_ofCoords _ a

end Box

namespace CropParameters

/-- Where an axis is cropped its bounds are numbers. -/
def NumericRange (v : CropParameters κ) (a : Axis) : Prop :=
  v.crops a = true → isNaN (v.lo.coord a) = false ∧ isNaN (v.hi.coord a) = false

variable {v : CropParameters κ} {s : GeometryStore κ} {check : Preflight}

theorem not_inverted (h : v.invertedAxes = []) {a : Axis} (ha : v.crops a = true) :
    lt (v.hi.coord a) (v.lo.coord a) = false := by
  have hall := List.filter_eq_nil_iff.1 h a a.mem_all
  simpa [ha] using hall

variable [BoundedCoordinate κ]

theorem le_bounds_iff (h : v.invertedAxes = []) (a : Axis) :
    le (v.bounds.lo.coord a) (v.bounds.hi.coord a) = true ↔ v.NumericRange a := by
  rw [bounds, Box.lo_ofAxes, Box.hi_ofAxes]
  cases ha : v.crops a with
  | false =>
    have hopen : le (negInf : κ) posInf = true := by
      have hzero := OrderedCoordinate.isNaN_zero (κ := κ)
      exact OrderedCoordinate.trans (BoundedCoordinate.negInf_le hzero) (BoundedCoordinate.le_posInf hzero)
    refine iff_of_true hopen fun hc => ?_
    rw [ha] at hc
    cases hc
  | true =>
    simp only [NumericRange, ha, if_true, forall_const]
    constructor
    · exact OrderedCoordinate.number_of_le
    · rintro ⟨hlo, hhi⟩
      exact le_of_lt_eq_false hlo hhi (not_inverted h ha)

/-- After the preflight the box is well-formed on every axis that is not
cropped or whose bounds are numbers, and on no other. There is a point inside
if that is so on all axes. -/
theorem bounds_of_preflight (h : v.preflight s = .ok check) :
    (∀ a, le (v.bounds.lo.coord a) (v.bounds.hi.coord a) = true ↔ v.NumericRange a) ∧
      ((∃ p, v.bounds.contains p = true) ↔ ∀ a, v.NumericRange a) := by
  obtain ⟨-, -, -, hranges, -⟩ := preflight_eq_ok.1 h
  refine ⟨le_bounds_iff hranges, ?_⟩
  rw [Box.exists_contains_iff]
  exact forall_congr' (le_bounds_iff hranges)

theorem bounds_of_preflight_line :
    cropLine.preflight lineStore = .ok ⟨[vertexDataWarning], summaryText ++ "X", croppedPath⟩ ∧
      (∀ a, le (cropLine.bounds.lo.coord a) (cropLine.bounds.hi.coord a) = true) ∧
      ∃ p, cropLine.bounds.contains p = true := by
  have hp : cropLine.preflight lineStore = .ok ⟨[vertexDataWarning], summaryText ++ "X", croppedPath⟩ := by
    with_unfolding_all rfl
  have hnumbers : ∀ a, cropLine.NumericRange a := by
    intro a _
    cases a <;> decide +kernel
  obtain ⟨haxes, hpoint⟩ := bounds_of_preflight hp
  exact ⟨hp, fun a => (haxes a).2 (hnumbers a), hpoint.2 hnumbers⟩

/-- The sample crop, with a lower bound that is not a number. -/
def cropLineNowhere : CropParameters Float32 := { cropLine with lo := ⟨0 / 0, 0, 0⟩ }

/-- A bound that is not a number passes the preflight, and its box is empty. -/
theorem preflight_passes_nan :
    cropLineNowhere.preflight lineStore = .ok ⟨[vertexDataWarning], summaryText ++ "X", croppedPath⟩ ∧
      le (cropLineNowhere.bounds.lo.coord .x) (cropLineNowhere.bounds.hi.coord .x) = false ∧
      ∀ p, cropLineNowhere.bounds.contains p = false := by
  have hx : le (cropLineNowhere.bounds.lo.coord .x) (cropLineNowhere.bounds.hi.coord .x) = false := by
    decide +kernel
  refine ⟨by with_unfolding_all rfl, hx, fun p => ?_⟩
  rw [← Bool.not_eq_true]
  intro hp
  have hwell := Box.exists_contains_iff.1 ⟨p, hp⟩ .x
  rw [hx] at hwell
  cases hwell

end CropParameters

end Wireframe
