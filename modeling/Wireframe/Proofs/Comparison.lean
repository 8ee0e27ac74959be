import Wireframe.Coordinate.Exact
import Mathlib.Data.Prod.Lex
/-!
# Comparing coordinates

A comparison is false as soon as one side is not a number, and it orders all
numbers, the infinities at the ends. It need not tell them apart: the zeros of
either sign lie below each other. So much holds of exact coordinates and of
floats of both sizes, and where arithmetic may round nothing more is used.

The lesser and the greater of two coordinates are read off the comparison. What
is not a number gives way to the other one, so that a number stays one and is
only ever moved in one direction.
-/

namespace Wireframe

open Coordinate

/-- Coordinates whose comparison is a total preorder of the numbers among them. -/
class OrderedCoordinate (κ : Type) [Coordinate κ] : Prop where
  number_of_le {a b : κ} : le a b = true → isNaN a = false ∧ isNaN b = false
  trans {a b c : κ} : le a b = true → le b c = true → le a c = true
  total {a b : κ} : isNaN a = false → isNaN b = false → le a b = true ∨ le b a = true
  isNaN_zero : isNaN (zero : κ) = false
  isNaN_one : isNaN (one : κ) = false

/-- Coordinates whose numbers lie between the two infinities. -/
class BoundedCoordinate (κ : Type) [Coordinate κ] : Prop extends OrderedCoordinate κ where
  negInf_le {a : κ} : isNaN a = false → le negInf a = true
  le_posInf {a : κ} : isNaN a = false → le a posInf = true

namespace Coordinate

open OrderedCoordinate (number_of_le)

variable {κ : Type} [Coordinate κ] {a b c : κ}

theorem le_self (h : isNaN a = false) : le a a = true := by simpa [isNaN] using h

theorem lt_iff : lt a b = true ↔ le a b = true ∧ le b a = false := by simp [lt]

theorem lt_eq_false_of_le (h : le a b = true) : lt b a = false := by simp [lt, h]

theorem least_le (h : isNaN a = false) : le (least a b) a = true := by
  unfold least
  rw [h, Bool.false_or]
  split
  next hb => exact hb
  next => exact le_self h

theorem le_greatest (h : isNaN a = false) : le a (greatest a b) = true := by
  unfold greatest
  rw [h, Bool.false_or]
  split
  next hb => exact hb
  next => exact le_self h

variable [OrderedCoordinate κ]

theorem isNaN_least (h : isNaN a = false) : isNaN (least a b) = false := (number_of_le (least_le h)).1

theorem isNaN_greatest (h : isNaN a = false) : isNaN (greatest a b) = false := (number_of_le (le_greatest h)).2

theorem le_of_lt_eq_false (ha : isNaN a = false) (hb : isNaN b = false) (h : lt b a = false) : le a b = true := by
  rcases OrderedCoordinate.total ha hb with hab | hba
  · exact hab
  · simpa [lt, hba] using h

theorem le_lt_trans (hab : le a b = true) (hbc : lt b c = true) : lt a c = true := by
  obtain ⟨hbc, hcb⟩ := lt_iff.1 hbc
  refine lt_iff.2 ⟨OrderedCoordinate.trans hab hbc, ?_⟩
  rw [← Bool.not_eq_true]
  intro hca
  rw [OrderedCoordinate.trans hca hab] at hcb
  cases hcb

end Coordinate

/-! ## Exact coordinates -/

namespace Exact

instance : BoundedCoordinate Exact where
  number_of_le {a b} h := by cases a <;> cases b <;> simp_all [isNaN, Coordinate.le, le]
  trans {a b c} hab hbc := by
    cases a <;> cases b <;> cases c <;> simp_all [Coordinate.le, le]
    exact hab.trans hbc
  total {a b} ha hb := by
    cases a <;> cases b <;> simp_all [isNaN, Coordinate.le, le]
    exact Rat.le_total
  isNaN_zero := rfl
  isNaN_one := rfl
  negInf_le {a} h := by cases a <;> simp_all [isNaN, Coordinate.le, le, Coordinate.negInf]
  le_posInf {a} h := by cases a <;> simp_all [isNaN, Coordinate.le, le, Coordinate.posInf]

end Exact

/-! ## Floats -/

section Floats

open Float.Model (UnpackedFloat)

/-- The place of a float among the numbers. Infinities and signs count before
exponents, exponents before mantissas, and both zeros have one place. -/
def floatPlace : UnpackedFloat → ℤ ×ₗ ℤ ×ₗ ℤ
  | .infinity .negative => toLex (-2, toLex (0, 0))
  | .finite .negative m e _ => toLex (-1, toLex (-e, -m))
  | .zero _ | .notANumber => toLex (0, toLex (0, 0))
  | .finite .positive m e _ => toLex (1, toLex (e, m))
  | .infinity .positive => toLex (2, toLex (0, 0))

theorem isLE_compare_then (e e' : ℤ) (m m' : ℕ) :
    ((compare e e').then (compare m m')).isLE = true ↔ e < e' ∨ e = e' ∧ m ≤ m' := by
  rw [Ordering.isLE_then_iff_or, compare_lt_iff_lt, compare_eq_iff_eq, Nat.isLE_compare]

theorem isGE_compare_then (e e' : ℤ) (m m' : ℕ) :
    ((compare e e').then (compare m m')).isGE = true ↔ e' < e ∨ e = e' ∧ m' ≤ m := by
  rw [← Ordering.isLE_swap, Ordering.swap_then, ← Std.OrientedOrd.eq_swap, ← Std.OrientedOrd.eq_swap,
    isLE_compare_then, eq_comm]

/-- Floats are compared by their places. -/
theorem unpacked_le_iff (a b : UnpackedFloat) :
    a.le b = true ↔ a.isNaN = false ∧ b.isNaN = false ∧ floatPlace a ≤ floatPlace b := by
  rcases a with (_ | _) | _ | _ | ⟨(_ | _), m, e, h⟩ <;> rcases b with (_ | _) | _ | _ | ⟨(_ | _), m', e', h'⟩ <;>
    dsimp only [UnpackedFloat.le, UnpackedFloat.compare, UnpackedFloat.isNaN, floatPlace] <;>
    simp [Prod.Lex.toLex_le_toLex, isLE_compare_then, isGE_compare_then]
  -- what is left compares the signs of two infinities
  all_goals decide

theorem floatPlace_bounds (a : UnpackedFloat) :
    floatPlace (.infinity .negative) ≤ floatPlace a ∧ floatPlace a ≤ floatPlace (.infinity .positive) := by
  rcases a with (_ | _) | _ | _ | ⟨(_ | _), m, e, h⟩ <;> dsimp only [floatPlace] <;>
    simp [Prod.Lex.toLex_le_toLex]

/-- Coordinates that are compared as the floats they stand for are ordered. -/
theorem bounded_of_unpack {κ : Type} [Coordinate κ] (unpack : κ → UnpackedFloat)
    (hle : ∀ a b, le a b = true ↔ (unpack a).le (unpack b) = true) (hzero : isNaN (zero : κ) = false)
    (hone : isNaN (one : κ) = false) (hneg : isNaN (negInf : κ) = false) (hpos : isNaN (posInf : κ) = false)
    (hlow : floatPlace (unpack negInf) = floatPlace (.infinity .negative))
    (hhigh : floatPlace (unpack posInf) = floatPlace (.infinity .positive)) : BoundedCoordinate κ := by
  have hplace (a b : κ) : le a b = true ↔ isNaN a = false ∧ isNaN b = false ∧
      floatPlace (unpack a) ≤ floatPlace (unpack b) := by
    have hnumber (a : κ) : isNaN a = false ↔ (unpack a).isNaN = false := by
      simp [isNaN, hle, unpacked_le_iff]
    rw [hle, unpacked_le_iff, hnumber, hnumber]
  exact {
    number_of_le := fun h => ⟨((hplace _ _).1 h).1, ((hplace _ _).1 h).2.1⟩
    trans := fun hab hbc => by
      rw [hplace] at hab hbc ⊢
      exact ⟨hab.1, hbc.2.1, hab.2.2.trans hbc.2.2⟩
    total := fun {a b} ha hb => by
      rw [hplace, hplace]
      rcases le_total (floatPlace (unpack a)) (floatPlace (unpack b)) with h | h
      · exact .inl ⟨ha, hb, h⟩
      · exact .inr ⟨hb, ha, h⟩
    isNaN_zero := hzero
    isNaN_one := hone
    negInf_le := fun h => (hplace _ _).2 ⟨hneg, h, hlow ▸ (floatPlace_bounds _).1⟩
    le_posInf := fun h => (hplace _ _).2 ⟨h, hpos, hhigh ▸ (floatPlace_bounds _).2⟩ }

instance : BoundedCoordinate Float32 :=
  bounded_of_unpack (fun a => a.toModel.unpack) (fun _ _ => decide_eq_true_iff) (by decide +kernel)
    (by decide +kernel) (by decide +kernel) (by decide +kernel) (by decide +kernel) (by decide +kernel)

instance : BoundedCoordinate Float :=
  bounded_of_unpack (fun a => a.toModel.unpack) (fun _ _ => decide_eq_true_iff) (by decide +kernel)
    (by decide +kernel) (by decide +kernel) (by decide +kernel) (by decide +kernel) (by decide +kernel)

end Floats

end Wireframe
