import Wireframe.Coordinate
import Mathlib.Algebra.Order.Field.Rat
import Mathlib.Data.Sign.Basic
/-!
# Exact coordinates

Rational numbers between two infinities, and one value that is not a number.
The operations are those of the rationals where these have them. For the
infinities they follow the rules of floats: a finite number over an infinity
is zero, and there is no difference of equal infinities, no zero times an
infinity and no quotient of infinities.

There is one zero. As a divisor it counts as positive, as the difference of
equal floats does.
-/

namespace Wireframe

/-- A rational number, an infinity, or not a number. -/
inductive Exact where
  | nan
  | negInf
  | rat (q : ℚ)
  | posInf
  deriving DecidableEq, Repr

namespace Exact

/-! ## Operations -/

def le : Exact → Exact → Bool
  | nan, _ | _, nan => false
  | negInf, _ | _, posInf => true
  | rat p, rat q => decide (p ≤ q)
  | rat _, negInf | posInf, _ => false

def neg : Exact → Exact
  | nan => nan
  | negInf => posInf
  | rat q => rat (-q)
  | posInf => negInf

def add : Exact → Exact → Exact
  | nan, _ | _, nan => nan
  | negInf, posInf | posInf, negInf => nan
  | negInf, _ | _, negInf => negInf
  | posInf, _ | _, posInf => posInf
  | rat p, rat q => rat (p + q)

/-- The sign of a number; what is not a number has none. -/
def sign : Exact → SignType
  | nan => 0
  | negInf => -1
  | rat q => SignType.sign q
  | posInf => 1

/-- The infinity of a sign. -/
def infinite : SignType → Exact
  | 0 => nan
  | -1 => negInf
  | 1 => posInf

def mul : Exact → Exact → Exact
  | nan, _ | _, nan => nan
  | rat p, rat q => rat (p * q)
  | a, b => infinite (a.sign * b.sign)

def div : Exact → Exact → Exact
  | nan, _ | _, nan => nan
  | rat p, rat q => if q = 0 then infinite (SignType.sign p) else rat (p / q)
  | rat _, _ => rat 0
  | a, rat q => infinite (if q < 0 then -a.sign else a.sign)
  | _, _ => nan

instance : Coordinate Exact where
  add := add
  sub a b := a.add b.neg
  mul := mul
  div := div
  le := le
  zero := rat 0
  one := rat 1
  negInf := negInf
  posInf := posInf
  ofInt i := rat i

/-! ## Rational numbers among them -/

open Coordinate

@[simp]
theorem le_rat (p q : ℚ) : Coordinate.le (rat p) (rat q) = decide (p ≤ q) := rfl

@[simp]
theorem lt_rat (p q : ℚ) : lt (rat p) (rat q) = decide (p < q) := by
  rw [Bool.eq_iff_iff, lt, le_rat, le_rat]
  simpa using fun h => h.le

@[simp]
theorem isNaN_rat (q : ℚ) : isNaN (rat q) = false := by
  simp [isNaN]

@[simp]
theorem rat_add_rat (p q : ℚ) : rat p + rat q = rat (p + q) := rfl

@[simp]
theorem rat_sub_rat (p q : ℚ) : rat p - rat q = rat (p - q) :=
  congrArg rat (sub_eq_add_neg p q).symm

@[simp]
theorem rat_mul_rat (p q : ℚ) : rat p * rat q = rat (p * q) := rfl

theorem rat_div_rat (p : ℚ) {q : ℚ} (h : q ≠ 0) : rat p / rat q = rat (p / q) := if_neg h

@[simp]
theorem least_rat (p q : ℚ) : least (rat p) (rat q) = rat (min p q) := by
  rw [least, isNaN_rat, le_rat, Bool.false_or, min_comm, min_def, apply_ite rat]
  simp only [decide_eq_true_eq]

/-- What a rational number is compared with from below. -/
theorem le_rat_iff {a : Exact} {q : ℚ} : Coordinate.le a (rat q) = true ↔ a = negInf ∨ ∃ p ≤ q, a = rat p := by
  cases a with
  | nan => simp [Coordinate.le, le]
  | negInf => simp [Coordinate.le, le]
  | posInf => simp [Coordinate.le, le]
  | rat p => simp

/-- What a rational number is compared with from above. -/
theorem rat_le_iff {a : Exact} {p : ℚ} : Coordinate.le (rat p) a = true ↔ a = posInf ∨ ∃ q ≥ p, a = rat q := by
  cases a with
  | nan => simp [Coordinate.le, le]
  | negInf => simp [Coordinate.le, le]
  | posInf => simp [Coordinate.le, le]
  | rat q => simp

theorem isFinite_iff {a : Exact} : isFinite a = true ↔ ∃ q, a = rat q := by
  cases a <;> simp [isFinite, lt, Coordinate.le, le, Coordinate.negInf, Coordinate.posInf]

end Exact

end Wireframe
