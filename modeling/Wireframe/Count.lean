/-!
# Counts of 64 bits

Sizes, indices and what is reckoned with them. A product may be tried, which
gives nothing where it is no count, or taken for granted. Then a sum or a
product that is no count is a fault, as is a divisor that is zero or an index
past the end, and a program that meets one ends there. Programs that look out
for none of this go on with what is left of the number in 64 bits.
-/

namespace Wireframe

/-- The greatest count of 64 bits. -/
def maxCount : Nat := UInt64.size - 1

/-- Half of 64 bits. Twice as much is no count. -/
def halfSize : Nat := UInt64.size / 2

/-- The product of two counts, if it is a count. -/
def mulCount? (a b : Nat) : Option Nat := if a * b ≤ maxCount then some (a * b) else none

theorem mulCount?_eq_some {a b n : Nat} : mulCount? a b = some n ↔ a * b ≤ maxCount ∧ a * b = n := by
  rw [mulCount?, Option.ite_none_right_eq_some, Option.some.injEq]

/-- A step that a program cannot make. -/
inductive Fault where
  /-- A sum or a product is no count of 64 bits. -/
  | overflow
  | divisionByZero
  /-- Nothing lies in the buffer at an index. -/
  | indexOutOfRange
  deriving DecidableEq

namespace Checked

/-- A sum or a product as a count. -/
def count (n : Nat) : Except Fault Nat := if n ≤ maxCount then .ok n else .error .overflow

def quotient (a b : Nat) : Except Fault Nat := if b = 0 then .error .divisionByZero else .ok (a / b)

def remainder (a b : Nat) : Except Fault Nat := if b = 0 then .error .divisionByZero else .ok (a % b)

theorem count_of_le {n : Nat} (h : n ≤ maxCount) : count n = .ok n := if_pos h

theorem count_of_lt {n : Nat} (h : maxCount < n) : count n = .error .overflow := if_neg (Nat.not_le.2 h)

theorem map_count {α : Type} (f : Nat → α) (n : Nat) :
    (count n).map f = if n ≤ maxCount then .ok (f n) else .error .overflow := by
  unfold count
  split <;> rfl

theorem quotient_of_pos {a b : Nat} (h : 0 < b) : quotient a b = .ok (a / b) := if_neg (Nat.ne_of_gt h)

theorem remainder_of_pos {a b : Nat} (h : 0 < b) : remainder a b = .ok (a % b) := if_neg (Nat.ne_of_gt h)

end Checked

/-- What becomes of a sum or a product that is no count. -/
inductive Overflow where
  /-- It is a fault. -/
  | traps
  /-- What goes beyond 64 bits is lost. -/
  | wraps
  deriving DecidableEq

namespace Overflow

/-- A sum or a product as a count. -/
def count : Overflow → Nat → Except Fault Nat
  | .traps, n => Checked.count n
  | .wraps, n => .ok (n % UInt64.size)

/-- Nothing is lost of a number. -/
def Exact (overflow : Overflow) (n : Nat) : Prop := overflow = .traps ∨ n ≤ maxCount

instance (overflow : Overflow) (n : Nat) : Decidable (overflow.Exact n) :=
  inferInstanceAs (Decidable (_ ∨ _))

theorem count_of_le (overflow : Overflow) {n : Nat} (h : n ≤ maxCount) : overflow.count n = .ok n := by
  cases overflow with
  | traps => exact Checked.count_of_le h
  | wraps => exact congrArg Except.ok (Nat.mod_eq_of_lt (Nat.lt_of_le_of_lt h (by decide)))

end Overflow

end Wireframe
