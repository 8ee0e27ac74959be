/-!
# Coordinates

What the geometry asks of the numbers that positions are made of: one
comparison, the four operations, the two infinities and the whole numbers.
A coordinate may be *not a number*; it then compares with nothing, itself
included, and every other notion below is read off the comparison.

Geometries run on 32-bit floats. The clip runs on 64-bit floats too.
-/

namespace Wireframe

/-- Numbers that positions are made of. -/
class Coordinate (κ : Type) extends Add κ, Sub κ, Mul κ, Div κ where
  /-- Less than or equal; never holds of what is not a number. -/
  le : κ → κ → Bool
  zero : κ
  one : κ
  negInf : κ
  posInf : κ
  /-- The coordinate nearest to a whole number. -/
  ofInt : Int → κ

namespace Coordinate

variable {κ : Type} [Coordinate κ]

/-- Not a number: it does not compare with itself. -/
def isNaN (a : κ) : Bool := !le a a

/-- Strictly less. -/
def lt (a b : κ) : Bool := le a b && !le b a

/-- Equal as numbers: zeros of either sign are the same, and what is not a
number is the same as nothing. -/
def same (a b : κ) : Bool := le a b && le b a

/-- A number other than the infinities. -/
def isFinite (a : κ) : Bool := lt negInf a && lt a posInf

/-- The smaller of two, the second if neither is; what is not a number gives way. -/
def least (a b : κ) : κ := if isNaN a || le b a then b else a

/-- The greater of two, the second if neither is; what is not a number gives way. -/
def greatest (a b : κ) : κ := if isNaN a || le a b then b else a

end Coordinate

/-! ## Floats -/

instance : Coordinate Float32 where
  le := Float32.le
  zero := 0
  one := 1
  negInf := Float32.ofBits 0xff800000
  posInf := Float32.ofBits 0x7f800000
  ofInt i := if i < 0 then -(UInt64.ofNat (-i).toNat).toFloat32 else (UInt64.ofNat i.toNat).toFloat32

instance : Coordinate Float where
  le := Float.le
  zero := 0
  one := 1
  negInf := Float.ofBits 0xfff0000000000000
  posInf := Float.ofBits 0x7ff0000000000000
  ofInt i := if i < 0 then -(UInt64.ofNat (-i).toNat).toFloat else (UInt64.ofNat i.toNat).toFloat

end Wireframe
