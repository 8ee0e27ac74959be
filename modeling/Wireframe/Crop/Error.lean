import Wireframe.Decimal.Text
import Wireframe.Error
import Wireframe.Space.Box
/-!
# Why a crop fails

Two causes show positions and so depend on the coordinates: a box that is
inverted on a chosen axis, and an edge across the boundary where that is not
allowed. All others are causes of the parts involved, or aborts.
-/

namespace Wireframe

/-- Why a crop did not come to an end. -/
inductive CropError (κ : Type) where
  /-- The upper bound of an axis lies below the lower one. -/
  | invertedRange (axis : Axis) (lo hi : κ)
  /-- An edge leaves the box. -/
  | outsideVertex (edge : Nat) (inside outside : Point κ) (bounds : Box κ)
  | refused (cause : Error)
  | aborted (cause : Abort)
  deriving DecidableEq

instance {κ : Type} : MonadLift (Except Error) (Except (CropError κ)) where
  monadLift r := r.mapError .refused

instance {κ : Type} : MonadLift (Except Abort) (Except (CropError κ)) where
  monadLift r := r.mapError .aborted

/-- The number of an inverted range. -/
def Axis.rangeCode : Axis → Int
  | .x => -1210
  | .y => -1211
  | .z => -1212

section Message

variable {κ : Type} [DecimalText κ]

open DecimalText

/-- The coordinates of a point. -/
def Point.text (p : Point κ) : String :=
  "(" ++ ", ".intercalate (p.toList.map decimalText) ++ ")"

/-- The corners of a box, the lower one first. -/
def Box.text (b : Box κ) : String := b.lo.text ++ " and " ++ b.hi.text

end Message

namespace CropError

variable {κ : Type}

/-- The number of a cause; an abort has none. -/
def code? : CropError κ → Option Int
  | invertedRange axis _ _ => some axis.rangeCode
  | outsideVertex .. => some (-1221)
  | refused cause => some cause.code
  | aborted _ => none

variable [DecimalText κ]

open DecimalText

/-- The text shown to the user; an abort has one only for a failed check. -/
def message? : CropError κ → Option String
  | invertedRange axis lo hi =>
    some (axis.letter ++ " Max (" ++ decimalText hi ++ ") less than " ++ axis.letter ++ " Min ("
      ++ decimalText lo ++ ")")
  | outsideVertex edge inside outside bounds =>
    some (s!"Edge {edge} connects inside vertex " ++ inside.text ++ " with outside vertex "
      ++ outside.text ++ ".  This intersects the bounds of " ++ bounds.text)
  | refused cause => some cause.message
  | aborted cause => cause.message?

end CropError

end Wireframe
