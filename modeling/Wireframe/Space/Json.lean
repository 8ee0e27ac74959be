import Wireframe.Json
import Wireframe.Space.Box
/-!
# Points and boxes as JSON

A point is written as the list of its coordinates, a box as a record of its
two corners. A box without a bound on some axis can be written but not read
back, for an infinite bound is written as null.
-/

namespace Wireframe

variable {κ : Type} [Coordinate κ]

/-- A point as a JSON value. -/
def Point.toJson (p : Point κ) : Json κ := .list (p.toList.map .ofCoordinate)

/-- The point that a JSON value is: a list of exactly three coordinates. -/
def Point.ofJson? (j : Json κ) : Option (Point κ) := do
  Point.ofList? (← (← j.list?).mapM Json.coordinate?)

/-- A box as a JSON value. -/
def Box.toJson (b : Box κ) : Json κ := .object [("min", b.lo.toJson), ("max", b.hi.toJson)]

/-- The box that a JSON value is. -/
def Box.ofJson? (j : Json κ) : Option (Box κ) := do
  match ← j.record? ["min", "max"] with
  | [some lo, some hi] => return ⟨← Point.ofJson? lo, ← Point.ofJson? hi⟩
  | _ => none

end Wireframe
