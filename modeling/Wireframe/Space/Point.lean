/-!
# Axes and points

A point has one coordinate per axis. Whatever is done to each axis alike is
written once, as a function of the axis.
-/

namespace Wireframe

/-- The three directions of space. -/
inductive Axis where
  | x | y | z
  deriving DecidableEq, Repr

namespace Axis

/-- The axes in order. -/
def all : List Axis := [x, y, z]

theorem mem_all (a : Axis) : a ∈ all := by
  cases a <;> decide

/-- The number of an axis. -/
def index : Axis → Nat
  | x => 0
  | y => 1
  | z => 2

/-- The letter of an axis. -/
def letter : Axis → String
  | x => "X"
  | y => "Y"
  | z => "Z"

end Axis

/-- A position in space. -/
@[ext]
structure Point (κ : Type) where
  x : κ
  y : κ
  z : κ
  deriving DecidableEq, Repr

namespace Point

variable {κ : Type}

/-- The coordinate along an axis. -/
def coord (p : Point κ) : Axis → κ
  | .x => p.x
  | .y => p.y
  | .z => p.z

/-- The point with given coordinates. -/
def ofCoords (f : Axis → κ) : Point κ := ⟨f .x, f .y, f .z⟩

theorem coord_ofCoords (f : Axis → κ) (a : Axis) : (ofCoords f).coord a = f a := by
  cases a <;> rfl

/-- The coordinates in the order of the axes. -/
def toList (p : Point κ) : List κ := [p.x, p.y, p.z]

/-- The point whose coordinates a list of three holds. -/
def ofList? : List κ → Option (Point κ)
  | [x, y, z] => some ⟨x, y, z⟩
  | _ => none

end Point

end Wireframe
