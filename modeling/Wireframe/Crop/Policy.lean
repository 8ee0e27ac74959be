import Wireframe.Error
/-!
# Boundary policies

What becomes of an edge with one endpoint inside the box. Hosts name the
policies by number.
-/

namespace Wireframe

/-- What a crop does with an edge that leaves the box. -/
inductive BoundaryPolicy where
  /-- Moves the endpoint outside to where the edge leaves the box. -/
  | interpolate
  /-- Drops the edge. -/
  | ignoreEdge
  /-- Gives up. -/
  | fail
  deriving DecidableEq, Repr

namespace BoundaryPolicy

/-- The policies in the order of their numbers. -/
def all : List BoundaryPolicy := [interpolate, ignoreEdge, fail]

/-- The policy where none is named. -/
instance : Inhabited BoundaryPolicy := ⟨interpolate⟩

/-- The number of a policy. -/
def index : BoundaryPolicy → Nat
  | interpolate => 0
  | ignoreEdge => 1
  | fail => 2

/-- The policy of a number. -/
def ofIndex (i : Nat) : Except Error BoundaryPolicy :=
  match i with
  | 0 => .ok interpolate
  | 1 => .ok ignoreEdge
  | 2 => .ok fail
  | i => .error (.invalidBoundaryPolicy i)

end BoundaryPolicy

end Wireframe
