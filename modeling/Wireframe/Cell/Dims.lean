import Wireframe.Count
/-!
# Grid dimensions

The extent of a grid along its three axes. Sizes are counted in 64 bits, from
the left: a product that leaves that range on the way has no count, even when
a later factor is zero.
-/

namespace Wireframe

/-- The extent of a grid along its three axes. -/
structure Dims where
  nx : Nat
  ny : Nat
  nz : Nat
  deriving DecidableEq, Repr

namespace Dims

/-- The extents in order. -/
def toList (d : Dims) : List Nat := [d.nx, d.ny, d.nz]

/-- The number of points. -/
def volume (d : Dims) : Nat := d.nx * d.ny * d.nz

/-- The number of points as counted in 64 bits, from the left. -/
def count? (d : Dims) : Option Nat := d.toList.foldlM mulCount? 1

end Dims

end Wireframe
