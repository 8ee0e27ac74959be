/-!
# Keep masks

A mask says of each element of a list whether it is kept. The kept elements
keep their order and are numbered anew from zero; `indices` leads from a new
number to the old one and `ranks` back.
-/

namespace Wireframe

/-- Which elements of a list are kept. -/
abbrev Mask := List Bool

namespace Mask

/-- The number of kept elements. -/
def kept (m : Mask) : Nat := m.count true

/-- The positions of the kept elements, when the first has position `i`. -/
def indicesFrom (i : Nat) : Mask → List Nat
  | [] => []
  | true :: m => i :: indicesFrom (i + 1) m
  | false :: m => indicesFrom (i + 1) m

/-- The positions of the kept elements. -/
def indices (m : Mask) : List Nat := m.indicesFrom 0

/-- The new number of each element, when the first kept one gets number `n`. -/
def ranksFrom (n : Nat) : Mask → List (Option Nat)
  | [] => []
  | true :: m => some n :: ranksFrom (n + 1) m
  | false :: m => none :: ranksFrom n m

/-- The new number of each element. -/
def ranks (m : Mask) : List (Option Nat) := m.ranksFrom 0

/-- The kept ones among the elements of a list. -/
def select {α : Type} : Mask → List α → List α
  | true :: m, x :: xs => x :: select m xs
  | false :: m, _ :: xs => select m xs
  | _, _ => []

end Mask

end Wireframe
