import Wireframe.Coordinate
import Wireframe.Space.Point
/-!
# Crop boxes

A box is bounded by a coordinate below and above on every axis, both
inclusive. An axis that is not cropped lies between the infinities, so
membership and clipping need no special case for it.

`Span.clip` cuts the parameters of a segment down to a slab between two
bounds. Three such cuts give the last parameter at which a segment from inside
a box is still inside, and `Box.exitPoint` the point there.
-/

namespace Wireframe

/-- Bounds on every axis. -/
@[ext]
structure Box (κ : Type) where
  lo : Point κ
  hi : Point κ
  deriving DecidableEq, Repr

/-- The parameters at which a segment is inside: from `enter` to `exit`. -/
@[ext]
structure Span (κ : Type) where
  enter : κ
  exit : κ
  deriving DecidableEq, Repr

open Coordinate

variable {κ : Type} [Coordinate κ]

/-! ## Clipping -/

/-- Cuts a span of the parameters of a segment from `v₁` to `v₂` down to the
slab between `lo` and `hi`. A segment that goes up leaves through `hi` and
enters through `lo`, any other the other way round. -/
def Span.clip (s : Span κ) (v₁ v₂ lo hi : κ) : Span κ :=
  if lt v₁ v₂ then
    { enter := if lt v₂ lo then greatest s.enter ((lo - v₁) / (v₂ - v₁)) else s.enter
      exit := if lt hi v₂ then least s.exit ((hi - v₁) / (v₂ - v₁)) else s.exit }
  else
    { enter := if lt hi v₂ then greatest s.enter ((hi - v₁) / (v₂ - v₁)) else s.enter
      exit := if lt v₂ lo then least s.exit ((lo - v₁) / (v₂ - v₁)) else s.exit }

/-- The parameters of a whole segment. -/
def Span.whole : Span κ := ⟨zero, one⟩

namespace Box

/-! ## Boxes -/

/-- The box without bounds. -/
def unbounded : Box κ := ⟨⟨negInf, negInf, negInf⟩, ⟨posInf, posInf, posInf⟩⟩

/-- The box that is bounded on the chosen axes only. -/
def ofAxes (crop : Axis → Bool) (lo hi : Point κ) : Box κ where
  lo := .ofCoords fun a => if crop a then lo.coord a else negInf
  hi := .ofCoords fun a => if crop a then hi.coord a else posInf

/-- Whether a point lies within the bounds on every axis. -/
def contains (b : Box κ) (p : Point κ) : Bool :=
  Axis.all.all fun a => le (b.lo.coord a) (p.coord a) && le (p.coord a) (b.hi.coord a)

/-- Whether two boxes have the same bounds. -/
def same (b c : Box κ) : Bool :=
  Axis.all.all fun a => Coordinate.same (b.lo.coord a) (c.lo.coord a)
    && Coordinate.same (b.hi.coord a) (c.hi.coord a)

/-- The parameters at which the segment between two points is inside. -/
def span (b : Box κ) (p q : Point κ) : Span κ :=
  Axis.all.foldl (fun s a => s.clip (p.coord a) (q.coord a) (b.lo.coord a) (b.hi.coord a)) .whole

/-- The point at a parameter of the segment between two points. -/
def along (p q : Point κ) (t : κ) : Point κ :=
  .ofCoords fun a => p.coord a + t * (q.coord a - p.coord a)

/-- Where the segment from a point inside to one outside leaves the box; the
point outside, if the segment misses the box. -/
def exitPoint (b : Box κ) (inside outside : Point κ) : Point κ :=
  let s := b.span inside outside
  if lt s.exit s.enter then outside else along inside outside s.exit

end Box

end Wireframe
