/-!
# Corners, edges and faces of a cell

A cell of a labelled grid has eight corners, twelve edges and six faces. The
corners are numbered left-back-bottom, right-back-bottom, right-front-bottom,
left-front-bottom, and then the same four on top. Right, front and top are the
upper sides along the three axes.

A face lists its corners in a cycle, so that consecutive ones are joined by
an edge.
-/

namespace Wireframe

/-- A corner of a cell. -/
abbrev Corner := Fin 8

/-- The corners in order. -/
def Corner.all : List Corner := [0, 1, 2, 3, 4, 5, 6, 7]

/-- Whether a corner lies right, in front and on top, counted as 1, else 0. -/
def Corner.offset : Corner → Nat × Nat × Nat
  | 0 => (0, 0, 0)
  | 1 => (1, 0, 0)
  | 2 => (1, 1, 0)
  | 3 => (0, 1, 0)
  | 4 => (0, 0, 1)
  | 5 => (1, 0, 1)
  | 6 => (1, 1, 1)
  | 7 => (0, 1, 1)

/-- A face of a cell. -/
inductive Face where
  | left | right | back | front | bottom | top
  deriving DecidableEq, Repr

namespace Face

/-- The faces in order. -/
def all : List Face := [left, right, back, front, bottom, top]

/-- The number of a face. -/
def index : Face → Nat
  | left => 0
  | right => 1
  | back => 2
  | front => 3
  | bottom => 4
  | top => 5

/-- The corners of a face, in a cycle. -/
def corners : Face → Vector Corner 4
  | left => #v[0, 3, 7, 4]
  | right => #v[1, 2, 6, 5]
  | back => #v[0, 1, 5, 4]
  | front => #v[3, 2, 6, 7]
  | bottom => #v[0, 1, 2, 3]
  | top => #v[4, 5, 6, 7]

end Face

/-- An edge of a cell, named by the two faces that meet there. -/
inductive CellEdge where
  | leftBottom | rightBottom | backBottom | frontBottom
  | leftTop | rightTop | backTop | frontTop
  | leftBack | rightBack | leftFront | rightFront
  deriving DecidableEq, Repr

namespace CellEdge

/-- The edges in order. -/
def all : List CellEdge :=
  [leftBottom, rightBottom, backBottom, frontBottom, leftTop, rightTop, backTop, frontTop,
    leftBack, rightBack, leftFront, rightFront]

/-- The number of an edge. -/
def index : CellEdge → Nat
  | leftBottom => 0
  | rightBottom => 1
  | backBottom => 2
  | frontBottom => 3
  | leftTop => 4
  | rightTop => 5
  | backTop => 6
  | frontTop => 7
  | leftBack => 8
  | rightBack => 9
  | leftFront => 10
  | rightFront => 11

/-- The two corners that an edge joins. -/
def ends : CellEdge → Corner × Corner
  | leftBottom => (0, 3)
  | rightBottom => (1, 2)
  | backBottom => (0, 1)
  | frontBottom => (2, 3)
  | leftTop => (4, 7)
  | rightTop => (5, 6)
  | backTop => (4, 5)
  | frontTop => (6, 7)
  | leftBack => (0, 4)
  | rightBack => (1, 5)
  | leftFront => (3, 7)
  | rightFront => (2, 6)

end CellEdge

end Wireframe
