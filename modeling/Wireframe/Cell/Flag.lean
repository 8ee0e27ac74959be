import Wireframe.Cell.Crossings
/-!
# Packed cell flags

The crossings of a cell fit into one word of 32 bits:

* bits 0 and 1: the kind of vertex;
* bits 2 to 13: the faces, two bits each;
* bits 14 to 25: the edges, one bit each;
* bits 29 to 31: the number of junction faces, modulo eight.

Bits 26 to 28 are not used. Every word can be read; a face code that stands
for nothing reads as no crossing.
-/

namespace Wireframe

/-! ## Codes -/

namespace VertexKind

/-- The two bits of a kind of vertex. -/
def code : VertexKind → UInt32
  | none => 0
  | surface => 1
  | edge => 2
  | corner => 3

/-- The kind of vertex that the two lowest bits stand for. -/
def ofCode (bits : UInt32) : VertexKind :=
  if bits &&& 3 = 1 then surface
  else if bits &&& 3 = 2 then edge
  else if bits &&& 3 = 3 then corner
  else none

end VertexKind

namespace FaceCrossing

/-- The two bits of a face crossing. -/
def code : FaceCrossing → UInt32
  | none => 0
  | surface => 1
  | junction => 2

/-- The face crossing that the two lowest bits stand for. -/
def ofCode (bits : UInt32) : FaceCrossing :=
  if bits &&& 3 = 1 then surface
  else if bits &&& 3 = 2 then junction
  else none

end FaceCrossing

/-- The lowest bit of a face. -/
def Face.shift (f : Face) : UInt32 := 2 + 2 * .ofNat f.index

/-- The bit of an edge. -/
def CellEdge.shift (e : CellEdge) : UInt32 := 14 + .ofNat e.index

/-- The lowest bit of the number of junction faces. -/
def junctionShift : UInt32 := 29

/-! ## Flags -/

/-- The crossings of a cell in one word. -/
@[ext]
structure CellFlag where
  bits : UInt32
  deriving DecidableEq, Repr

/-- Packs crossings into a word. -/
def Crossings.pack (c : Crossings) : CellFlag :=
  let faces := Face.all.foldl (fun bits f => bits ||| (c.faces f).code <<< f.shift) c.vertex.code
  let edges := CellEdge.all.foldl
    (fun bits e => bits ||| (if c.edges e then 1 else 0) <<< e.shift) faces
  ⟨edges ||| (c.junctions.toUInt32 &&& 7) <<< junctionShift⟩

namespace CellFlag

/-- The flag of a cell that no surface crosses. -/
def zero : CellFlag := ⟨0⟩

/-- The flag of a cell with given labels at its corners. -/
def ofLabels (labels : CornerLabels) : CellFlag := labels.classify.pack

/-- The kind of vertex. -/
def vertex (flag : CellFlag) : VertexKind := .ofCode flag.bits

/-- What the surfaces do on a face. -/
def face (flag : CellFlag) (f : Face) : FaceCrossing := .ofCode (flag.bits >>> f.shift)

/-- Whether an edge is crossed. -/
def edge (flag : CellFlag) (e : CellEdge) : Bool := flag.bits >>> e.shift &&& 1 ≠ 0

/-- The number of junction faces, modulo eight. -/
def junctions (flag : CellFlag) : UInt32 := flag.bits >>> junctionShift &&& 7

/-- What the surfaces do on the face of a number; nothing where there is no
such face. -/
def faceAt (flag : CellFlag) (i : Nat) : FaceCrossing :=
  match Face.all[i]? with
  | some f => flag.face f
  | none => .none

/-- Whether the edge of a number is crossed; not where there is no such edge. -/
def edgeAt (flag : CellFlag) (i : Nat) : Bool :=
  match CellEdge.all[i]? with
  | some e => flag.edge e
  | none => false

/-- Unpacks a word. -/
def unpack (flag : CellFlag) : Crossings :=
  ⟨flag.vertex, flag.face, flag.edge, flag.junctions.toUInt8⟩

end CellFlag

end Wireframe
