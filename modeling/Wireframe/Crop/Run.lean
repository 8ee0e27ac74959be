import Wireframe.Crop.Selection
import Wireframe.LooseGeometry
import Wireframe.MaskedCopy
/-!
# Cropping

A crop writes the part of a source geometry that lies in a box into a
destination geometry, whatever that held before. Kept vertices and edges keep
their order and their attributes; edges are renumbered.

The destination is resized as soon as the selection is known. Vertex positions
and vertex arrays follow, then edges and edge arrays. Before the arrays of
either kind are copied each of them is announced to the host, and the cancel
flag is read before every announcement and before every copy. Where a crop
stops early the destination stays as far as it got.

`crop` takes it that the destination has room, which is to say that as many
values as it comes to hold can be counted. `cropChecked` does not, and ends with
a fault where there is none.
-/

namespace Wireframe

variable {κ : Type}

/-- What a complete crop kept. -/
structure CropStats where
  vertices : Nat
  edges : Nat
  moved : Nat
  deriving DecidableEq, Repr

/-- How a crop came to its end. -/
inductive CropOutcome where
  | complete (stats : CropStats)
  | cancelled
  deriving DecidableEq, Repr

/-- A crop that is over: how it ended, what it left in the destination and
what passed between it and the host. -/
structure CropRun (κ : Type) where
  result : Except (CropError κ) CropOutcome
  destination : EdgeGeometry κ
  progress : Progress

/-! ## Attributes -/

/-- Announces the named arrays one after the other, until the flag is found
up. The result tells whether all were announced. -/
def announce (schedule : Schedule) (label : String) : List String → Progress → Bool × Progress
  | [], p => (true, p)
  | name :: rest, p =>
    if p.cancelled schedule then (false, p.read)
    else announce schedule label rest (p.read.tell (label ++ name))

/-- Announces and copies the arrays of a matrix. The result tells whether all
were copied. -/
def copyAttributes (schedule : Schedule) (label : String) (mask : Mask)
    (src dst : AttributeMatrix κ) (p : Progress) :
    Except Error Bool × AttributeMatrix κ × Progress :=
  match src.copyNames dst with
  | .error e => (.error e, dst, p)
  | .ok names =>
    match announce schedule label names p with
    | (false, p) => (.ok false, dst, p)
    | (true, p) => AttributeMatrix.copyArrays schedule mask src names dst p

/-- What announces a vertex array. -/
def vertexLabel : String := "Cropping Edge Geometry || Copying Vertex Array "

/-- What announces an edge array. -/
def edgeLabel : String := "Cropping Edge Geometry || Copying Edge Array "

/-! ## The whole crop -/

variable [Coordinate κ]

namespace Selection

/-- A destination as it is before attributes are copied: resized, with the
kept vertices in place. -/
def prepare (s : Selection κ) (src dst : EdgeGeometry κ) : EdgeGeometry κ :=
  ((dst.resizedVertices s.keepVertex.kept).resizedEdges s.keepEdge.kept).setPoints (s.positions src)

/-- What is told of a selection at the end. -/
def stats (s : Selection κ) : CropStats :=
  ⟨s.keepVertex.kept, s.keepEdge.kept, s.moved.size⟩

/-- Copies the edge arrays, the last stage, and checks the result. -/
def finish (s : Selection κ) (schedule : Schedule) (src dst : EdgeGeometry κ) (p : Progress) :
    CropRun κ :=
  match copyAttributes schedule edgeLabel s.keepEdge src.edgeData dst.edgeData p with
  | (.error e, m, p) => ⟨.error (.refused e), { dst with edgeData := m }, p⟩
  | (.ok false, m, p) => ⟨.ok .cancelled, { dst with edgeData := m }, p⟩
  | (.ok true, m, p) =>
    let dst := { dst with edgeData := m }
    match dst.assertFits with
    | .error e => ⟨.error (.aborted e), dst, p⟩
    | .ok () => ⟨.ok (.complete s.stats), dst, p⟩

/-- Writes a selection of the source into the destination. -/
def write (s : Selection κ) (schedule : Schedule) (src dst : EdgeGeometry κ) : CropRun κ :=
  let dst := s.prepare src dst
  match copyAttributes schedule vertexLabel s.keepVertex src.vertexData dst.vertexData .start with
  | (.error e, m, p) => ⟨.error (.refused e), { dst with vertexData := m }, p⟩
  | (.ok false, m, p) => ⟨.ok .cancelled, { dst with vertexData := m }, p⟩
  | (.ok true, m, p) =>
    let dst := { dst with vertexData := m }
    match s.newLinks src with
    | .error e => ⟨.error e, dst, p⟩
    | .ok links => s.finish schedule src (dst.setLinks links) p

end Selection

/-- Crops a geometry to a box. -/
def crop (src dst : EdgeGeometry κ) (bounds : Box κ) (policy : BoundaryPolicy)
    (schedule : Schedule) : CropRun κ :=
  match Selection.of src bounds policy with
  | .error e => ⟨.error e, dst, .start⟩
  | .ok s => s.write schedule src dst

/-- The destination has room for what is kept. -/
def Selection.HasRoom (s : Selection κ) (dst : EdgeGeometry κ) : Prop :=
  dst.loose.HasVertexRoom s.keepVertex.kept ∧ dst.loose.HasEdgeRoom s.keepEdge.kept

/-- Crops a geometry to a box, if the destination has room for what is kept. -/
def cropChecked (src dst : EdgeGeometry κ) (bounds : Box κ) (policy : BoundaryPolicy)
    (schedule : Schedule) : CropRun κ :=
  match Selection.of src bounds policy with
  | .error e => ⟨.error e, dst, .start⟩
  | .ok s =>
    match dst.resizeBoth s.keepVertex.kept s.keepEdge.kept with
    | (.error a, dst) => ⟨.error (.aborted a), dst, .start⟩
    | (.ok (), _) => s.write schedule src dst

end Wireframe
