import Wireframe.Crop.Run
/-!
# Cropping through buffers

The same crop as a program over buffers: two masks are marked while the edges
go by, a table leads from old numbers to new ones, and the lists of the
destination are overwritten where they lie. Each buffer is read and written by
index, and every such access is checked, as is every number of values and every
promise that a part makes about itself. What fails of these aborts the crop.

The program asks nothing of its two geometries, not even lists of the right
widths. On edge geometries it ends like `crop`, unless the destination has no
room for what is kept.

The destination of a run is what the program had written when it ended. A pass
over a list that fails is not followed that far: the destination is then
given as it was before the pass.
-/

namespace Wireframe

/-! ## Buffers -/

section Buffer

variable {α : Type}

/-- The element of a buffer at an index. -/
def readAt (buffer : List α) (i : Nat) : Except Abort α :=
  match buffer[i]? with
  | some x => .ok x
  | none => .error (.fault .indexOutOfRange)

/-- A buffer with another element at an index. -/
def writeAt (buffer : List α) (i : Nat) (x : α) : Except Abort (List α) :=
  if i < buffer.length then .ok (buffer.set i x) else .error (.fault .indexOutOfRange)

/-- Overwrites the tuple at an index by one that has to be as long. Where
there is no tuple nothing is written. -/
def TupleArray.overwrite (a : TupleArray α) (i : Nat) (tuple : List α) : Except Abort (TupleArray α) :=
  if a.size ≤ i then .ok a
  else match a.setTuple? i tuple with
    | some b => .ok b
    | none => .error (.fault .indexOutOfRange)

end Buffer

variable {κ : Type} [Coordinate κ]

namespace Buffered

/-! ## Marking what is kept -/

/-- The point that a tuple of the vertex list holds. -/
def pointAt (tuple : List κ) : Except Abort (Point κ) := do
  return ⟨← readAt tuple 0, ← readAt tuple 1, ← readAt tuple 2⟩

/-- The points that a vertex list holds. -/
def pointsOf (vertices : TupleArray κ) : Except Abort (List (Point κ)) := vertices.tuples.mapM pointAt

/-- Nothing is marked. -/
def unmarked (vertexCount edgeCount : Nat) : Selection κ where
  keepVertex := .replicate vertexCount false
  keepEdge := .replicate edgeCount false
  moved := .empty

/-- Marks an edge and its endpoints. -/
def keep (s : Selection κ) (edge v₁ v₂ : Nat) : Except Abort (Selection κ) := do
  let keepEdge ← writeAt s.keepEdge edge true
  let keepVertex ← writeAt s.keepVertex v₁ true
  let keepVertex ← writeAt keepVertex v₂ true
  return { s with keepEdge := keepEdge, keepVertex := keepVertex }

/-- Marks an edge between `v₁` and `v₂`, one of them inside and the other not. -/
def markAcross (points : List (Point κ)) (bounds : Box κ) (policy : BoundaryPolicy) (s : Selection κ)
    (edge inside outside v₁ v₂ : Nat) : Except (CropError κ) (Selection κ) := do
  match policy with
  | .fail =>
    let p ← readAt points inside
    let q ← readAt points outside
    throw (.outsideVertex edge p q bounds)
  | .ignoreEdge => return s
  | .interpolate =>
    let p ← readAt points inside
    let q ← readAt points outside
    keep { s with moved := s.moved.insert outside (bounds.exitPoint p q) } edge v₁ v₂

/-- Marks what the next edge keeps. -/
def mark (points : List (Point κ)) (insides : List Bool) (bounds : Box κ) (policy : BoundaryPolicy)
    (s : Selection κ) (ends : List UInt64) (edge : Nat) : Except (CropError κ) (Selection κ) := do
  match ends.find? fun v => points.length ≤ v.toNat with
  | some v => throw (.refused (.invalidVertexIndex edge v points.length))
  | none =>
    let v₁ ← readAt ends 0
    let v₂ ← readAt ends 1
    let in₁ ← readAt insides v₁.toNat
    let in₂ ← readAt insides v₂.toNat
    match in₁, in₂ with
    | true, true => keep s edge v₁.toNat v₂.toNat
    | false, false => return s
    | true, false => markAcross points bounds policy s edge v₁.toNat v₂.toNat v₁.toNat v₂.toNat
    | false, true => markAcross points bounds policy s edge v₂.toNat v₁.toNat v₁.toNat v₂.toNat

/-- Marks what a crop keeps, in one pass over the edges. -/
def markAll (g : LooseGeometry κ) (bounds : Box κ) (policy : BoundaryPolicy) :
    Except (CropError κ) (Selection κ) := do
  let points ← pointsOf g.vertices
  let insides := points.map bounds.contains
  g.edges.tuples.zipIdx.foldlM
    (fun s (ends, edge) => mark points insides bounds policy s ends edge)
    (unmarked points.length g.edges.size)

/-! ## Numbers of kept vertices -/

/-- The entry of a vertex that is not kept. -/
def noRank : Int := -1

/-- The table of the new numbers of all vertices. -/
def rankTable (size : Nat) (mask : Mask) : Except Abort (List Int) :=
  mask.indices.zipIdx.foldlM (fun table (old, new) => writeAt table old (new : Int))
    (.replicate size noRank)

/-- An entry of the table as an index. -/
def toIndex (entry : Int) : Except Abort Nat :=
  if entry < 0 then .error (.fault .indexOutOfRange) else .ok entry.toNat

/-! ## Overwriting the lists -/

/-- The position of a vertex: where it was moved, or where it was. A vertex that
does not exist would be at the origin. -/
def positionAt (src : LooseGeometry κ) (moved : SortedMap Nat (Point κ) compare) (v : Nat) : Except Abort (Point κ) :=
  match moved.find? v with
  | some p => .ok p
  | none =>
    match src.vertices.tuple? v with
    | some tuple => pointAt tuple
    | none => .ok ⟨Coordinate.zero, Coordinate.zero, Coordinate.zero⟩

/-- Writes the position of a vertex, if it is kept, in its new place. -/
def placeVertex (src : LooseGeometry κ) (moved : SortedMap Nat (Point κ) compare) (vertices : TupleArray κ)
    (old : Nat) (entry : Int) : Except Abort (TupleArray κ) := do
  if entry = noRank then return vertices
  else
    let position ← positionAt src moved old
    vertices.overwrite (← toIndex entry) position.toList

/-- Writes the positions of all kept vertices. -/
def placeVertices (src : LooseGeometry κ) (moved : SortedMap Nat (Point κ) compare) (table : List Int)
    (vertices : TupleArray κ) : Except Abort (TupleArray κ) :=
  table.zipIdx.foldlM (fun vertices (entry, old) => placeVertex src moved vertices old entry) vertices

/-- The endpoints of an edge. An edge that does not exist would join the first
vertex to itself. -/
def linkAt (src : LooseGeometry κ) (e : Nat) : Except Abort Link :=
  match src.edges.tuple? e with
  | some ends => do return (← readAt ends 0, ← readAt ends 1)
  | none => .ok (0, 0)

/-- Overwrites the endpoints of an edge, if there is such an edge. What else its
tuple may hold stays. -/
def overwriteEnds (edges : TupleArray UInt64) (e : Nat) (a b : UInt64) : Except Abort (TupleArray UInt64) :=
  match edges.tuple? e with
  | none => .ok edges
  | some ends => do
    let ends ← writeAt ends 0 a
    let ends ← writeAt ends 1 b
    edges.overwrite e ends

/-- The new endpoints of a kept edge. -/
def newEnds (src : LooseGeometry κ) (table : List Int) (old : Nat) : Except (CropError κ) Link := do
  let link ← linkAt src old
  let a ← readAt table link.1.toNat
  let b ← readAt table link.2.toNat
  if a = noRank ∨ b = noRank then throw (.refused (.invalidVertexMapping old))
  else return (.ofNat (← toIndex a), .ofNat (← toIndex b))

/-- Writes the new endpoints of a kept edge in its new place. -/
def relinkEdge (src : LooseGeometry κ) (table : List Int) (edges : TupleArray UInt64) (old new : Nat) :
    Except (CropError κ) (TupleArray UInt64) := do
  let link ← newEnds src table old
  overwriteEnds edges new link.1 link.2

/-- Writes the kept vertices. The table of their new numbers comes with it. -/
def place (s : Selection κ) (src dst : LooseGeometry κ) : Except Abort (List Int × LooseGeometry κ) := do
  let table ← rankTable src.vertices.size s.keepVertex
  let vertices ← placeVertices src s.moved table dst.vertices
  return (table, { dst with vertices })

/-- Writes the kept edges. -/
def relink (s : Selection κ) (src : LooseGeometry κ) (table : List Int) (dst : LooseGeometry κ) :
    Except (CropError κ) (LooseGeometry κ) := do
  let edges ← s.keepEdge.indices.zipIdx.foldlM
    (fun edges (old, new) => relinkEdge src table edges old new) dst.edges
  return { dst with edges }

/-! ## The whole crop -/

/-- A crop through buffers that is over. -/
structure Run (κ : Type) where
  result : Except (CropError κ) CropOutcome
  destination : LooseGeometry κ
  progress : Progress

/-- Copies the edge arrays, the last stage, and checks the result. -/
def finish (s : Selection κ) (schedule : Schedule) (src dst : LooseGeometry κ) (p : Progress) : Run κ :=
  match copyAttributes schedule edgeLabel s.keepEdge src.edgeData dst.edgeData p with
  | (.error e, m, p) => ⟨.error (.refused e), { dst with edgeData := m }, p⟩
  | (.ok false, m, p) => ⟨.ok .cancelled, { dst with edgeData := m }, p⟩
  | (.ok true, m, p) =>
    let dst := { dst with edgeData := m }
    match dst.assertFits with
    | .error a => ⟨.error (.aborted a), dst, p⟩
    | .ok () => ⟨.ok (.complete s.stats), dst, p⟩

/-- Writes a selection of the source into a destination that was resized for it. -/
def fill (s : Selection κ) (schedule : Schedule) (src dst : LooseGeometry κ) : Run κ :=
  match place s src dst with
  | .error a => ⟨.error (.aborted a), dst, .start⟩
  | .ok (table, dst) =>
    match copyAttributes schedule vertexLabel s.keepVertex src.vertexData dst.vertexData .start with
    | (.error e, m, p) => ⟨.error (.refused e), { dst with vertexData := m }, p⟩
    | (.ok false, m, p) => ⟨.ok .cancelled, { dst with vertexData := m }, p⟩
    | (.ok true, m, p) =>
      let dst := { dst with vertexData := m }
      match relink s src table dst with
      | .error e => ⟨.error e, dst, p⟩
      | .ok dst => finish s schedule src dst p

/-- Writes a selection of the source into the destination. -/
def write (s : Selection κ) (schedule : Schedule) (src dst : LooseGeometry κ) : Run κ :=
  match dst.resizeBoth s.keepVertex.kept s.keepEdge.kept with
  | (.error a, dst) => ⟨.error (.aborted a), dst, .start⟩
  | (.ok (), dst) => fill s schedule src dst

/-- Crops a geometry to a box. -/
def crop (src dst : LooseGeometry κ) (bounds : Box κ) (policy : BoundaryPolicy) (schedule : Schedule) : Run κ :=
  match markAll src bounds policy with
  | .error e => ⟨.error e, dst, .start⟩
  | .ok s => write s schedule src dst

end Buffered

/-- A crop of edge geometries as one of their parts. -/
def CropRun.loose (r : CropRun κ) : Buffered.Run κ := ⟨r.result, r.destination.loose, r.progress⟩

end Wireframe
