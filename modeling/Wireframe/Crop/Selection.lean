import Wireframe.Crop.Error
import Wireframe.Crop.Policy
import Wireframe.EdgeGeometry
import Wireframe.Mask
/-!
# What a crop keeps

Every edge is judged on its own by where its endpoints lie: inside both, it is
kept; outside both, it is dropped; an edge across the boundary is up to the
policy. The first edge that cannot be judged ends the crop.

The selection follows from the verdicts. A vertex is kept if a kept edge ends
there, so a vertex without edges is dropped wherever it lies. A vertex that
several edges would move goes where the last of them moves it.
-/

namespace Wireframe

variable {κ : Type}

/-- What becomes of an edge. -/
inductive Verdict (κ : Type) where
  | drop
  | keep
  /-- The edge is kept and one of its endpoints moved. -/
  | keepMoving (vertex : Nat) (position : Point κ)
  deriving DecidableEq, Repr

namespace Verdict

/-- Whether the edge is kept. -/
def kept : Verdict κ → Bool
  | drop => false
  | _ => true

/-- The endpoint that is moved, and where to. -/
def move? : Verdict κ → Option (Nat × Point κ)
  | keepMoving vertex position => some (vertex, position)
  | _ => none

end Verdict

section Judge

variable [Coordinate κ]

/-- The verdict on an edge from a point inside to `vertex` at a point outside. -/
def judgeAcross (bounds : Box κ) (policy : BoundaryPolicy) (edge : Nat) (inside outside : Point κ)
    (vertex : UInt64) : Except (CropError κ) (Verdict κ) :=
  match policy with
  | .interpolate => .ok (.keepMoving vertex.toNat (bounds.exitPoint inside outside))
  | .ignoreEdge => .ok .drop
  | .fail => .error (.outsideVertex edge inside outside bounds)

/-- The verdict on an edge. Its first endpoint without a vertex is reported. -/
def judge (points : List (Point κ)) (bounds : Box κ) (policy : BoundaryPolicy) (link : Link)
    (edge : Nat) : Except (CropError κ) (Verdict κ) :=
  match points[link.1.toNat]?, points[link.2.toNat]? with
  | none, _ => .error (.refused (.invalidVertexIndex edge link.1 points.length))
  | some _, none => .error (.refused (.invalidVertexIndex edge link.2 points.length))
  | some p, some q =>
    match bounds.contains p, bounds.contains q with
    | true, true => .ok .keep
    | false, false => .ok .drop
    | true, false => judgeAcross bounds policy edge p q link.2
    | false, true => judgeAcross bounds policy edge q p link.1

/-- The verdicts on all edges, in order. -/
def judgeAll (g : EdgeGeometry κ) (bounds : Box κ) (policy : BoundaryPolicy) :
    Except (CropError κ) (List (Verdict κ)) :=
  let points := g.points
  g.links.zipIdx.mapM fun (link, edge) => judge points bounds policy link edge

end Judge

/-- The vertices and edges that a crop keeps, and where it moves vertices to. -/
structure Selection (κ : Type) where
  keepVertex : Mask
  keepEdge : Mask
  moved : SortedMap Nat (Point κ) compare

namespace Selection

/-- The positions that vertices are moved to; a later verdict overrides an
earlier one. -/
def moves (verdicts : List (Verdict κ)) : SortedMap Nat (Point κ) compare :=
  (verdicts.filterMap Verdict.move?).foldl (fun m (vertex, position) => m.insert vertex position)
    .empty

/-- Marks the vertices at the ends of given edges. -/
def endpointMask (vertexCount : Nat) (links : List Link) : Mask :=
  (List.range vertexCount).map fun v => links.any fun l => l.1.toNat == v || l.2.toNat == v

/-- The selection that follows from the verdicts on the edges of a geometry. -/
def ofVerdicts (g : EdgeGeometry κ) (verdicts : List (Verdict κ)) : Selection κ :=
  let keepEdge := verdicts.map Verdict.kept
  { keepVertex := endpointMask g.vertexCount (Mask.select keepEdge g.links)
    keepEdge := keepEdge
    moved := moves verdicts }

/-- What a crop of a geometry keeps. -/
def of [Coordinate κ] (g : EdgeGeometry κ) (bounds : Box κ) (policy : BoundaryPolicy) :
    Except (CropError κ) (Selection κ) :=
  (judgeAll g bounds policy).map (ofVerdicts g)

/-- The positions of the kept vertices: where they are moved to, else where
they were. -/
def positions [Coordinate κ] (g : EdgeGeometry κ) (s : Selection κ) : List (Point κ) :=
  let points := g.points
  s.keepVertex.indices.map fun v =>
    ((s.moved.find? v).or points[v]?).getD ⟨Coordinate.zero, Coordinate.zero, Coordinate.zero⟩

/-- The new endpoints of a kept edge. -/
def renumber (ranks : List (Option Nat)) (link : Link) (edge : Nat) :
    Except (CropError κ) Link :=
  match ranks[link.1.toNat]?, ranks[link.2.toNat]? with
  | some (some i), some (some j) => .ok (.ofNat i, .ofNat j)
  | some _, some _ => .error (.refused (.invalidVertexMapping edge))
  | _, _ => .error (.aborted (.fault .indexOutOfRange))

/-- The new endpoints of all kept edges. -/
def newLinks (g : EdgeGeometry κ) (s : Selection κ) : Except (CropError κ) (List Link) :=
  let ranks := s.keepVertex.ranks
  (s.keepEdge.select g.links.zipIdx).mapM fun (link, edge) => renumber ranks link edge

end Selection

end Wireframe
