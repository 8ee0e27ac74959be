import Wireframe.Crop.Buffered
import Wireframe.Proofs.Causes
import Wireframe.Proofs.Movement
import Wireframe.Proofs.Resizing
/-!
# Crops through buffers

Each loop over a buffer is described by what it has done after a number of
steps: the masks mark what the verdicts so far keep, the table holds the ranks
of the vertices so far, the lists begin with the tuples written so far. A step
finds the next place within its buffer, so no access fails, and the loops end
with the selection, the ranks, the positions and the links that `crop` is
defined by.

What can abort a crop of edge geometries is therefore the room in the
destination alone. An array without tuples may be so wide that two of its
tuples are too much, and then a crop that keeps two vertices is aborted.
-/

namespace Wireframe

/-! ## Buffers -/

section Buffer

variable {α : Type}

theorem writeAt_of_lt {buffer : List α} {i : Nat} (x : α) (h : i < buffer.length) :
    writeAt buffer i x = .ok (buffer.set i x) :=
  if_pos h

end Buffer

namespace Buffered

open EdgeGeometry Selection

variable {κ : Type}

/-! ## Marking what is kept -/

variable {g : EdgeGeometry κ} {vs : List (Verdict κ)} {front back : List Link} {l : Link}

variable [Coordinate κ] {bounds : Box κ} {policy : BoundaryPolicy}

/-- The entry of the table for a rank, or for none. -/
def entry : Option Nat → Int
  | some r => r
  | none => noRank

/-- A pair is overwritten as a whole. -/
theorem overwriteEnds_eq {a : TupleArray UInt64} (hw : a.width = 2) (e : Nat) (v w : UInt64) :
    overwriteEnds a e v w = a.overwrite e [v, w] := by
  unfold overwriteEnds
  cases hends : a.tuple? e with
  | none => exact (if_pos (TupleArray.tuple?_eq_none.1 hends)).symm
  | some ends =>
    obtain ⟨c, d, rfl⟩ := List.length_eq_two.1 ((TupleArray.length_of_tuple? hends).trans hw)
    rfl

variable {src dst : EdgeGeometry κ} {s : Selection κ} {links : List Link}

/-- A destination with its lists and matrices resized for a selection. -/
def resizedFor (s : Selection κ) (dst : LooseGeometry κ) : LooseGeometry κ :=
  (dst.resizedVertices s.keepVertex.kept).resizedEdges s.keepEdge.kept

end Buffered

/-! ## What aborts a crop -/

variable {κ : Type} [Coordinate κ] {src dst : EdgeGeometry κ} {bounds : Box κ} {policy : BoundaryPolicy}

theorem cropChecked_of_room (h : ∀ s, Selection.of src bounds policy = .ok s → s.HasRoom dst)
    (schedule : Schedule) : cropChecked src dst bounds policy schedule = crop src dst bounds policy schedule := by
  unfold cropChecked crop
  cases hs : Selection.of src bounds policy with
  | error e => rfl
  | ok s =>
    have hroom := h s hs
    obtain ⟨g, hg, -⟩ := LooseGeometry.exists_resizeBoth dst s.keepVertex.kept s.keepEdge.kept
    dsimp only
    rw [hg, LooseGeometry.resizeBoth_of_room hroom.1 hroom.2]

/-- There is room for what is kept of a source that has room for all its elements. -/
theorem hasRoom_of_source {s : Selection κ} (hs : Selection.of src bounds policy = .ok s) (hd : src.SameLayout dst)
    (hv : src.loose.HasVertexRoom src.vertexCount) (he : src.loose.HasEdgeRoom src.edgeCount) : s.HasRoom dst := by
  have hkv : s.keepVertex.kept ≤ src.vertexCount := Selection.length_keepVertex hs ▸ List.count_le_length
  have hke : s.keepEdge.kept ≤ src.edgeCount := Selection.length_keepEdge hs ▸ List.count_le_length
  have hwv : src.loose.vertices.width = dst.loose.vertices.width := src.vertices_width.trans dst.vertices_width.symm
  have hwe : src.loose.edges.width = dst.loose.edges.width := src.edges_width.trans dst.edges_width.symm
  refine ⟨⟨?_, ?_⟩, ?_, ?_⟩
  · rw [← hwv]
    exact (Nat.mul_le_mul_right _ hkv).trans hv.1
  · exact (AttributeMatrix.hasRoom_congr hd.1 _).1 (hv.2.mono hkv)
  · rw [← hwe]
    exact (Nat.mul_le_mul_right _ hke).trans he.1
  · exact (AttributeMatrix.hasRoom_congr hd.2 _).1 (he.2.mono hke)

end Wireframe
