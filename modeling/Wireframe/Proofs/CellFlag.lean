import Wireframe.Cell.Flag
/-!
# What a cell flag says

The word of a cell flag is cut into slots that do not overlap, one for each
part of the crossings. So reading a packed word gives back what was packed, and
the flag of labelled corners tells the crossing of every face and edge as the
labels have it, also where the classification stops early.
-/

namespace Wireframe

/-! ## Slots -/

/-- A slot of the word. -/
inductive Slot where
  | vertex
  | face (f : Face)
  | edge (e : CellEdge)
  | junctions
  deriving DecidableEq

namespace Slot

/-- The slots from the lowest on. -/
def all : List Slot := vertex :: (Face.all.map face ++ CellEdge.all.map edge ++ [junctions])

/-- The lowest bit of a slot. -/
def shift : Slot → UInt32
  | vertex => 0
  | face f => f.shift
  | edge e => e.shift
  | junctions => junctionShift

/-- The greatest value of a slot, all of whose bits are set. -/
def mask : Slot → UInt32
  | vertex | face _ => 3
  | edge _ => 1
  | junctions => 7

/-- The value in a slot of a word. -/
def read (s : Slot) (w : UInt32) : UInt32 := w >>> s.shift &&& s.mask

/-- The word with a value in one slot, cut to its bits, and nothing else. -/
def place (s : Slot) (v : UInt32) : UInt32 := (v &&& s.mask) <<< s.shift

theorem mem_all (s : Slot) : s ∈ all := by
  cases s with
  | vertex | junctions => decide
  | face f => cases f <;> decide
  | edge e => cases e <;> decide

/-- Slots do not overlap. -/
theorem read_mask_ne {s t : Slot} (h : s ≠ t) : s.read (t.mask <<< t.shift) = 0 := by
  have htable : ∀ s ∈ all, ∀ t ∈ all, s ≠ t → s.read (t.mask <<< t.shift) = 0 := by decide +kernel
  exact htable s s.mem_all t t.mem_all h

/-- No slot leaves the word. -/
theorem read_mask_self (s : Slot) : s.read (s.mask <<< s.shift) = s.mask := by
  have htable : ∀ s ∈ all, s.read (s.mask <<< s.shift) = s.mask := by decide +kernel
  exact htable s s.mem_all

theorem read_or (s : Slot) (a b : UInt32) : s.read (a ||| b) = s.read a ||| s.read b := by
  rw [read, UInt32.shiftRight_or]
  exact UInt32.toBitVec_inj.1 BitVec.and_or_distrib_right

theorem and_shiftLeft_shiftRight (v m n : UInt32) : (v &&& m) <<< n >>> n = v &&& m <<< n >>> n := by
  apply UInt32.toBitVec_inj.1
  simp only [UInt32.toBitVec_shiftRight, UInt32.toBitVec_shiftLeft, UInt32.toBitVec_and]
  ext i hi
  simp [BitVec.getLsbD_eq_getElem hi, Bool.and_left_comm]

theorem read_place_self (s : Slot) (v : UInt32) : s.read (s.place v) = v &&& s.mask := by
  rw [read, place, and_shiftLeft_shiftRight, UInt32.and_assoc, ← read, read_mask_self]

theorem read_place_ne {s t : Slot} (h : s ≠ t) (v : UInt32) : s.read (t.place v) = 0 := by
  rw [read, place, UInt32.shiftLeft_and, UInt32.shiftRight_and, UInt32.and_assoc, ← read, read_mask_ne h,
    UInt32.and_zero]

/-- What is read in a slot of a word that is put together slot by slot. -/
theorem read_foldl_place (s : Slot) (values : Slot → UInt32) (l : List Slot) (w : UInt32) :
    s.read (l.foldl (fun w t => w ||| t.place (values t)) w) =
      s.read w ||| if s ∈ l then values s &&& s.mask else 0 := by
  induction l generalizing w with
  | nil => simp
  | cons t l ih =>
    rw [List.foldl_cons, ih, read_or, UInt32.or_assoc]
    by_cases hst : s = t
    · subst hst
      rw [read_place_self]
      by_cases hl : s ∈ l <;> simp [hl]
    · simp [read_place_ne hst, hst]

end Slot

/-! ## Packing -/

namespace VertexKind

theorem code_and (k : VertexKind) : k.code &&& 3 = k.code := by
  cases k <;> decide

theorem ofCode_and (bits : UInt32) : ofCode (bits &&& 3) = ofCode bits := by
  rw [ofCode, UInt32.and_assoc, UInt32.and_self, ofCode]

theorem ofCode_code (k : VertexKind) : ofCode k.code = k := by
  cases k <;> decide

end VertexKind

namespace FaceCrossing

theorem code_and (t : FaceCrossing) : t.code &&& 3 = t.code := by
  cases t <;> decide

theorem ofCode_and (bits : UInt32) : ofCode (bits &&& 3) = ofCode bits := by
  rw [ofCode, UInt32.and_assoc, UInt32.and_self, ofCode]

theorem ofCode_code (t : FaceCrossing) : ofCode t.code = t := by
  cases t <;> decide

end FaceCrossing

namespace Crossings

/-- What is packed into a slot. -/
def value (c : Crossings) : Slot → UInt32
  | .vertex => c.vertex.code
  | .face f => (c.faces f).code
  | .edge e => if c.edges e then 1 else 0
  | .junctions => c.junctions.toUInt32

/-- Crossings are packed slot by slot. -/
theorem bits_pack (c : Crossings) : c.pack.bits = Slot.all.foldl (fun w s => w ||| s.place (c.value s)) 0 := by
  have hedge (b : Bool) : (if b then 1 else 0 : UInt32) &&& 1 = if b then 1 else 0 := by cases b <;> decide
  simp only [Slot.all, List.foldl_cons, List.foldl_append, List.foldl_map, List.foldl_nil, Slot.place, value,
    Slot.mask, Slot.shift, VertexKind.code_and, FaceCrossing.code_and, hedge, UInt32.zero_or,
    UInt32.shiftLeft_zero]
  rfl

theorem read_pack (c : Crossings) (s : Slot) : s.read c.pack.bits = c.value s &&& s.mask := by
  rw [bits_pack, Slot.read_foldl_place, if_pos s.mem_all, Slot.read, UInt32.zero_shiftRight, UInt32.zero_and,
    UInt32.zero_or]

theorem vertex_pack (c : Crossings) : c.pack.vertex = c.vertex :=
  calc c.pack.vertex = .ofCode (Slot.vertex.read c.pack.bits) := by
        rw [Slot.read, Slot.shift, UInt32.shiftRight_zero, Slot.mask, VertexKind.ofCode_and, CellFlag.vertex]
    _ = .ofCode (c.vertex.code &&& 3) := by rw [read_pack]; rfl
    _ = c.vertex := by rw [VertexKind.ofCode_and, VertexKind.ofCode_code]

/-- The number of junction faces is cut to three bits. -/
theorem junctions_pack (c : Crossings) : c.pack.junctions = c.junctions.toUInt32 &&& 7 :=
  c.read_pack .junctions

theorem face_pack (c : Crossings) (f : Face) : c.pack.face f = c.faces f :=
  calc c.pack.face f = .ofCode ((Slot.face f).read c.pack.bits) := (FaceCrossing.ofCode_and _).symm
    _ = .ofCode ((c.faces f).code &&& 3) := by rw [read_pack]; rfl
    _ = c.faces f := by rw [FaceCrossing.ofCode_and, FaceCrossing.ofCode_code]

theorem edge_pack (c : Crossings) (e : CellEdge) : c.pack.edge e = c.edges e :=
  calc c.pack.edge e = decide ((Slot.edge e).read c.pack.bits ≠ 0) := rfl
    _ = decide ((if c.edges e then 1 else 0 : UInt32) &&& 1 ≠ 0) := by rw [read_pack]; rfl
    _ = c.edges e := by cases c.edges e <;> decide

end Crossings

/-! ## Flags of labels -/

theorem CellEdge.mem_all (e : CellEdge) : e ∈ all := by
  cases e <;> decide

theorem FaceCrossing.ofLabels_same (a : Int32) : ofLabels a a a a = none := by
  simp [ofLabels, distinctLabels]

namespace CornerLabels

variable {labels : CornerLabels}

theorem crosses_eq_false_iff {e : CellEdge} : labels.crosses e = false ↔ labels e.ends.1 = labels e.ends.2 := by
  simp [crosses]

/-- The edges connect all corners, so a cell without a crossed edge has one
label. -/
theorem eq_of_uncrossed (h : ∀ e, labels.crosses e = false) (c : Corner) : labels c = labels 0 := by
  have hends : ∀ e : CellEdge, labels e.ends.2 = labels e.ends.1 := fun e => (crosses_eq_false_iff.1 (h e)).symm
  have h1 : labels 1 = labels 0 := hends .backBottom
  have h2 : labels 2 = labels 0 := (hends .rightBottom).trans h1
  have h3 : labels 3 = labels 0 := hends .leftBottom
  match c with
  | 0 => rfl
  | 1 => exact h1
  | 2 => exact h2
  | 3 => exact h3
  | 4 => exact hends .leftBack
  | 5 => exact (hends .rightBack).trans h1
  | 6 => exact (hends .rightFront).trans h2
  | 7 => exact (hends .leftFront).trans h3

theorem crossing_of_uncrossed (h : ∀ e, labels.crosses e = false) (f : Face) : labels.crossing f = .none := by
  simp only [crossing, eq_of_uncrossed h, FaceCrossing.ofLabels_same]

theorem all_uncrossed_iff :
    (CellEdge.all.all fun e => !labels.crosses e) = true ↔ ∀ e, labels.crosses e = false := by
  simp [List.all_eq_true, CellEdge.mem_all]

/-- Stopping early tells nothing else of the faces. -/
theorem faces_classify (labels : CornerLabels) : labels.classify.faces = labels.crossing := by
  unfold classify
  split
  next h => exact funext fun f => (crossing_of_uncrossed (all_uncrossed_iff.1 h) f).symm
  next => rfl

theorem edges_classify (labels : CornerLabels) : labels.classify.edges = labels.crosses := by
  unfold classify
  split
  next h => exact funext fun e => (all_uncrossed_iff.1 h e).symm
  next => rfl

end CornerLabels

namespace CellFlag

theorem face_ofLabels (labels : CornerLabels) (f : Face) : (ofLabels labels).face f = labels.crossing f := by
  rw [ofLabels, Crossings.face_pack, CornerLabels.faces_classify]

theorem edge_ofLabels (labels : CornerLabels) (e : CellEdge) : (ofLabels labels).edge e = labels.crosses e := by
  rw [ofLabels, Crossings.edge_pack, CornerLabels.edges_classify]

end CellFlag

end Wireframe
