import Wireframe.Proofs.FaceSides
import Mathlib.Algebra.Group.Nat.Defs
/-!
# Packing and unpacking

A word is not always what it unpacks to, for some of its bits say nothing:
three are not used, and a face code may stand for nothing. Packing writes
neither. So a word that is unpacked and packed again loses just these bits, a
second time it loses none, and the flag of labelled corners has none to lose.
Crossings come back as they were packed, but for a number of junction faces
that does not fit into three bits.
-/

namespace Wireframe

/-! ## Bits of slots -/

namespace Slot

/-- The number of bits of a slot. -/
def width : Slot → Nat
  | vertex | face _ => 2
  | edge _ => 1
  | junctions => 3

theorem getLsbD_mask (s : Slot) (j : Nat) : s.mask.toBitVec.getLsbD j = decide (j < s.width) := by
  cases s with
  | vertex | face _ => exact Nat.testBit_two_pow_sub_one 2 j
  | edge _ => exact Nat.testBit_two_pow_sub_one 1 j
  | junctions => exact Nat.testBit_two_pow_sub_one 3 j

theorem shift_lt (s : Slot) : s.shift.toNat < 32 := by
  have htable : ∀ s ∈ all, s.shift.toNat < 32 := by decide +kernel
  exact htable s s.mem_all

theorem getLsbD_read (s : Slot) (w : UInt32) (j : Nat) :
    (s.read w).toBitVec.getLsbD j = (w.toBitVec.getLsbD (s.shift.toNat + j) && decide (j < s.width)) := by
  have hshift : (s.shift.toBitVec % 32).toNat = s.shift.toNat := Nat.mod_eq_of_lt s.shift_lt
  rw [read, UInt32.toBitVec_and, UInt32.toBitVec_shiftRight, BitVec.getLsbD_and, BitVec.ushiftRight_eq',
    BitVec.getLsbD_ushiftRight, hshift, getLsbD_mask]

/-- Every bit is in a slot, or one of the three that are not used. -/
theorem exists_slot {i : Nat} (hi : i < 32) :
    (26 ≤ i ∧ i ≤ 28) ∨ ∃ s : Slot, ∃ j < s.width, i = s.shift.toNat + j := by
  have htable : ∀ i < 32, (26 ≤ i ∧ i ≤ 28) ∨ ∃ s ∈ all, ∃ j < s.width, i = s.shift.toNat + j := by
    decide +kernel
  exact (htable i hi).imp_right fun ⟨s, _, h⟩ => ⟨s, h⟩

/-- No bit is in two slots. -/
theorem slot_unique {s t : Slot} {j k : Nat} (hj : j < s.width) (hk : k < t.width)
    (h : s.shift.toNat + j = t.shift.toNat + k) : s = t := by
  have htable : ∀ s ∈ all, ∀ t ∈ all, ∀ j < s.width, ∀ k < t.width,
      s.shift.toNat + j = t.shift.toNat + k → s = t := by decide +kernel
  exact htable s s.mem_all t t.mem_all j hj k hk h

theorem not_unused {s : Slot} {j : Nat} (hj : j < s.width) :
    ¬(26 ≤ s.shift.toNat + j ∧ s.shift.toNat + j ≤ 28) := by
  have htable : ∀ s ∈ all, ∀ j < s.width, ¬(26 ≤ s.shift.toNat + j ∧ s.shift.toNat + j ≤ 28) := by
    decide +kernel
  exact htable s s.mem_all j hj

/-- A word that is put together slot by slot has no bits that no slot has. -/
theorem and_foldl_place {m : UInt32} (hm : ∀ s : Slot, m &&& s.mask <<< s.shift = 0) (values : Slot → UInt32)
    (l : List Slot) (w : UInt32) : m &&& l.foldl (fun w t => w ||| t.place (values t)) w = m &&& w := by
  induction l generalizing w with
  | nil => rfl
  | cons t l ih =>
    have hplace : m &&& t.place (values t) = 0 := by
      rw [place, UInt32.shiftLeft_and, ← UInt32.and_assoc, UInt32.and_comm m, UInt32.and_assoc, hm, UInt32.and_zero]
    have hor : m &&& (w ||| t.place (values t)) = m &&& w ||| m &&& t.place (values t) :=
      UInt32.toBitVec_inj.1 BitVec.and_or_distrib_left
    rw [List.foldl_cons, ih, hor, hplace, UInt32.or_zero]

/-- What is read of a value in a slot: a face code that stands for nothing is
read as no crossing. -/
def meaning : Slot → UInt32 → UInt32
  | face _, v => if v = 3 then 0 else v
  | vertex, v | edge _, v | junctions, v => v

end Slot

/-! ## Codes -/

theorem toNat_and_mask (w : UInt32) (k : Nat) {m : UInt32} (hm : m.toNat = 2 ^ k - 1) :
    (w &&& m).toNat = w.toNat % 2 ^ k := by
  rw [UInt32.toNat_and, hm, Nat.and_two_pow_sub_one_eq_mod]

theorem and_one (w : UInt32) : w &&& 1 = 0 ∨ w &&& 1 = 1 := by
  have hmod : (w &&& 1).toNat = w.toNat % 2 := toNat_and_mask w 1 rfl
  simp only [← UInt32.toNat_inj, hmod]
  change w.toNat % 2 = 0 ∨ w.toNat % 2 = 1
  omega

theorem and_three (w : UInt32) : w &&& 3 = 0 ∨ w &&& 3 = 1 ∨ w &&& 3 = 2 ∨ w &&& 3 = 3 := by
  have hmod : (w &&& 3).toNat = w.toNat % 4 := toNat_and_mask w 2 rfl
  simp only [← UInt32.toNat_inj, hmod]
  change w.toNat % 4 = 0 ∨ w.toNat % 4 = 1 ∨ w.toNat % 4 = 2 ∨ w.toNat % 4 = 3
  omega

theorem VertexKind.code_ofCode (bits : UInt32) : (ofCode bits).code = bits &&& 3 := by
  rcases and_three bits with h | h | h | h <;> simp [ofCode, h, code]

theorem FaceCrossing.code_ofCode (bits : UInt32) :
    (ofCode bits).code = if bits &&& 3 = 3 then 0 else bits &&& 3 := by
  rcases and_three bits with h | h | h | h <;> simp [ofCode, h, code]

theorem toUInt8_and_seven (n : UInt8) : (n.toUInt32 &&& 7).toUInt8 = n % 8 := by
  have hmod : (n.toUInt32 &&& 7).toNat = n.toNat % 8 := toNat_and_mask n.toUInt32 3 rfl
  apply UInt8.toNat_inj.1
  rw [UInt32.toNat_toUInt8, hmod, UInt8.toNat_mod]
  change n.toNat % 8 % 256 = n.toNat % 8
  omega

theorem toUInt32_and_seven (w : UInt32) : (w &&& 7).toUInt8.toUInt32 &&& 7 = w &&& 7 := by
  have hmod : (w &&& 7).toNat = w.toNat % 8 := toNat_and_mask w 3 rfl
  have hback : (w &&& 7).toUInt8.toUInt32 = w &&& 7 := by
    apply UInt32.toNat_inj.1
    rw [UInt8.toNat_toUInt32, UInt32.toNat_toUInt8, hmod]
    omega
  rw [hback, UInt32.and_assoc, UInt32.and_self]

/-- The bits of a word that are not used. -/
def CellFlag.unused : UInt32 := (7 : UInt32) <<< (26 : UInt32)

/-! ## Packing first -/

namespace Crossings

/-- Crossings come back, the number of junction faces cut to three bits. -/
theorem unpack_pack (c : Crossings) : c.pack.unpack = { c with junctions := c.junctions % 8 } := by
  rw [CellFlag.unpack, vertex_pack, funext c.face_pack, funext c.edge_pack, junctions_pack, toUInt8_and_seven]

theorem unpack_pack_iff {c : Crossings} : c.pack.unpack = c ↔ c.junctions < 8 := by
  have hmod : c.junctions % 8 = c.junctions ↔ c.junctions < 8 := by
    rw [← UInt8.toNat_inj, UInt8.toNat_mod, UInt8.lt_iff_toNat_lt]
    change c.junctions.toNat % 8 = c.junctions.toNat ↔ c.junctions.toNat < 8
    omega
  rw [unpack_pack, ← hmod]
  constructor
  · exact congrArg junctions
  · intro h
    rw [h]

/-- Packing sets no unused bit. -/
theorem pack_unused (c : Crossings) : CellFlag.unused &&& c.pack.bits = 0 := by
  have hslots : ∀ s ∈ Slot.all, CellFlag.unused &&& s.mask <<< s.shift = 0 := by decide +kernel
  rw [bits_pack, Slot.and_foldl_place fun s => hslots s s.mem_all]
  rfl

end Crossings

/-! ## Unpacking first -/

namespace CellFlag

/-- A bit of a word, the lowest being 0. -/
def bit (flag : CellFlag) (i : Nat) : Bool := flag.bits.toBitVec.getLsbD i

/-- A face has the code that stands for nothing. -/
def Undefined (flag : CellFlag) (f : Face) : Prop := flag.bits >>> f.shift &&& 3 = 3

/-- The bits that say nothing: the unused ones, and those of a face code that
stands for nothing. -/
def Silent (flag : CellFlag) (i : Nat) : Prop :=
  (26 ≤ i ∧ i ≤ 28) ∨ ∃ f, flag.Undefined f ∧ (i = f.shift.toNat ∨ i = f.shift.toNat + 1)

/-- A word that is unpacked and packed again has in every slot what the value
there means. -/
theorem read_repack (flag : CellFlag) (s : Slot) : s.read flag.unpack.pack.bits = s.meaning (s.read flag.bits) := by
  rw [Crossings.read_pack]
  cases s with
  | vertex =>
    change (VertexKind.ofCode flag.bits).code &&& 3 = flag.bits >>> (0 : UInt32) &&& 3
    rw [VertexKind.code_and, VertexKind.code_ofCode, UInt32.shiftRight_zero]
  | face f =>
    change (FaceCrossing.ofCode (flag.bits >>> f.shift)).code &&& 3 = _
    rw [FaceCrossing.code_and, FaceCrossing.code_ofCode]
    rfl
  | edge e =>
    change (if decide (flag.bits >>> e.shift &&& 1 ≠ 0) = true then 1 else 0 : UInt32) &&& 1 =
      flag.bits >>> e.shift &&& 1
    rcases and_one (flag.bits >>> e.shift) with h | h <;> rw [h] <;> rfl
  | junctions =>
    change (flag.bits >>> junctionShift &&& 7).toUInt8.toUInt32 &&& 7 = flag.bits >>> junctionShift &&& 7
    rw [toUInt32_and_seven]

theorem bit_unused (c : Crossings) {i : Nat} (hi : 26 ≤ i ∧ i ≤ 28) : c.pack.bit i = false := by
  have hone : ∀ i ≤ 28, 26 ≤ i → unused.toBitVec.getLsbD i = true := by decide +kernel
  have hand : (unused &&& c.pack.bits).toBitVec.getLsbD i = false := by
    rw [c.pack_unused]
    exact BitVec.getLsbD_zero
  rwa [UInt32.toBitVec_and, BitVec.getLsbD_and, hone i hi.2 hi.1, Bool.true_and] at hand

/-- A bit of a slot is the same bit of what the slot is read as. -/
theorem bit_slot (flag : CellFlag) {s : Slot} {j : Nat} (hj : j < s.width) :
    flag.bit (s.shift.toNat + j) = (s.read flag.bits).toBitVec.getLsbD j := by
  rw [Slot.getLsbD_read, decide_eq_true hj, Bool.and_true, bit]

/-- A bit of a slot says nothing if the slot is that of an undefined face. -/
theorem silent_slot (flag : CellFlag) {s : Slot} {j : Nat} (hj : j < s.width) :
    flag.Silent (s.shift.toNat + j) ↔ ∃ f, s = .face f ∧ flag.Undefined f := by
  constructor
  · rintro (hun | ⟨f, hf, h | h⟩)
    · exact absurd hun (Slot.not_unused hj)
    · exact ⟨f, Slot.slot_unique hj (t := .face f) (k := 0) Nat.zero_lt_two h, hf⟩
    · exact ⟨f, Slot.slot_unique hj (t := .face f) (k := 1) Nat.one_lt_two h, hf⟩
  · rintro ⟨f, rfl, hf⟩
    have hj : j < 2 := hj
    have hcase : j = 0 ∨ j = 1 := by omega
    exact .inr ⟨f, hf, hcase.imp (congrArg _) (congrArg _)⟩

theorem meaning_of_undefined {flag : CellFlag} {s : Slot} (h : ∃ f, s = .face f ∧ flag.Undefined f) :
    s.meaning (s.read flag.bits) = 0 := by
  obtain ⟨f, rfl, hf⟩ := h
  exact if_pos hf

theorem meaning_of_defined {flag : CellFlag} {s : Slot} (h : ¬∃ f, s = .face f ∧ flag.Undefined f) :
    s.meaning (s.read flag.bits) = s.read flag.bits := by
  cases s with
  | face f => exact if_neg fun hf => h ⟨f, rfl, hf⟩
  | vertex | edge _ | junctions => rfl

theorem bit_of_le (flag : CellFlag) {i : Nat} (hi : 32 ≤ i) : flag.bit i = false :=
  BitVec.getLsbD_of_ge _ _ hi

/-- A word that is unpacked and packed again keeps the bits that say something
and has no others. -/
theorem bit_repack (flag : CellFlag) (i : Nat) :
    flag.unpack.pack.bit i = true ↔ flag.bit i = true ∧ ¬flag.Silent i := by
  rcases Nat.lt_or_ge i 32 with hi | hi
  · rcases Slot.exists_slot hi with hun | ⟨s, j, hj, rfl⟩
    · rw [bit_unused _ hun]
      exact iff_of_false Bool.false_ne_true fun h => h.2 (.inl hun)
    · rw [silent_slot flag hj, bit_slot _ hj, bit_slot _ hj, read_repack]
      by_cases hsilent : ∃ f, s = .face f ∧ flag.Undefined f
      · rw [meaning_of_undefined hsilent]
        exact iff_of_false (by simp) fun h => h.2 hsilent
      · rw [meaning_of_defined hsilent, and_iff_left hsilent]
  · rw [bit_of_le _ hi, bit_of_le _ hi]
    exact iff_of_false Bool.false_ne_true fun h => Bool.false_ne_true h.1

/-- The junction faces that are read always fit. -/
theorem junctions_unpack_lt (flag : CellFlag) : flag.unpack.junctions < 8 := by
  have hmod : (flag.bits >>> junctionShift &&& 7).toNat = (flag.bits >>> junctionShift).toNat % 8 :=
    toNat_and_mask _ 3 rfl
  rw [UInt8.lt_iff_toNat_lt]
  change (flag.bits >>> junctionShift &&& 7).toUInt8.toNat < 8
  rw [UInt32.toNat_toUInt8, hmod]
  omega

theorem unpack_repack (flag : CellFlag) : flag.unpack.pack.unpack = flag.unpack :=
  Crossings.unpack_pack_iff.2 flag.junctions_unpack_lt

/-- Every code that is packed stands for something. -/
theorem not_undefined_pack (c : Crossings) (f : Face) : ¬c.pack.Undefined f := by
  have hcode : ∀ t : FaceCrossing, t.code &&& 3 ≠ 3 := by
    intro t
    cases t <;> decide
  intro h
  have hread : (c.faces f).code &&& 3 = 3 := (c.read_pack (.face f)).symm.trans h
  exact hcode _ hread

/-- The crossings of labelled corners come back as they are. -/
theorem unpack_ofLabels (labels : CornerLabels) : (ofLabels labels).unpack = labels.classify := by
  apply Crossings.unpack_pack_iff.2
  have hle := labels.junctionCount_le
  rw [CornerLabels.junctions_classify, UInt8.lt_iff_toNat_lt, UInt8.toNat_ofNat]
  change labels.junctionCount % 256 < 8
  omega

/-- Packing and unpacking are inverse to each other where they can be.
Crossings come back with the number of their junction faces modulo eight, so
those with fewer than eight as they were. A word that is unpacked and packed
again has the bits it had, but for the silent ones, which are zero; it unpacks
to the same, and it does not change a second time. The flag of labelled corners
unpacks to their classification; its unused bits are zero, none of its face
codes stands for nothing, and packed again it is the same. -/
theorem pack_unpack_inverse :
    (∀ c : Crossings, c.pack.unpack = { c with junctions := c.junctions % 8 } ∧
        (c.pack.unpack = c ↔ c.junctions < 8)) ∧
      (∀ flag : CellFlag, (∀ i, flag.unpack.pack.bit i = true ↔ flag.bit i = true ∧ ¬flag.Silent i) ∧
        flag.unpack.pack.unpack = flag.unpack ∧ flag.unpack.pack.unpack.pack = flag.unpack.pack) ∧
      ∀ labels : CornerLabels, (ofLabels labels).unpack = labels.classify ∧
        (∀ i, 26 ≤ i ∧ i ≤ 28 → (ofLabels labels).bit i = false) ∧
        (∀ f, ¬(ofLabels labels).Undefined f) ∧ (ofLabels labels).unpack.pack = ofLabels labels := by
  refine ⟨fun c => ?_, fun flag => ?_, fun labels => ?_⟩
  · exact ⟨c.unpack_pack, Crossings.unpack_pack_iff⟩
  · exact ⟨flag.bit_repack, flag.unpack_repack, congrArg Crossings.pack flag.unpack_repack⟩
  · have hunpack := unpack_ofLabels labels
    exact ⟨hunpack, fun i => bit_unused _, not_undefined_pack _, congrArg Crossings.pack hunpack⟩

end CellFlag

end Wireframe
