import Wireframe.MatrixCalls
import Wireframe.Proofs.AttributeMatrix
import Wireframe.Proofs.Hiding
/-!
# What calls keep of a matrix

Starting from a matrix without arrays, and as long as callers keep their
promise, no call brings an array out of step: sizes are compared before
anything is stored, and a matrix is never resized without its arrays. A matrix
lists its names by their bytes whatever was done to it, since that is how its
arrays are kept.

A call has an answer, but for one: who resizes a matrix to a size for which one
of its arrays would need more values than can be counted ends the program. An
array without tuples may be as wide as it likes, so that this can happen to a
small matrix too.
-/

namespace Wireframe

/-! ## The order of names -/

variable {κ : Type}

theorem AttributeMatrix.names_sorted (m : AttributeMatrix κ) :
    m.names.Pairwise fun a b => utf8Bytes a < utf8Bytes b :=
  m.arrays.keys_sorted.imp byteOrder_eq_lt.1

/-! ## Storing -/

namespace InPlace

variable {m : AttributeMatrix κ} {name : String} {a : TypedArray κ}

/-- Storing in place is storing, with the matrix there after a refusal as well. -/
theorem insertArray_eq (m : AttributeMatrix κ) (name : String) (a : TypedArray κ) :
    insertArray m name a = match m.insert name a with
      | .ok r => (.ok (m.arrays.find? name), r)
      | .error e => (.error e, m) := by
  unfold insertArray AttributeMatrix.insert
  by_cases h : a.size = m.size
  · rw [if_neg (not_not.2 h), if_pos h]
  · rw [if_pos h, if_neg h]

end InPlace

namespace AttributeMatrix

variable {m r : AttributeMatrix κ} {name : String} {a : TypedArray κ}

theorem insert_of_eq (name : String) (h : a.size = m.size) :
    m.insert name a = .ok { m with arrays := m.arrays.insert name a } := if_pos h

theorem insert_of_ne (name : String) (h : a.size ≠ m.size) :
    m.insert name a = .error (.tupleCountMismatch m.name name m.size a.size) := if_neg h

theorem inStep_of_insert (h : m.InStep m.size) (hr : m.insert name a = .ok r) : r.InStep r.size := by
  by_cases ha : a.size = m.size
  · rw [insert_of_eq name ha] at hr
    cases hr
    exact h.insert name ha
  · rw [insert_of_ne name ha] at hr
    cases hr

end AttributeMatrix

/-! ## Calls -/

namespace MatrixCall

variable [Coordinate κ] {m : AttributeMatrix κ} {c : MatrixCall κ}

/-- There is room for what the call resizes. -/
def HasRoom (m : AttributeMatrix κ) : MatrixCall κ → Prop
  | resize size => m.HasRoom size
  | _ => True

theorem run_resize {size : Nat} (h : m.HasRoom size) : (resize size).run m = .ok (.ok none, m.resized size) := by
  rw [run, AttributeMatrix.resize_of_hasRoom h]

theorem run_resize_overflow {size : Nat} (h : ¬m.HasRoom size) :
    (resize size).run m = .error (.fault .overflow) := by
  obtain ⟨r, hr, -⟩ := AttributeMatrix.resize_of_not_hasRoom h
  rw [run, hr]

/-- A call for which there is room has an answer and brings no array out of step. -/
theorem run_inStep (h : m.InStep m.size) (hc : c.KeepsSizes m) (hroom : c.HasRoom m) :
    ∃ answer r, c.run m = .ok (answer, r) ∧ r.InStep r.size := by
  cases c with
  | insert name a =>
    rw [run, InPlace.insertArray_eq]
    cases hr : m.insert name a with
    | error e => exact ⟨_, _, rfl, h⟩
    | ok r => exact ⟨_, _, rfl, AttributeMatrix.inStep_of_insert h hr⟩
  | erase name => exact ⟨_, _, rfl, h.erase name⟩
  | resize size => exact ⟨_, _, run_resize hroom, AttributeMatrix.inStep_resized m size⟩
  | edit name type change =>
    rw [run]
    cases ha : m.getAs name type with
    | error e => exact ⟨_, _, rfl, h⟩
    | ok a =>
      have hsize : a.size = m.size := h name ⟨type, a⟩ (AttributeMatrix.getAs_eq_ok.1 ha)
      exact ⟨_, _, rfl, h.put name ((hc a ha).trans hsize)⟩
  | editAll change => exact ⟨_, _, rfl, h.mapEntries hc⟩

/-- A call for which there is none ends the program. -/
theorem run_overflow (h : ¬c.HasRoom m) : c.run m = .error (.fault .overflow) := by
  cases c with
  | resize size => exact run_resize_overflow h
  | _ => exact absurd trivial h

/-- What a call leaves behind is in step if the matrix was. -/
theorem inStep_of_run {answer : Except Error (Option (TypedArray κ))} {r : AttributeMatrix κ}
    (h : m.InStep m.size) (hc : c.KeepsSizes m) (hr : c.run m = .ok (answer, r)) : r.InStep r.size := by
  by_cases hroom : c.HasRoom m
  · obtain ⟨answer', r', hr', hin⟩ := run_inStep h hc hroom
    cases hr.symm.trans hr'
    exact hin
  · cases hr.symm.trans (run_overflow hroom)

end MatrixCall

/-! ## Reached matrices -/

namespace AttributeMatrix

variable [Coordinate κ] {m : AttributeMatrix κ}

theorem Reached.inStep (h : m.Reached) : m.InStep m.size := by
  induction h with
  | empty name size => exact inStep_empty name size
  | call _ hc hr ih => exact MatrixCall.inStep_of_run ih hc hr
  | insert _ hr ih => exact inStep_of_insert ih hr
  | @emptyLike m r size _ hr _ =>
    rw [emptyLike_eq] at hr
    split at hr
    · cases hr
      exact inStep_blank m size
    · cases hr

/-- A reached matrix is in step and lists its names by their bytes, and every
call that keeps the promise leaves another such matrix, if there is room for
what it resizes. An array is stored if it has the right size. Otherwise both
sizes are reported and whatever was there stays. Resizing and emptying keep the
layout, and without room they end the program in an overflow. -/
theorem reached_in_step (h : m.Reached) :
    m.validate = .ok () ∧ (m.names.Pairwise fun a b => utf8Bytes a < utf8Bytes b) ∧
      (∀ c : MatrixCall κ, c.KeepsSizes m →
        (c.HasRoom m → ∃ answer r, c.run m = .ok (answer, r) ∧ r.Reached) ∧
        (¬c.HasRoom m → c.run m = .error (.fault .overflow))) ∧
      (∀ name (a : TypedArray κ),
        (a.size = m.size → ∃ r, (MatrixCall.insert name a).run m = .ok (.ok (m.arrays.find? name), r) ∧
          m.insert name a = .ok r ∧ r.Reached ∧ r.arrays.find? name = some a) ∧
        (a.size ≠ m.size →
          (MatrixCall.insert name a).run m = .ok (.error (.tupleCountMismatch m.name name m.size a.size), m) ∧
          m.insert name a = .error (.tupleCountMismatch m.name name m.size a.size))) ∧
      ∀ n, (m.HasRoom n →
          (∃ r, (MatrixCall.resize n).run m = .ok (.ok none, r) ∧ r.size = n ∧ r.layout = m.layout) ∧
          ∃ r, m.emptyLike n = .ok r ∧ r.Reached ∧ r.size = n ∧ r.layout = m.layout) ∧
        (¬m.HasRoom n →
          (MatrixCall.resize n).run m = .error (.fault .overflow) ∧ m.emptyLike n = .error .overflow) := by
  refine ⟨validate_eq_ok.2 h.inStep, m.names_sorted, fun c hc => ⟨fun hroom => ?_, MatrixCall.run_overflow⟩,
    fun name a => ⟨fun ha => ?_, fun ha => ?_⟩, fun n => ⟨fun hroom => ?_, fun hroom => ?_⟩⟩
  · obtain ⟨answer, r, hr, -⟩ := MatrixCall.run_inStep h.inStep hc hroom
    exact ⟨answer, r, hr, h.call hc hr⟩
  · have hr := insert_of_eq name ha
    refine ⟨_, ?_, hr, h.insert hr, SortedMap.find?_insert_self m.arrays name a⟩
    rw [MatrixCall.run, InPlace.insertArray_eq, hr]
  · have hr := insert_of_ne name ha
    refine ⟨?_, hr⟩
    rw [MatrixCall.run, InPlace.insertArray_eq, hr]
  · have hempty : m.emptyLike n = .ok (m.blank n) := by rw [emptyLike_eq, if_pos hroom]
    exact ⟨⟨_, MatrixCall.run_resize hroom, rfl, layout_resized m n⟩,
      _, hempty, h.emptyLike hempty, rfl, layout_blank m n⟩
  · exact ⟨MatrixCall.run_resize_overflow hroom, by rw [emptyLike_eq, if_neg hroom]⟩

/-- Two numbers were stored, and then there was to be one more. -/
def threeIds : AttributeMatrix Float32 := ⟨"Vertex Data", 3,
  ⟨[("Ids", ⟨.i32, 1, [4, 5, 0], Nat.one_pos, by decide⟩)], List.pairwise_singleton _ _⟩⟩

/-- No pairs were stored yet. -/
def noPairs : AttributeMatrix Float32 := ⟨"Vertex Data", 0,
  ⟨[("Pairs", ⟨.u8, 2, [], Nat.two_pos, by decide⟩)], List.pairwise_singleton _ _⟩⟩

theorem reached_noPairs : noPairs.Reached := by
  have hempty : (AttributeMatrix.empty "Vertex Data" 0 : AttributeMatrix Float32).Reached := .empty _ _
  exact hempty.call (c := .insert "Pairs" ⟨.u8, 2, [], Nat.two_pos, by decide⟩) trivial rfl

theorem reached_in_step_threeIds : threeIds.Reached ∧ threeIds.validate = .ok () ∧
    (∃ answer r, (MatrixCall.edit "Ids" .i32 (·.fill 7)).run threeIds = .ok (answer, r) ∧ r.Reached) ∧
    (MatrixCall.insert "Ids" ⟨.bool, 2, [], Nat.two_pos, by decide⟩).run threeIds =
      .ok (.error (.tupleCountMismatch "Vertex Data" "Ids" 3 0), threeIds) ∧
    (∃ r, threeIds.emptyLike 5 = .ok r ∧ r.Reached ∧ r.size = 5 ∧ r.layout = [("Ids", .i32, 1)]) ∧
    noPairs.Reached ∧ (MatrixCall.resize halfSize).run noPairs = .error (.fault .overflow) := by
  have htwo : (AttributeMatrix.empty "Vertex Data" 2 : AttributeMatrix Float32).Reached := .empty _ _
  have hids := htwo.call (c := .insert "Ids" ⟨.i32, 1, [4, 5], Nat.one_pos, by decide⟩) trivial rfl
  have hthree : threeIds.Reached := hids.call (c := .resize 3) trivial rfl
  have hkeeps : (MatrixCall.edit "Ids" .i32 (·.fill 7)).KeepsSizes threeIds := by
    intro a _
    simp [TupleArray.size, TupleArray.fill]
  obtain ⟨hvalid, -, hcall, hinsert, hsizes⟩ := reached_in_step hthree
  obtain ⟨-, -, hpairs, -⟩ := reached_in_step reached_noPairs
  exact ⟨hthree, hvalid, (hcall _ hkeeps).1 trivial, ((hinsert _ _).2 (by decide)).1, ((hsizes 5).1 (by decide)).2,
    reached_noPairs, (hpairs (.resize halfSize) trivial).2 (by decide : ¬noPairs.HasRoom halfSize)⟩

/-- A reached matrix that is in step need not have room for half of all counts. -/
theorem noPairs_overflows : noPairs.Reached ∧ noPairs.validate = .ok () ∧
    (MatrixCall.resize halfSize).run noPairs = .error (.fault .overflow) ∧
    noPairs.emptyLike halfSize = .error .overflow := by
  have hroom : ¬noPairs.HasRoom halfSize := by decide
  exact ⟨reached_noPairs, validate_eq_ok.2 reached_noPairs.inStep, MatrixCall.run_resize_overflow hroom,
    by rw [emptyLike_eq, if_neg hroom]⟩

end AttributeMatrix

end Wireframe
