import Wireframe.Error
/-!
# Arrays of tuples

An array of tuples of one width is kept as one flat list of values, tuple by
tuple. The width is at least one and divides the length of the list, so the
number of tuples need not be kept.

`tuples` cuts the whole list into tuples; `tuple?` reads one of them where it
lies.

An array is made or resized for a number of tuples, and the number of values
for that is reckoned first. Where it is no count the program ends there with a
fault. `blank` and `resized` are the arrays that it has otherwise.
-/

namespace Wireframe

/-- Tuples of one width, as one flat list of values. -/
@[ext]
structure TupleArray (α : Type) where
  width : Nat
  values : List α
  width_pos : 0 < width
  width_dvd : width ∣ values.length

namespace TupleArray

variable {α : Type}

/-- The number of tuples. -/
def size (a : TupleArray α) : Nat := a.values.length / a.width

theorem size_mul_width (a : TupleArray α) : a.size * a.width = a.values.length :=
  Nat.div_mul_cancel a.width_dvd

/-! ## Making arrays -/

/-- The array over a given buffer. -/
def ofValues (width : Nat) (values : List α) : Except Error (TupleArray α) :=
  if hw : width = 0 then .error .zeroWidth
  else if hd : width ∣ values.length then .ok ⟨width, values, Nat.pos_of_ne_zero hw, hd⟩
  else .error (.raggedBuffer values.length width)

/-- The array of a number of tuples, every value the same. A width of zero is
refused before the values are counted. -/
def filled (value : α) (size width : Nat) : Except Fault (Except Error (TupleArray α)) :=
  if hw : width = 0 then .ok (.error .zeroWidth)
  else (Checked.count (size * width)).map fun _ =>
    .ok ⟨width, .replicate (size * width) value, Nat.pos_of_ne_zero hw,
      by rw [List.length_replicate]; exact Nat.dvd_mul_left _ _⟩

/-- The array of as many tuples as asked for, as wide as another array. -/
def blank (value : α) (a : TupleArray α) (size : Nat) : TupleArray α :=
  ⟨a.width, .replicate (size * a.width) value, a.width_pos,
    by rw [List.length_replicate]; exact Nat.dvd_mul_left _ _⟩

/-- Makes an array of as many tuples as asked for, as wide as another array. -/
def emptyLike (value : α) (a : TupleArray α) (size : Nat) : Except Fault (TupleArray α) :=
  (Checked.count (size * a.width)).map fun _ => a.blank value size

/-! ## Reading -/

/-- Cuts the first `n` pieces of length `w` off a list. -/
def chunks (w : Nat) : Nat → List α → List (List α)
  | 0, _ => []
  | n + 1, l => l.take w :: chunks w n (l.drop w)

/-- All tuples, in order. -/
def tuples (a : TupleArray α) : List (List α) := chunks a.width a.size a.values

/-- The tuple at an index. -/
def tuple? (a : TupleArray α) (i : Nat) : Option (List α) :=
  if i < a.size then some ((a.values.drop (i * a.width)).take a.width) else none

/-- The value at an index of the flat list. -/
def value? (a : TupleArray α) (i : Nat) : Option α := a.values[i]?

/-! ## Writing -/

theorem tuple_end_le {a : TupleArray α} {i : Nat} (h : i < a.size) :
    i * a.width + a.width ≤ a.values.length := by
  rw [← a.size_mul_width, ← Nat.succ_mul]
  exact Nat.mul_le_mul_right _ h

/-- Overwrites the tuple at an index; refused past the end and for a tuple of
another width. -/
def setTuple? (a : TupleArray α) (i : Nat) (tuple : List α) : Option (TupleArray α) :=
  if h : i < a.size ∧ tuple.length = a.width then
    some {
      width := a.width
      values := a.values.take (i * a.width) ++ tuple ++ a.values.drop (i * a.width + a.width)
      width_pos := a.width_pos
      width_dvd := by
        have hle := tuple_end_le h.1
        have hlen : (a.values.take (i * a.width) ++ tuple
            ++ a.values.drop (i * a.width + a.width)).length = a.values.length := by
          simp only [List.length_append, List.length_take, List.length_drop, h.2]
          omega
        rw [hlen]
        exact a.width_dvd }
  else none

/-- Overwrites the value at an index of the flat list. -/
def setValue? (a : TupleArray α) (i : Nat) (value : α) : Option (TupleArray α) :=
  if i < a.values.length then
    some ⟨a.width, a.values.set i value, a.width_pos, by simpa using a.width_dvd⟩
  else none

/-- Overwrites every value. -/
def fill (a : TupleArray α) (value : α) : TupleArray α :=
  ⟨a.width, a.values.map fun _ => value, a.width_pos, by simpa using a.width_dvd⟩

/-- The array of the first tuples, as many as asked for; where there are too few
of them others are appended that are filled with one value. -/
def resized (value : α) (a : TupleArray α) (size : Nat) : TupleArray α :=
  { width := a.width
    values := a.values.take (size * a.width)
      ++ .replicate (size * a.width - a.values.length) value
    width_pos := a.width_pos
    width_dvd := by
      have hlen : (a.values.take (size * a.width)
          ++ .replicate (size * a.width - a.values.length) value).length = size * a.width := by
        simp only [List.length_append, List.length_take, List.length_replicate]
        omega
      rw [hlen]
      exact Nat.dvd_mul_left _ _ }

/-- Cuts off or appends tuples until there are as many as asked for. -/
def resize (value : α) (a : TupleArray α) (size : Nat) : Except Fault (TupleArray α) :=
  (Checked.count (size * a.width)).map fun _ => a.resized value size

/-- Overwrites tuple `i` with tuple `j` of another array of the same width. -/
def copyTuple (a : TupleArray α) (i : Nat) (src : TupleArray α) (j : Nat) :
    Except Error (TupleArray α) :=
  if src.width ≠ a.width then .error (.widthMismatch "<tuple copy>" a.width src.width)
  else match src.tuple? j with
    | none => .error (.tupleOutOfRange j src.size)
    | some tuple => match a.setTuple? i tuple with
      | none => .error (.tupleOutOfRange i a.size)
      | some b => .ok b

/-! ## Equality -/

/-- Whether two arrays have the same width and the same values. -/
def sameBy (same : α → α → Bool) (a b : TupleArray α) : Bool :=
  a.width == b.width && a.values.length == b.values.length
    && (a.values.zip b.values).all fun p => same p.1 p.2

end TupleArray

end Wireframe
