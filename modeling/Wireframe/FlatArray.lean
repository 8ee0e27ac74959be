import Wireframe.Count
import Wireframe.TupleArray
/-!
# Arrays of tuples as bare buffers

An array of tuples as a width and a flat list of values, which no type keeps in
step with one another. A tuple is where its index times the width says. If that
product is no count of 64 bits there is no such tuple. No other sum or product
is looked at before it is reckoned: where it is no count, it traps or wraps, and
`Overflow` tells which. An access past the end is a fault in any case. An
operation that writes says which array it leaves behind, whichever way it ends.

Memory is taken to suffice for as many values as can be counted.

The arrays that can be made and changed in this way are those of `TupleArray`,
as long as nothing wraps.
-/

namespace Wireframe

/-- A width and a flat list of values. -/
@[ext]
structure FlatArray (α : Type) where
  width : Nat
  values : List α

/-- The width and the values of an array. -/
def TupleArray.flat {α : Type} (a : TupleArray α) : FlatArray α := ⟨a.width, a.values⟩

namespace FlatArray

variable {α : Type}

/-! ## Making arrays -/

/-- The array over a given buffer. -/
def ofValues (width : Nat) (values : List α) : Except Error (FlatArray α) :=
  if width = 0 then .error .zeroWidth
  else if values.length % width ≠ 0 then .error (.raggedBuffer values.length width)
  else .ok ⟨width, values⟩

/-- The array of a number of tuples, every value the same. -/
def filled (overflow : Overflow) (value : α) (size width : Nat) : Except Fault (Except Error (FlatArray α)) :=
  if width = 0 then .ok (.error .zeroWidth)
  else do return .ok ⟨width, .replicate (← overflow.count (size * width)) value⟩

/-! ## Reading -/

/-- The number of tuples. -/
def size (a : FlatArray α) : Except Fault Nat := Checked.quotient a.values.length a.width

/-- All tuples, in order. -/
def tuples (a : FlatArray α) : Except Fault (List (List α)) := do
  return TupleArray.chunks a.width (← a.size) a.values

/-- Where the tuple at an index begins and ends, if there is one. An end that
wraps comes before the beginning. -/
def place? (overflow : Overflow) (a : FlatArray α) (i : Nat) : Except Fault (Option (Nat × Nat)) :=
  match mulCount? i a.width with
  | none => .ok none
  | some start => do
    let stop ← overflow.count (start + a.width)
    return if start ≤ stop ∧ stop ≤ a.values.length then some (start, stop) else none

/-- The tuple at an index, if there is one. -/
def tuple? (overflow : Overflow) (a : FlatArray α) (i : Nat) : Except Fault (Option (List α)) := do
  return (← a.place? overflow i).map fun (start, stop) => (a.values.drop start).take (stop - start)

/-- The tuple at an index, which ought to be there. -/
def tuple (overflow : Overflow) (a : FlatArray α) (i : Nat) : Except Fault (Except Error (List α)) := do
  let size ← a.size
  match ← a.tuple? overflow i with
  | some tuple => return .ok tuple
  | none => return .error (.tupleOutOfRange i size)

/-! ## Writing -/

/-- Cuts off or appends values until there are as many tuples as asked for. -/
def resize (overflow : Overflow) (value : α) (a : FlatArray α) (size : Nat) : Except Fault Unit × FlatArray α :=
  match overflow.count (size * a.width) with
  | .error f => (.error f, a)
  | .ok n => (.ok (), { a with values := a.values.take n ++ .replicate (n - a.values.length) value })

/-- Overwrites the tuple at an index by one that has to be as long. The answer
tells whether there was one to overwrite. -/
def write (overflow : Overflow) (a : FlatArray α) (i : Nat) (tuple : List α) : Except Fault Bool × FlatArray α :=
  match a.place? overflow i with
  | .error f => (.error f, a)
  | .ok none => (.ok false, a)
  | .ok (some (start, stop)) =>
    if tuple.length = stop - start then
      (.ok true, { a with values := a.values.take start ++ tuple ++ a.values.drop stop })
    else (.error .indexOutOfRange, a)

/-- Overwrites the value at an index of the buffer. -/
def set (a : FlatArray α) (i : Nat) (value : α) : Except Fault Unit × FlatArray α :=
  if i < a.values.length then (.ok (), { a with values := a.values.set i value })
  else (.error .indexOutOfRange, a)

/-- Overwrites tuple `i` with tuple `j` of another array of the same width. -/
def copyTuple (overflow : Overflow) (a : FlatArray α) (i : Nat) (src : FlatArray α) (j : Nat) :
    Except Fault (Except Error Unit) × FlatArray α :=
  if src.width ≠ a.width then (.ok (.error (.widthMismatch "<tuple copy>" a.width src.width)), a)
  else match src.tuple overflow j with
    | .error f => (.error f, a)
    | .ok (.error e) => (.ok (.error e), a)
    | .ok (.ok tuple) =>
      match a.size, a.write overflow i tuple with
      | .error f, _ => (.error f, a)
      | .ok _, (.error f, a) => (.error f, a)
      | .ok size, (.ok false, a) => (.ok (.error (.tupleOutOfRange i size)), a)
      | .ok _, (.ok true, a) => (.ok (.ok ()), a)

/-! ## Reached arrays -/

/-- What is done to an array where it lies. -/
inductive Call (α : Type) where
  | resize (size : Nat)
  | copyTuple (i : Nat) (src : FlatArray α) (j : Nat)
  | write (i : Nat) (tuple : List α)
  | set (i : Nat) (value : α)

/-- The array that a call leaves behind, after an error or a fault as well.
New tuples are filled with one value. -/
def Call.leaves (overflow : Overflow) (value : α) (a : FlatArray α) : Call α → FlatArray α
  | .resize size => (a.resize overflow value size).2
  | .copyTuple i src j => (a.copyTuple overflow i src j).2
  | .write i tuple => (a.write overflow i tuple).2
  | .set i v => (a.set i v).2

/-- No number of values wraps when an array of that width is resized. -/
def Call.Exact (overflow : Overflow) (width : Nat) : Call α → Prop
  | .resize size => overflow.Exact (size * width)
  | _ => True

/-- The arrays that come of one made with a given width, as long as no number of
values wraps. Widths and lengths are counts. -/
inductive Reached (overflow : Overflow) (value : α) (width : Nat) : FlatArray α → Prop
  | filled {size : Nat} {a : FlatArray α} (hw : width ≤ maxCount) (hsize : overflow.Exact (size * width))
    (h : filled overflow value size width = .ok (.ok a)) : Reached overflow value width a
  | ofValues {values : List α} {a : FlatArray α} (hw : width ≤ maxCount) (hlen : values.length ≤ maxCount)
    (h : ofValues width values = .ok a) : Reached overflow value width a
  | call {a : FlatArray α} (c : Call α) (hc : c.Exact overflow width) (h : Reached overflow value width a) :
    Reached overflow value width (c.leaves overflow value a)

end FlatArray

end Wireframe
