import Wireframe.AttributeMatrix
import Wireframe.Cancellation
import Wireframe.Mask
/-!
# Masked copies of attributes

A masked copy moves the tuples of an array that a mask keeps into consecutive
tuples of another array of the same type and width, which must hold exactly
that many. Nothing is written unless everything fits.

For two matrices with the same array names the copies are made one by one in
the order of the names. Each copy is skipped while the cancel flag is up; the
first one that fails ends the batch.
-/

namespace Wireframe

/-! ## One array -/

namespace TupleArray

variable {α : Type}

/-- Copies the kept tuples of `src` over the tuples of `dst`. -/
def copyMasked (name : String) (mask : Mask) (src dst : TupleArray α) :
    Except Error (TupleArray α) :=
  if src.width ≠ dst.width then .error (.widthMismatch name dst.width src.width)
  else if mask.length ≠ src.size then
    .error (.tupleCountMismatch "copy mask" name mask.length src.size)
  else if mask.kept ≠ dst.size then
    .error (.tupleCountMismatch "copy destination" name mask.kept dst.size)
  else mask.indices.zipIdx.foldlM (fun d (j, i) => d.copyTuple i src j) dst

end TupleArray

namespace TypedArray

variable {κ : Type}

/-- Copies the kept tuples of an array over those of another, types permitting. -/
def copyMasked (name : String) (mask : Mask) (src dst : TypedArray κ) :
    Except Error (TypedArray κ) :=
  match src.as? dst.type with
  | none => .error (.typeMismatch name dst.type src.type)
  | some array => do return ⟨dst.type, ← array.copyMasked name mask dst.array⟩

end TypedArray

/-! ## Two matrices -/

namespace AttributeMatrix

variable {κ : Type}

/-- The names of the arrays to copy from one matrix to another. Both must hold
the same names: the first of the source that the destination lacks is
reported, else the first of the destination that the source lacks. -/
def copyNames (src dst : AttributeMatrix κ) : Except Error (List String) :=
  match src.names.find? fun name => !dst.arrays.contains name with
  | some name => .error (.missingArray dst.name name)
  | none =>
    match dst.names.find? fun name => !src.arrays.contains name with
    | some name => .error (.missingArray src.name name)
    | none => .ok dst.names

/-- Copies one array of a matrix over its namesake. -/
def copyArray (mask : Mask) (src dst : AttributeMatrix κ) (name : String) :
    Except Error (AttributeMatrix κ) := do
  let a ← src.get name
  let b ← dst.get name
  return dst.put name (← a.copyMasked name mask b)

/-- Copies the named arrays one after the other. The result tells whether all
were copied, none being skipped. -/
def copyArrays (schedule : Schedule) (mask : Mask) (src : AttributeMatrix κ) :
    List String → AttributeMatrix κ → Progress →
      Except Error Bool × AttributeMatrix κ × Progress
  | [], dst, p => (.ok true, dst, p)
  | name :: rest, dst, p =>
    if p.cancelled schedule then
      let (result, dst, p) := copyArrays schedule mask src rest dst p.read
      (result.map fun _ => false, dst, p)
    else
      match copyArray mask src dst name with
      | .error e => (.error e, dst, p.read)
      | .ok dst => copyArrays schedule mask src rest dst p.read

end AttributeMatrix

end Wireframe
