import Wireframe.MaskedCopy
/-!
# Copying in place

The masked copies as programs that overwrite their destination tuple by tuple.
A destination is given back as the program left it, after a failure as well,
and what was written before a failure stays written.

A copy that has begun to write does not fail any more, so these programs end
like the copies that return a destination only if they succeed.
-/

namespace Wireframe.InPlace

/-! ## One array -/

section Tuples

variable {α : Type}

/-- Copies tuples of `src` over tuples of `dst` one after the other, up to the
first that cannot be copied. Each is given by its index in `src` and the one
in `dst`. -/
def copyTuples (src : TupleArray α) : List (Nat × Nat) → TupleArray α → Except Error Unit × TupleArray α
  | [], dst => (.ok (), dst)
  | (j, i) :: rest, dst =>
    match dst.copyTuple i src j with
    | .error e => (.error e, dst)
    | .ok dst => copyTuples src rest dst

/-- Copies the kept tuples of `src` over the tuples of `dst`. -/
def copyKept (name : String) (mask : Mask) (src dst : TupleArray α) : Except Error Unit × TupleArray α :=
  if src.width ≠ dst.width then (.error (.widthMismatch name dst.width src.width), dst)
  else if mask.length ≠ src.size then
    (.error (.tupleCountMismatch "copy mask" name mask.length src.size), dst)
  else if mask.kept ≠ dst.size then
    (.error (.tupleCountMismatch "copy destination" name mask.kept dst.size), dst)
  else copyTuples src mask.indices.zipIdx dst

end Tuples

variable {κ : Type}

/-- Copies the kept tuples of an array over those of another, types permitting. -/
def copyMasked (name : String) (mask : Mask) (src dst : TypedArray κ) : Except Error Unit × TypedArray κ :=
  match src.as? dst.type with
  | none => (.error (.typeMismatch name dst.type src.type), dst)
  | some array =>
    let (result, array) := copyKept name mask array dst.array
    (result, ⟨dst.type, array⟩)

/-! ## Two matrices -/

/-- Copies one array of a matrix over its namesake. -/
def copyArray (mask : Mask) (src dst : AttributeMatrix κ) (name : String) : Except Error Unit × AttributeMatrix κ :=
  match src.get name, dst.get name with
  | .ok a, .ok b =>
    let (result, b) := copyMasked name mask a b
    (result, dst.put name b)
  | .error e, _ => (.error e, dst)
  | .ok _, .error e => (.error e, dst)

/-- Copies the named arrays one after the other. The result tells whether all
were copied, none being skipped. -/
def copyArrays (schedule : Schedule) (mask : Mask) (src : AttributeMatrix κ) :
    List String → AttributeMatrix κ → Progress → Except Error Bool × AttributeMatrix κ × Progress
  | [], dst, p => (.ok true, dst, p)
  | name :: rest, dst, p =>
    if p.cancelled schedule then
      let (result, dst, p) := copyArrays schedule mask src rest dst p.read
      (result.map fun _ => false, dst, p)
    else
      match copyArray mask src dst name with
      | (.error e, dst) => (.error e, dst, p.read)
      | (.ok (), dst) => copyArrays schedule mask src rest dst p.read

/-- Pairs the arrays of two matrices by their names and copies them. -/
def copyMatrix (schedule : Schedule) (mask : Mask) (src dst : AttributeMatrix κ) (p : Progress) :
    Except Error Bool × AttributeMatrix κ × Progress :=
  match src.copyNames dst with
  | .error e => (.error e, dst, p)
  | .ok names => copyArrays schedule mask src names dst p

end Wireframe.InPlace
