import Wireframe.AttributeMatrix
/-!
# Calls on a matrix

What users do to an attribute matrix where it lies, one call at a time. A call
has an answer and leaves a matrix behind, after a refusal as well.

Who asks for an array to write to gets hold of the array itself and may do
anything to it, up to putting another in its place. That it goes on having as
many tuples is a promise of the caller. A matrix is reached if such calls, and
the operations that make one matrix of another, lead to it from one without
arrays.

A call that comes to a step it cannot make ends the program, and no matrix is
reached by it. Memory is taken to suffice for as many values as can be counted.
-/

namespace Wireframe

variable {κ : Type}

/-- Stores an array and answers with the one that lay in its place. Nothing is
stored before the sizes were compared. -/
def InPlace.insertArray (m : AttributeMatrix κ) (name : String) (a : TypedArray κ) :
    Except Error (Option (TypedArray κ)) × AttributeMatrix κ :=
  if a.size ≠ m.size then (.error (.tupleCountMismatch m.name name m.size a.size), m)
  else (.ok (m.arrays.find? name), { m with arrays := m.arrays.insert name a })

/-- A call on a matrix. -/
inductive MatrixCall (κ : Type) where
  | insert (name : String) (a : TypedArray κ)
  | erase (name : String)
  | resize (size : Nat)
  /-- Writes to the array of a name, which has to be of the type asked for. -/
  | edit (name : String) (type : ScalarType) (change : TupleArray (type.Value κ) → TupleArray (type.Value κ))
  /-- Writes to every array, knowing its name. -/
  | editAll (change : String → TypedArray κ → TypedArray κ)

namespace MatrixCall

/-- The caller keeps the number of tuples of what is written to. -/
def KeepsSizes (m : AttributeMatrix κ) : MatrixCall κ → Prop
  | edit name type change => ∀ a, m.getAs name type = .ok a → (change a).size = a.size
  | editAll change => ∀ name a, m.arrays.find? name = some a → (change name a).size = a.size
  | _ => True

variable [Coordinate κ]

/-- The answer to a call, the array that was replaced or dropped if there was
one, and the matrix after it, unless the call ends the program. -/
def run : MatrixCall κ → AttributeMatrix κ →
    Except Abort (Except Error (Option (TypedArray κ)) × AttributeMatrix κ)
  | insert name a, m => .ok (InPlace.insertArray m name a)
  | erase name, m => .ok (.ok (m.arrays.find? name), m.erase name)
  | resize size, m =>
    match m.resize size with
    | (.error a, _) => .error a
    | (.ok (), r) => .ok (.ok none, r)
  | edit name type change, m =>
    match m.getAs name type with
    | .error e => .ok (.error e, m)
    | .ok a => .ok (.ok none, m.put name ⟨type, change a⟩)
  | editAll change, m => .ok (.ok none, { m with arrays := m.arrays.mapEntries change })

end MatrixCall

namespace AttributeMatrix

variable [Coordinate κ]

/-- The matrix can be made, starting from one without arrays. -/
inductive Reached : AttributeMatrix κ → Prop
  | empty (name : String) (size : Nat) : Reached (.empty name size)
  | call {m r : AttributeMatrix κ} {c : MatrixCall κ} {answer : Except Error (Option (TypedArray κ))} :
    Reached m → c.KeepsSizes m → c.run m = .ok (answer, r) → Reached r
  | insert {m r : AttributeMatrix κ} {name : String} {a : TypedArray κ} :
    Reached m → m.insert name a = .ok r → Reached r
  | emptyLike {m r : AttributeMatrix κ} {size : Nat} : Reached m → m.emptyLike size = .ok r → Reached r

end AttributeMatrix

end Wireframe
