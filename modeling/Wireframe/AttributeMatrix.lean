import Wireframe.SortedMap
import Wireframe.TypedArray
/-!
# Attribute matrices

A matrix holds named arrays that describe the same elements, one tuple per
element. It knows the number of elements and admits only arrays of that
size; an array changed in place may fall out of step, which `validate` finds.
Arrays are listed in the byte order of their names.

A matrix is resized array by array. Whether it has room for that is a matter of
the widths of its arrays: without it some array needs more values than can be
counted, and the program ends at the first such array, with those before it
resized already. `resized` and `blank` are the matrices that come of it
otherwise.
-/

namespace Wireframe

/-- Named arrays over the same elements. -/
@[ext]
structure AttributeMatrix (κ : Type) where
  name : String
  size : Nat
  arrays : SortedMap String (TypedArray κ) byteOrder

namespace AttributeMatrix

variable {κ : Type}

/-- A matrix without arrays. -/
def empty (name : String) (size : Nat) : AttributeMatrix κ := ⟨name, size, .empty⟩

/-- The names of the arrays, in order. -/
def names (m : AttributeMatrix κ) : List String := m.arrays.keys

/-- Name, element type and width of every array, in order. -/
def layout (m : AttributeMatrix κ) : List (String × ScalarType × Nat) :=
  m.arrays.entries.map fun e => (e.1, e.2.type, e.2.width)

/-! ## Reading -/

/-- The array of a name. -/
def get (m : AttributeMatrix κ) (name : String) : Except Error (TypedArray κ) :=
  match m.arrays.find? name with
  | some a => .ok a
  | none => .error (.missingArray m.name name)

/-- The array of a name, if it has the type asked for. -/
def getAs (m : AttributeMatrix κ) (name : String) (t : ScalarType) :
    Except Error (TupleArray (t.Value κ)) := do
  (← m.get name).expect name t

/-- The first array with another number of tuples than the matrix has elements
is reported. -/
def validate (m : AttributeMatrix κ) : Except Error Unit :=
  match m.arrays.entries.find? fun e => e.2.size != m.size with
  | some e => .error (.tupleCountMismatch m.name e.1 m.size e.2.size)
  | none => .ok ()

/-- The check of a matrix that promises to be in step. -/
def assertInStep (m : AttributeMatrix κ) : Except Abort Unit :=
  assertValid "AttributeMatrix" m.validate

/-! ## Writing -/

/-- Stores an array of the right size, in place of one of the same name. -/
def insert (m : AttributeMatrix κ) (name : String) (a : TypedArray κ) :
    Except Error (AttributeMatrix κ) :=
  if a.size = m.size then .ok { m with arrays := m.arrays.insert name a }
  else .error (.tupleCountMismatch m.name name m.size a.size)

/-- Drops the array of a name. -/
def erase (m : AttributeMatrix κ) (name : String) : AttributeMatrix κ :=
  { m with arrays := m.arrays.erase name }

/-- Puts an array in the place of the one with the same name, whatever its size. -/
def put (m : AttributeMatrix κ) (name : String) (a : TypedArray κ) : AttributeMatrix κ :=
  { m with arrays := m.arrays.modify name fun _ => a }

/-! ## Resizing -/

/-- Every array of the matrix can have that many tuples. -/
def HasRoom (m : AttributeMatrix κ) (size : Nat) : Prop :=
  ∀ e ∈ m.arrays.entries, size * e.2.width ≤ maxCount

instance (m : AttributeMatrix κ) (size : Nat) : Decidable (m.HasRoom size) :=
  inferInstanceAs (Decidable (∀ e ∈ m.arrays.entries, size * e.2.width ≤ maxCount))

/-- Puts something else in the place of the named arrays, one after the other,
up to the first where that fails. -/
def changeEach (change : TypedArray κ → Except Fault (TypedArray κ)) :
    List String → AttributeMatrix κ → Except Fault Unit × AttributeMatrix κ
  | [], m => (.ok (), m)
  | name :: rest, m =>
    match m.arrays.find? name with
    | none => changeEach change rest m
    | some a =>
      match change a with
      | .error f => (.error f, m)
      | .ok b => changeEach change rest (m.put name b)

variable [Coordinate κ]

/-- The matrix with another size, all arrays resized to it. -/
def resized (m : AttributeMatrix κ) (size : Nat) : AttributeMatrix κ :=
  { m with size := size, arrays := m.arrays.mapValues fun a => a.resized size }

/-- Resizes the matrix and then its arrays, and checks that they are in step. -/
def resize (m : AttributeMatrix κ) (size : Nat) : Except Abort Unit × AttributeMatrix κ :=
  match changeEach (·.resize size) m.names { m with size := size } with
  | (.error f, r) => (.error (.fault f), r)
  | (.ok (), r) => (assertValid "AttributeMatrix::resize_tuples" r.validate, r)

/-- The matrix of the same layout with another size, all values zero. -/
def blank (m : AttributeMatrix κ) (size : Nat) : AttributeMatrix κ :=
  { m with size := size, arrays := m.arrays.mapValues fun a => a.blank size }

/-- Makes a matrix of the same layout, all values zero. -/
def emptyLike (m : AttributeMatrix κ) (size : Nat) : Except Fault (AttributeMatrix κ) :=
  match changeEach (·.emptyLike size) m.names { m with size := size } with
  | (.error f, _) => .error f
  | (.ok (), r) => .ok r

/-- Whether two matrices have the same name, size and arrays. -/
def same (m n : AttributeMatrix κ) : Bool :=
  m.name == n.name && m.size == n.size && m.names == n.names
    && (m.arrays.entries.zip n.arrays.entries).all fun p => p.1.2.same p.2.2

end AttributeMatrix

end Wireframe
