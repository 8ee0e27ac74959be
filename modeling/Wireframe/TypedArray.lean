import Wireframe.TupleArray
/-!
# Arrays with their element type

An attribute array brings its element type along, so arrays of many types can
stand side by side and be resized or compared without knowing which is which.
-/

namespace Wireframe

/-- An element type and an array of such elements. -/
structure TypedArray (κ : Type) where
  type : ScalarType
  array : TupleArray (type.Value κ)

namespace TypedArray

variable {κ : Type}

/-- The number of tuples. -/
def size (a : TypedArray κ) : Nat := a.array.size

/-- The number of components per tuple. -/
def width (a : TypedArray κ) : Nat := a.array.width

/-- The array inside, if it has the type asked for. -/
def as? (a : TypedArray κ) (t : ScalarType) : Option (TupleArray (t.Value κ)) :=
  if h : a.type = t then some (h ▸ a.array) else none

/-- The array inside, or an error that names the array and both types. -/
def expect (name : String) (t : ScalarType) (a : TypedArray κ) :
    Except Error (TupleArray (t.Value κ)) :=
  match a.as? t with
  | some array => .ok array
  | none => .error (.typeMismatch name t a.type)

variable [Coordinate κ]

/-- The array with zero tuples cut off or appended, as many as asked for. -/
def resized (a : TypedArray κ) (size : Nat) : TypedArray κ := ⟨a.type, a.array.resized a.type.zero size⟩

/-- Cuts off or appends zero tuples until there are as many as asked for. -/
def resize (a : TypedArray κ) (size : Nat) : Except Fault (TypedArray κ) :=
  (a.array.resize a.type.zero size).map (⟨a.type, ·⟩)

/-- Zero tuples, of the same type and width. -/
def blank (a : TypedArray κ) (size : Nat) : TypedArray κ := ⟨a.type, a.array.blank a.type.zero size⟩

/-- Makes an array of zero tuples, of the same type and width. -/
def emptyLike (a : TypedArray κ) (size : Nat) : Except Fault (TypedArray κ) :=
  (a.array.emptyLike a.type.zero size).map (⟨a.type, ·⟩)

/-- Whether two arrays have the same type, width and values. -/
def same (a b : TypedArray κ) : Bool :=
  match b.as? a.type with
  | some array => a.array.sameBy a.type.same array
  | none => false

end TypedArray

end Wireframe
