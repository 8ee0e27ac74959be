import Wireframe.Coordinate
/-!
# Element types

The eleven types that the values of an attribute array may have, each with
its tag, its zero and its equality. Single-precision floats are the
coordinate type of the geometry at hand, so a vertex list is an array of
that element type like any other.
-/

namespace Wireframe

/-- The element type of an array. -/
inductive ScalarType where
  | bool | i8 | u8 | i16 | u16 | i32 | u32 | i64 | u64 | f32 | f64
  deriving DecidableEq, Repr

namespace ScalarType

/-- All element types. -/
def all : List ScalarType := [bool, i8, u8, i16, u16, i32, u32, i64, u64, f32, f64]

/-- The short name of an element type. -/
def tag : ScalarType → String
  | bool => "bool"
  | i8 => "i8"
  | u8 => "u8"
  | i16 => "i16"
  | u16 => "u16"
  | i32 => "i32"
  | u32 => "u32"
  | i64 => "i64"
  | u64 => "u64"
  | f32 => "f32"
  | f64 => "f64"

/-- The element type of a tag. -/
def ofTag? (s : String) : Option ScalarType := all.find? fun t => t.tag == s

/-- The values of an element type, over coordinates `κ`. -/
abbrev Value (κ : Type) : ScalarType → Type
  | bool => Bool
  | i8 => Int8
  | u8 => UInt8
  | i16 => Int16
  | u16 => UInt16
  | i32 => Int32
  | u32 => UInt32
  | i64 => Int64
  | u64 => UInt64
  | f32 => κ
  | f64 => Float

variable {κ : Type} [Coordinate κ]

/-- What new elements are filled with. -/
def zero : (t : ScalarType) → t.Value κ
  | bool => false
  | i8 => (0 : Int8)
  | u8 => (0 : UInt8)
  | i16 => (0 : Int16)
  | u16 => (0 : UInt16)
  | i32 => (0 : Int32)
  | u32 => (0 : UInt32)
  | i64 => (0 : Int64)
  | u64 => (0 : UInt64)
  | f32 => (Coordinate.zero : κ)
  | f64 => (Coordinate.zero : Float)

/-- Equality of elements; floats are compared as numbers. -/
def same : (t : ScalarType) → t.Value κ → t.Value κ → Bool
  | bool, a, b => a == b
  | i8, a, b => a == b
  | u8, a, b => a == b
  | i16, a, b => a == b
  | u16, a, b => a == b
  | i32, a, b => a == b
  | u32, a, b => a == b
  | i64, a, b => a == b
  | u64, a, b => a == b
  | f32, a, b => Coordinate.same (a : κ) b
  | f64, a, b => Coordinate.same (a : Float) b

end ScalarType

end Wireframe
