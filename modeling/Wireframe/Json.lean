import Wireframe.Coordinate
/-!
# JSON values

Parameters travel as JSON. A number is kept as a whole number of 64 bits where
it is written as one, else as the coordinate it stands for; a coordinate that
is no finite number is written as null and null is not read as a number.

A record is written as an object. It may be read from an object, whose other
fields are ignored, or from a list of its fields in order, of which the last
ones may be missing. An object that has a field of the record twice is not
read.
-/

namespace Wireframe

/-- A JSON value over coordinates `κ`. -/
inductive Json (κ : Type) where
  | null
  | bool (b : Bool)
  /-- A number without sign, fraction and exponent that is a count of 64 bits. -/
  | unsigned (n : UInt64)
  /-- A number below zero without fraction and exponent, of 64 bits. -/
  | negative (i : Int64) (below : i < 0)
  /-- Any other number. -/
  | real (x : κ)
  | text (s : String)
  | list (items : List (Json κ))
  | object (fields : List (String × Json κ))
  deriving Inhabited

namespace Json

variable {κ : Type}

/-! ## Reading -/

/-- The truth value that a JSON value is. -/
def bool? : Json κ → Option Bool
  | bool b => some b
  | _ => none

/-- The text that a JSON value is. -/
def text? : Json κ → Option String
  | text s => some s
  | _ => none

/-- The natural number that a JSON value is. -/
def nat? : Json κ → Option Nat
  | unsigned n => some n.toNat
  | _ => none

/-- The items of a list. -/
def list? : Json κ → Option (List (Json κ))
  | list items => some items
  | _ => none

/-- No field of these names stands among the fields of an object twice. -/
def NoneTwice (names : List String) (fields : List (String × Json κ)) : Prop :=
  ∀ name ∈ names, (fields.map (·.1)).count name ≤ 1

instance (names : List String) (fields : List (String × Json κ)) : Decidable (NoneTwice names fields) :=
  inferInstanceAs (Decidable (∀ name ∈ names, (fields.map (·.1)).count name ≤ 1))

/-- The fields of a record with given field names. -/
def record? (names : List String) : Json κ → Option (List (Option (Json κ)))
  | object fields =>
    if NoneTwice names fields then some (names.map fun name => (fields.find? fun f => f.1 == name).map (·.2))
    else none
  | list items =>
    if items.length ≤ names.length then some (names.zipIdx.map fun (_, i) => items[i]?) else none
  | _ => none

theorem bool?_eq_some {j : Json κ} {b : Bool} : j.bool? = some b ↔ j = .bool b := by
  cases j <;> simp [bool?]

theorem nat?_eq_some {j : Json κ} {n : Nat} : j.nat? = some n ↔ ∃ i : UInt64, j = .unsigned i ∧ i.toNat = n := by
  cases j <;> simp [nat?]

theorem list?_eq_some {j : Json κ} {items : List (Json κ)} : j.list? = some items ↔ j = .list items := by
  cases j <;> simp [list?]

/-! ## Coordinates -/

variable [Coordinate κ]

/-- The coordinate that a JSON value is. -/
def coordinate? : Json κ → Option κ
  | unsigned n => some (Coordinate.ofInt n.toNat)
  | negative i _ => some (Coordinate.ofInt i.toInt)
  | real x => some x
  | _ => none

/-- A coordinate as a JSON value. -/
def ofCoordinate (x : κ) : Json κ := if Coordinate.isFinite x then real x else null

end Json

end Wireframe
