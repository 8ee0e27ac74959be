import Wireframe.Text.ByteOrder
/-!
# Paths

A path addresses an object of the store by the names met on the way down to
it. There is at least one name; a name is not empty and holds no slash, so the
text of a path, its names joined by slashes, can be taken apart again.

Paths are ordered name by name, each by its UTF-8 bytes, a path coming before
the paths below it.
-/

namespace Wireframe

/-- What may stand between the slashes of a path. -/
def ValidName (name : String) : Prop := name ≠ "" ∧ '/' ∉ name.toList

instance : DecidablePred ValidName := fun name =>
  inferInstanceAs (Decidable (name ≠ "" ∧ '/' ∉ name.toList))

/-- The address of an object in the store. -/
@[ext]
structure Path where
  names : List String
  nonempty : names ≠ []
  valid : ∀ name ∈ names, ValidName name
  deriving DecidableEq

namespace Path

/-- The names joined by slashes. -/
def text (p : Path) : String := "/".intercalate p.names

/-- The last name. -/
def target (p : Path) : String := p.names.getLast p.nonempty

/-- The path of the containing object, if the path has one. -/
def parent? (p : Path) : Option Path :=
  if h : 1 < p.names.length then
    some {
      names := p.names.dropLast
      nonempty := by
        rw [ne_eq, ← List.length_eq_zero_iff, List.length_dropLast]
        omega
      valid := fun name hn => p.valid name (List.dropLast_subset p.names hn) }
  else none

/-- Whether a path is another one or lies below it. -/
def startsWith (p q : Path) : Bool := q.names.isPrefixOf p.names

/-! ## Order -/

/-- Compares two paths name by name. -/
def order (p q : Path) : Ordering := List.compareLex byteOrder p.names q.names

instance : Std.TransCmp order where
  eq_swap {p q} :=
    @Std.OrientedCmp.eq_swap _ (List.compareLex byteOrder) _ p.names q.names
  isLE_trans {p q r} :=
    @Std.TransCmp.isLE_trans _ (List.compareLex byteOrder) _ p.names q.names r.names

instance : Std.LawfulEqCmp order where
  compare_self {p} := @Std.ReflCmp.compare_self _ (List.compareLex byteOrder) _ p.names
  eq_of_compare {p q} h :=
    Path.ext (@Std.LawfulEqCmp.eq_of_compare _ (List.compareLex byteOrder) _ p.names q.names h)

end Path

end Wireframe
