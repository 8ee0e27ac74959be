/-!
# The order of names

Names are kept and listed in the order of their UTF-8 bytes, compared left to
right, a name coming before its own continuations. The comparison tells apart
any two different names, so it may serve as the order of a sorted map.

Lists are compared in the same way, like words in a dictionary.
-/

namespace Wireframe

/-- The bytes of a text in UTF-8. -/
def utf8Bytes (s : String) : List UInt8 := s.toByteArray.data.toList

theorem utf8Bytes_inj {s t : String} : utf8Bytes s = utf8Bytes t ↔ s = t := by
  rw [utf8Bytes, utf8Bytes, Array.toList_inj, ← String.toByteArray_inj]
  exact ⟨fun h => ByteArray.ext h, fun h => by rw [h]⟩

/-- Compares two texts by their UTF-8 bytes. -/
def byteOrder (a b : String) : Ordering := compareOn utf8Bytes a b

instance : Std.TransCmp byteOrder := inferInstanceAs (Std.TransCmp (compareOn utf8Bytes))

instance : Std.LawfulEqCmp byteOrder where
  eq_of_compare h := utf8Bytes_inj.1 (Std.LawfulEqOrd.eq_of_compare h)

/-- If elements are compared by what they stand for, so are lists of them. -/
theorem compareLex_eq_lt {α β : Type} [LT β] {cmp : α → α → Ordering} {f : α → β}
    (hlt : ∀ a b, cmp a b = .lt ↔ f a < f b) (heq : ∀ a b, cmp a b = .eq ↔ f a = f b) {l l' : List α} :
    List.compareLex cmp l l' = .lt ↔ l.map f < l'.map f := by
  induction l generalizing l' with
  | nil => cases l' <;> simp [List.compareLex]
  | cons a l ih =>
    cases l' with
    | nil => simp [List.compareLex]
    | cons b l' =>
      rw [List.compareLex_cons_cons, Ordering.then_eq_lt, hlt, heq, ih, List.map_cons, List.map_cons,
        List.cons_lt_cons_iff]

theorem byteOrder_eq_lt {a b : String} : byteOrder a b = .lt ↔ utf8Bytes a < utf8Bytes b := by
  have h : List.compareLex compare (utf8Bytes a) (utf8Bytes b) = .lt ↔ (utf8Bytes a).map id < (utf8Bytes b).map id :=
    compareLex_eq_lt (fun _ _ => Std.compare_eq_lt) fun _ _ => Std.compare_eq_iff_eq
  rwa [List.map_id, List.map_id] at h

theorem byteOrder_eq_eq {a b : String} : byteOrder a b = .eq ↔ utf8Bytes a = utf8Bytes b := by
  rw [utf8Bytes_inj]
  exact Std.LawfulEqCmp.compare_eq_iff_eq

end Wireframe
