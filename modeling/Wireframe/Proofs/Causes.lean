import Wireframe.Proofs.FailingEdge
import Wireframe.Proofs.RefusedCopy
/-!
# Why a crop may fail

A selection fails for an endpoint that does not exist or for an edge that
leaves the box, a copy of attributes for an array that is missing or does not
fit its namesake. A crop reports nothing else: in particular none of its
promises is broken and no kept edge is left without new endpoints.
-/

namespace Wireframe

variable {κ : Type}

/-! ## Copies -/

/-- The causes for which a copy of attributes is refused. -/
inductive Error.OfCopy : Error → Prop
  | missingArray (matrix name : String) : OfCopy (.missingArray matrix name)
  | typeMismatch (name : String) (expected found : ScalarType) : OfCopy (.typeMismatch name expected found)
  | widthMismatch (name : String) (expected found : Nat) : OfCopy (.widthMismatch name expected found)
  | tupleCountMismatch (owner name : String) (expected found : Nat) :
    OfCopy (.tupleCountMismatch owner name expected found)

theorem TypedArray.copyMasked_error {name : String} {mask : Mask} {src dst : TypedArray κ} {e : Error}
    (h : src.copyMasked name mask dst = .error e) : e.OfCopy := by
  cases copyMasked_eq_error.1 h with
  | type => exact .typeMismatch ..
  | width => exact .widthMismatch ..
  | length | kept => exact .tupleCountMismatch ..

namespace AttributeMatrix

theorem get_error {m : AttributeMatrix κ} {name : String} {e : Error} (h : m.get name = .error e) : e.OfCopy := by
  unfold get at h
  split at h
  · cases h
  · cases h
    exact .missingArray ..

theorem copyArray_error {mask : Mask} {src dst : AttributeMatrix κ} {name : String} {e : Error}
    (h : copyArray mask src dst name = .error e) : e.OfCopy := by
  unfold copyArray at h
  cases ha : src.get name with
  | error e' =>
    rw [ha] at h
    cases h
    exact get_error ha
  | ok a =>
    cases hb : dst.get name with
    | error e' =>
      rw [ha, hb] at h
      cases h
      exact get_error hb
    | ok b =>
      cases hc : a.copyMasked name mask b with
      | error e' =>
        simp only [ha, hb, hc, bind, Except.bind] at h
        cases h
        exact TypedArray.copyMasked_error hc
      | ok c =>
        simp only [ha, hb, hc, bind, Except.bind] at h
        cases h

end AttributeMatrix

variable [Coordinate κ] {src dst : EdgeGeometry κ} {bounds : Box κ} {policy : BoundaryPolicy} {schedule : Schedule}

end Wireframe
