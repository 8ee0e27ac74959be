import Wireframe.Space.Json
import Wireframe.Proofs.CropBounds
import Wireframe.Proofs.ExactClip
import Wireframe.Proofs.Lists
/-!
# Boxes that are read back

A coordinate is read back from its JSON value if it is finite. An infinity is
written as null, which is read as no coordinate, and so a point or a box with
an infinity in it is written but never read.

An axis that is not cropped lies between the infinities. The box of a crop is
therefore read back only if every axis is cropped.
-/

namespace Wireframe

open Coordinate

variable {κ : Type}

theorem Point.ofList?_eq_some {l : List κ} {p : Point κ} : ofList? l = some p ↔ l = p.toList := by
  constructor
  · intro h
    unfold ofList? at h
    split at h
    next =>
      cases h
      rfl
    next => cases h
  · rintro rfl
    rfl

variable [Coordinate κ]

theorem Json.coordinate?_ofCoordinate {x y : κ} :
    (ofCoordinate x).coordinate? = some y ↔ x = y ∧ isFinite x = true := by
  unfold ofCoordinate
  split
  next h => simp only [coordinate?, Option.some.injEq, h, and_true]
  next h => simp only [coordinate?, reduceCtorEq, h, and_false, Bool.false_eq_true]

namespace Point

theorem isFinite_iff {p : Point κ} :
    p.IsFinite ↔ isFinite p.x = true ∧ isFinite p.y = true ∧ isFinite p.z = true := by
  constructor
  · exact fun h => ⟨h .x, h .y, h .z⟩
  · rintro ⟨hx, hy, hz⟩ a
    cases a
    case x => exact hx
    case y => exact hy
    case z => exact hz

/-- A point is read from a list of three coordinates. -/
theorem ofJson?_eq_some {j : Json κ} {p : Point κ} : Point.ofJson? j = some p ↔
    ∃ x y z, j = .list [x, y, z] ∧ x.coordinate? = some p.x ∧ y.coordinate? = some p.y ∧ z.coordinate? = some p.z := by
  have hread : Point.ofJson? j = some p ↔ ∃ items, j = .list items ∧ p.toList.map some = items.map Json.coordinate? := by
    simp [Point.ofJson?, Option.bind_eq_some_iff, ofList?_eq_some, mapM_eq_some, Json.list?_eq_some]
  rw [hread]
  constructor
  · rintro ⟨items, rfl, hitems⟩
    match items with
    | [x, y, z] =>
      simp only [toList, List.map_cons, List.map_nil, List.cons.injEq, and_true] at hitems
      exact ⟨x, y, z, rfl, hitems.1.symm, hitems.2.1.symm, hitems.2.2.symm⟩
    | [] | [_] | [_, _] | _ :: _ :: _ :: _ :: _ => simp [toList] at hitems
  · rintro ⟨x, y, z, rfl, hx, hy, hz⟩
    exact ⟨_, rfl, by simp [toList, hx, hy, hz]⟩

/-- A point is read back exactly when it is finite. -/
theorem ofJson?_toJson {p q : Point κ} : Point.ofJson? p.toJson = some q ↔ p = q ∧ p.IsFinite := by
  rw [ofJson?_eq_some, isFinite_iff, Point.ext_iff]
  simp only [toJson, toList, List.map_cons, List.map_nil, Json.list.injEq, List.cons.injEq, and_true]
  constructor
  · rintro ⟨_, _, _, ⟨rfl, rfl, rfl⟩, hx, hy, hz⟩
    simp only [Json.coordinate?_ofCoordinate] at hx hy hz
    exact ⟨⟨hx.1, hy.1, hz.1⟩, hx.2, hy.2, hz.2⟩
  · rintro ⟨⟨hx, hy, hz⟩, hfx, hfy, hfz⟩
    exact ⟨_, _, _, ⟨rfl, rfl, rfl⟩, Json.coordinate?_ofCoordinate.2 ⟨hx, hfx⟩,
      Json.coordinate?_ofCoordinate.2 ⟨hy, hfy⟩, Json.coordinate?_ofCoordinate.2 ⟨hz, hfz⟩⟩

end Point

namespace Box

/-- A box is read back exactly when it is bounded on all axes. -/
theorem ofJson?_toJson {b c : Box κ} :
    Box.ofJson? b.toJson = some c ↔ b = c ∧ b.lo.IsFinite ∧ b.hi.IsFinite := by
  have hfields : b.toJson.record? ["min", "max"] = some [some b.lo.toJson, some b.hi.toJson] := rfl
  have hread : Box.ofJson? b.toJson = some c ↔
      Point.ofJson? b.lo.toJson = some c.lo ∧ Point.ofJson? b.hi.toJson = some c.hi := by
    simp [Box.ofJson?, hfields, Option.bind_eq_some_iff, Box.ext_iff]
  rw [hread, Point.ofJson?_toJson, Point.ofJson?_toJson, Box.ext_iff]
  constructor
  · rintro ⟨⟨hlo, hflo⟩, hhi, hfhi⟩
    exact ⟨⟨hlo, hhi⟩, hflo, hfhi⟩
  · rintro ⟨⟨hlo, hhi⟩, hflo, hfhi⟩
    exact ⟨⟨hlo, hflo⟩, hhi, hfhi⟩

theorem isFinite_negInf : isFinite (negInf : κ) = false := by simp [isFinite, lt]

theorem isFinite_posInf : isFinite (posInf : κ) = false := by simp [isFinite, lt]

theorem isFinite_lo_ofAxes {crop : Axis → Bool} {lo hi : Point κ} :
    (ofAxes crop lo hi).lo.IsFinite ↔ ∀ a, crop a = true ∧ isFinite (lo.coord a) = true := by
  refine forall_congr' fun a => ?_
  rw [lo_ofAxes]
  cases crop a <;> simp [isFinite_negInf]

theorem isFinite_hi_ofAxes {crop : Axis → Bool} {lo hi : Point κ} :
    (ofAxes crop lo hi).hi.IsFinite ↔ ∀ a, crop a = true ∧ isFinite (hi.coord a) = true := by
  refine forall_congr' fun a => ?_
  rw [hi_ofAxes]
  cases crop a <;> simp [isFinite_posInf]

/-- Nothing but the box itself is read from its JSON value, and it is read
exactly when every axis is cropped between finite bounds. -/
theorem ofAxes_read_back_iff (crop : Axis → Bool) (lo hi : Point κ) (c : Box κ) :
    Box.ofJson? (ofAxes crop lo hi).toJson = some c ↔
      ofAxes crop lo hi = c ∧ ∀ a, crop a = true ∧ isFinite (lo.coord a) = true ∧ isFinite (hi.coord a) = true := by
  rw [ofJson?_toJson, isFinite_lo_ofAxes, isFinite_hi_ofAxes, ← forall_and]
  refine and_congr_right fun _ => forall_congr' fun a => ?_
  rw [and_and_and_comm, and_self]

/-- The corners of a sample box. -/
def sampleLo : Point Float32 := ⟨-0.5, -0.5, -0.5⟩

/-- See `sampleLo`. -/
def sampleHi : Point Float32 := ⟨1.5, 2.5, 0.5⟩

/-- The box of a crop along one axis is not read back from what is written for it. -/
theorem ofAxes_not_read_back :
    sampleLo.IsFinite ∧ sampleHi.IsFinite ∧
      (ofAxes (· == .x) sampleLo sampleHi).toJson =
        .object [("min", .list [.real (-0.5), .null, .null]), ("max", .list [.real 1.5, .null, .null])] ∧
      Box.ofJson? (ofAxes (· == .x) sampleLo sampleHi).toJson = none := by
  have hlo : sampleLo.IsFinite := Point.isFinite_iff.2 (by decide +kernel)
  have hhi : sampleHi.IsFinite := Point.isFinite_iff.2 (by decide +kernel)
  refine ⟨hlo, hhi, by with_unfolding_all rfl, by with_unfolding_all rfl⟩

end Box

end Wireframe
