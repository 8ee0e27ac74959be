import Wireframe.Crop.Policy
import Wireframe.Path.Json
import Wireframe.Space.Json
/-!
# Parameters of the crop filter

What a host chooses: the geometry to crop, the box and the axes on which it
counts, where the result goes, and what becomes of edges across the boundary.
Read from JSON, the flags and the policy may be left out; a value of the wrong
kind is never taken for a missing one.
-/

namespace Wireframe

/-- The choices of a host. -/
structure CropParameters (κ : Type) where
  source : Path
  /-- Where a new geometry is stored. -/
  created : Path
  lo : Point κ
  hi : Point κ
  /-- Whether the result takes the place of the source. -/
  inPlace : Bool
  cropX : Bool
  cropY : Bool
  cropZ : Bool
  policy : BoundaryPolicy
  deriving DecidableEq

namespace CropParameters

variable {κ : Type}

/-- Whether an axis is cropped. -/
def crops (v : CropParameters κ) : Axis → Bool
  | .x => v.cropX
  | .y => v.cropY
  | .z => v.cropZ

/-- The letters of the cropped axes. -/
def dimensions (v : CropParameters κ) : String :=
  String.join ((Axis.all.filter v.crops).map Axis.letter)

/-- Where the result is stored. -/
def destination (v : CropParameters κ) : Path := if v.inPlace then v.source else v.created

variable [Coordinate κ]

/-- The box to crop to. -/
def bounds (v : CropParameters κ) : Box κ := .ofAxes v.crops v.lo v.hi

/-! ## JSON -/

/-- The names of the fields, in order. -/
def fieldNames : List String :=
  ["source_geometry_path", "created_geometry_path", "min_coords", "max_coords",
    "remove_original_geometry", "crop_x_dim", "crop_y_dim", "crop_z_dim",
    "boundary_intersection_behavior"]

/-- Parameters as a JSON value. -/
def toJson (v : CropParameters κ) : Json κ :=
  .object (fieldNames.zip
    [v.source.toJson, v.created.toJson, v.lo.toJson, v.hi.toJson, .bool v.inPlace, .bool v.cropX,
      .bool v.cropY, .bool v.cropZ, .unsigned (.ofNat v.policy.index)])

/-- The policy that a JSON value is the number of. -/
def policyOfJson? (j : Json κ) : Option BoundaryPolicy := do
  (BoundaryPolicy.ofIndex (← j.nat?)).toOption

/-- A field that may be missing. -/
def optional {α : Type} (read : Json κ → Option α) (missing : α) : Option (Json κ) → Option α
  | none => some missing
  | some j => read j

/-- The parameters that a JSON value holds. -/
def ofJson? (j : Json κ) : Option (CropParameters κ) := do
  match ← j.record? fieldNames with
  | [some source, some created, some lo, some hi, inPlace, cropX, cropY, cropZ, policy] =>
    return {
      source := ← Path.ofJson? source
      created := ← Path.ofJson? created
      lo := ← Point.ofJson? lo
      hi := ← Point.ofJson? hi
      inPlace := ← optional Json.bool? false inPlace
      cropX := ← optional Json.bool? false cropX
      cropY := ← optional Json.bool? false cropY
      cropZ := ← optional Json.bool? false cropZ
      policy := ← optional policyOfJson? default policy }
  | _ => none

end CropParameters

end Wireframe
