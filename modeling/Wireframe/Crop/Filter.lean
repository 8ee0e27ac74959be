import Wireframe.Crop.Run
import Wireframe.Crop.Parameters
import Wireframe.GeometryStore
/-!
# The crop filter

The filter crops a stored geometry and stores the result, in the place of the
source or under a path of its own. `preflight` checks the parameters against
the store and says what would be done; `execute` does it.

The store changes only after a complete crop.
-/

namespace Wireframe

variable {κ : Type}

/-- Something the user should know that does not stop the filter. -/
structure Warning where
  code : Int
  message : String
  deriving DecidableEq, Repr

/-- Attributes of a moved vertex stay those of the vertex that was moved. -/
def vertexDataWarning : Warning where
  code := -100
  message := "A vertex data array was detected in the selected edge geometry.  This filter currently only interpolates vertex positions, associated vertex data values will not be interpolated."

/-- What the filter would do. -/
structure Preflight where
  warnings : List Warning
  summary : String
  destination : Path
  deriving DecidableEq

/-- What the filter has done. -/
structure FilterReport where
  warnings : List Warning
  outcome : CropOutcome
  destination : Path
  deriving DecidableEq

/-- A run of the filter that is over. -/
structure FilterRun (κ : Type) where
  result : Except (CropError κ) FilterReport
  store : GeometryStore κ
  messages : List String

variable [Coordinate κ]

namespace CropParameters

/-- The cropped axes whose upper bound lies below the lower one. -/
def invertedAxes (v : CropParameters κ) : List Axis :=
  Axis.all.filter fun a => v.crops a && Coordinate.lt (v.hi.coord a) (v.lo.coord a)

/-- The warnings about a source. -/
def warnings (source : EdgeGeometry κ) : List Warning :=
  if source.vertexData.arrays.isEmpty then [] else [vertexDataWarning]

/-- What the letters of the cropped axes are appended to. -/
def summaryText : String :=
  "This filter will crop the edge geometry in the following dimension(s):  "

/-- Checks the parameters against the store. The source is looked up first,
then the axes and their ranges are checked, and last the place of the result. -/
def preflight (s : GeometryStore κ) (v : CropParameters κ) : Except (CropError κ) Preflight :=
  match s.geometry v.source with
  | .error e => .error (.refused e)
  | .ok source =>
    if Axis.all.all fun a => !v.crops a then .error (.refused .noDimensionsChosen)
    else match v.invertedAxes.head? with
      | some a => .error (.invertedRange a (v.lo.coord a) (v.hi.coord a))
      | none =>
        if !v.inPlace && s.contains v.destination then .error (.refused (.objectExists v.destination))
        else .ok ⟨warnings source, summaryText ++ v.dimensions, v.destination⟩

/-- Stores the result of a complete crop. -/
def place (s : GeometryStore κ) (v : CropParameters κ) (g : EdgeGeometry κ) :
    Except Error (GeometryStore κ) :=
  if v.inPlace then s.replace v.destination g else s.insert v.destination g

/-- Stores what a crop made, if it is complete, and reports. -/
def conclude (s : GeometryStore κ) (v : CropParameters κ) (check : Preflight) (run : CropRun κ) :
    FilterRun κ :=
  match run.result with
  | .error e => ⟨.error e, s, run.progress.messages⟩
  | .ok .cancelled =>
    ⟨.ok ⟨check.warnings, .cancelled, check.destination⟩, s, run.progress.messages⟩
  | .ok (.complete stats) =>
    match v.place s run.destination with
    | .error e => ⟨.error (.refused e), s, run.progress.messages⟩
    | .ok s => ⟨.ok ⟨check.warnings, .complete stats, check.destination⟩, s, run.progress.messages⟩

/-- Runs the filter on the store with a given way to crop. -/
def executeBy (cropper : EdgeGeometry κ → EdgeGeometry κ → Box κ → BoundaryPolicy → Schedule → CropRun κ)
    (s : GeometryStore κ) (v : CropParameters κ) (schedule : Schedule) : FilterRun κ :=
  match v.preflight s with
  | .error e => ⟨.error e, s, []⟩
  | .ok check =>
    match s.geometry v.source with
    | .error e => ⟨.error (.refused e), s, []⟩
    | .ok source => v.conclude s check (cropper source source.emptyLike v.bounds v.policy schedule)

/-- Runs the filter on the store. -/
def execute (s : GeometryStore κ) (v : CropParameters κ) (schedule : Schedule) : FilterRun κ :=
  v.executeBy crop s schedule

/-- Runs the filter on the store, if there is room for what is kept. -/
def executeChecked (s : GeometryStore κ) (v : CropParameters κ) (schedule : Schedule) : FilterRun κ :=
  v.executeBy cropChecked s schedule

end CropParameters

end Wireframe
