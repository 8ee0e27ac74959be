import Wireframe.Cell.Dims
import Wireframe.Path.Basic
import Wireframe.Scalar
/-!
# Reported errors

Why an operation on arrays, matrices, paths, grids, geometries or the store
was refused. Each cause has a number that hosts tell it apart by and a text
for the user. Errors that carry positions are reported by the crop itself.

An abort is no report: it stands for a step that cannot be made or for a broken
promise, a geometry out of step with itself.
-/

namespace Wireframe

/-- Why an operation was refused. -/
inductive Error where
  /-- No axis is selected. -/
  | noDimensionsChosen
  /-- An edge names a vertex that does not exist. -/
  | invalidVertexIndex (edge : Nat) (vertex : UInt64) (vertexCount : Nat)
  /-- A kept edge has an endpoint without a new number. -/
  | invalidVertexMapping (edge : Nat)
  /-- No boundary policy has this number. -/
  | invalidBoundaryPolicy (index : Nat)
  /-- A text, or a name in a list, is not part of any path. -/
  | invalidPath (text : String)
  | missingObject (path : Path)
  | objectExists (path : Path)
  | missingArray (matrix name : String)
  | typeMismatch (name : String) (expected found : ScalarType)
  /-- The owner of an array asks for another number of tuples. -/
  | tupleCountMismatch (owner name : String) (expected found : Nat)
  | widthMismatch (name : String) (expected found : Nat)
  /-- A buffer does not divide into tuples. -/
  | raggedBuffer (length width : Nat)
  | zeroWidth
  | tupleOutOfRange (index size : Nat)
  | labelCountMismatch (dims : Dims) (expected found : Nat)
  deriving DecidableEq

namespace Error

/-- The number of a cause. -/
def code : Error → Int
  | noDimensionsChosen => -1213
  | invalidVertexIndex .. => -1220
  | invalidVertexMapping .. => -1222
  | invalidBoundaryPolicy .. => -1230
  | invalidPath .. => -2000
  | missingObject .. => -2001
  | objectExists .. => -2002
  | missingArray .. => -2010
  | typeMismatch .. => -2011
  | tupleCountMismatch .. => -2012
  | widthMismatch .. => -2013
  | raggedBuffer .. => -2014
  | zeroWidth => -2015
  | tupleOutOfRange .. => -2016
  | labelCountMismatch .. => -3000

/-- The text shown to the user. -/
def message : Error → String
  | noDimensionsChosen => "At least one dimension must be selected to crop!"
  | invalidVertexIndex edge vertex count =>
    s!"Edge at index {edge} with value {vertex} references an invalid vertex index (vertex count is {count})."
  | invalidVertexMapping edge => s!"Invalid vertex mapping during edge remapping of edge {edge}."
  | invalidBoundaryPolicy index => s!"Unknown boundary intersection behavior index {index}"
  | invalidPath text => s!"Invalid data path `{text}`"
  | missingObject path => s!"No data object found at path `{path.text}`"
  | objectExists path => s!"A data object already exists at path `{path.text}`"
  | missingArray matrix name => s!"Array `{name}` not found in attribute matrix `{matrix}`"
  | typeMismatch name expected found =>
    s!"Array `{name}` has element type {found.tag}, expected {expected.tag}"
  | tupleCountMismatch owner name expected found =>
    s!"Array `{name}` has {found} tuples but `{owner}` requires {expected}"
  | widthMismatch name expected found =>
    s!"Array `{name}` has {found} components per tuple, expected {expected}"
  | raggedBuffer length width =>
    s!"Buffer of length {length} is not a whole number of {width}-component tuples"
  | zeroWidth => "Arrays require at least one component per tuple"
  | tupleOutOfRange index size =>
    s!"Tuple index {index} out of range for array with {size} tuples"
  | labelCountMismatch dims expected found =>
    s!"Label grid of dimensions [{dims.nx}, {dims.ny}, {dims.nz}] needs {expected} labels, found {found}"

end Error

/-- What ends a program before it has an answer. -/
inductive Abort where
  /-- The next step cannot be made. -/
  | fault (cause : Fault)
  /-- A check of one's own state failed. -/
  | brokenInvariant (owner : String) (cause : Error)
  deriving DecidableEq

/-- The text of an abort, where it has one of its own. -/
def Abort.message? : Abort → Option String
  | fault _ => none
  | brokenInvariant owner cause => some s!"[invariants] {owner}: {cause.message}"

/-- A failed check of one's own state is a broken promise. -/
def assertValid (owner : String) (check : Except Error Unit) : Except Abort Unit :=
  check.mapError (.brokenInvariant owner)

end Wireframe
