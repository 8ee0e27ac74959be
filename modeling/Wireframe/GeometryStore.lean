import Wireframe.EdgeGeometry
/-!
# The store

Geometries are kept under paths, at most one under each, and listed in the
order of the paths. What belongs to a geometry is addressed below its path:
the two lists and the two matrices by their names, an attribute array by the
name of its matrix and its own.

A path below a stored geometry is read as naming one of its lists first; only
where there is no geometry right above it does it name an attribute array.
-/

namespace Wireframe

/-- Geometries under their paths. -/
@[ext]
structure GeometryStore (κ : Type) where
  geometries : SortedMap Path (EdgeGeometry κ) Path.order

namespace GeometryStore

variable {κ : Type}

/-- The store without geometries. -/
def empty : GeometryStore κ := ⟨.empty⟩

/-- The number of geometries. -/
def size (s : GeometryStore κ) : Nat := s.geometries.size

/-- Whether a geometry is stored under a path. -/
def contains (s : GeometryStore κ) (p : Path) : Bool := s.geometries.contains p

/-! ## Geometries -/

/-- The geometry under a path. -/
def geometry (s : GeometryStore κ) (p : Path) : Except Error (EdgeGeometry κ) :=
  match s.geometries.find? p with
  | some g => .ok g
  | none => .error (.missingObject p)

/-- Stores a geometry under a free path. -/
def insert (s : GeometryStore κ) (p : Path) (g : EdgeGeometry κ) : Except Error (GeometryStore κ) :=
  if s.contains p then .error (.objectExists p) else .ok ⟨s.geometries.insert p g⟩

/-- Puts another geometry under a path that is taken. -/
def replace (s : GeometryStore κ) (p : Path) (g : EdgeGeometry κ) : Except Error (GeometryStore κ) :=
  if s.contains p then .ok ⟨s.geometries.modify p fun _ => g⟩ else .error (.missingObject p)

/-- Drops the geometry under a path. -/
def erase (s : GeometryStore κ) (p : Path) : Except Error (GeometryStore κ) :=
  if s.contains p then .ok ⟨s.geometries.erase p⟩ else .error (.missingObject p)

/-! ## What belongs to a geometry -/

/-- The geometry right above a path. -/
def above? (s : GeometryStore κ) (p : Path) : Option (EdgeGeometry κ) :=
  p.parent?.bind s.geometries.find?

/-- The attribute matrix that a path names. If both matrices of a geometry
have the name it is the one of the vertices. -/
def matrix (s : GeometryStore κ) (p : Path) : Except Error (AttributeMatrix κ) :=
  match s.above? p with
  | none => .error (.missingObject p)
  | some g =>
    if g.vertexData.name = p.target then .ok g.vertexData
    else if g.edgeData.name = p.target then .ok g.edgeData
    else .error (.missingObject p)

/-- The list of a geometry that a name stands for. -/
def listOf? (g : EdgeGeometry κ) (name : String) : Option (TypedArray κ) :=
  if name = EdgeGeometry.vertexListName then some ⟨.f32, g.vertices⟩
  else if name = EdgeGeometry.edgeListName then some ⟨.u64, g.edges⟩
  else none

/-- The array of a given type that a path names: a list of the geometry right
above it, else an array of the matrix above it. -/
def array (s : GeometryStore κ) (p : Path) (t : ScalarType) :
    Except Error (TupleArray (t.Value κ)) :=
  match p.parent? with
  | none => .error (.missingObject p)
  | some parent =>
    match s.geometries.find? parent with
    | some g =>
      match listOf? g p.target with
      | some a => a.expect p.target t
      | none => .error (.missingObject p)
    | none => do (← s.matrix parent).getAs p.target t

end GeometryStore

end Wireframe
