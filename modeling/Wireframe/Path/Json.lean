import Wireframe.Json
import Wireframe.Path.Build
/-!
# Paths as JSON

A path is written as the list of its names, and read from nothing else.
-/

namespace Wireframe.Path

variable {κ : Type}

/-- A path as a JSON value. -/
def toJson (p : Path) : Json κ := .list (p.names.map .text)

/-- The path that a JSON value is. -/
def ofJson? (j : Json κ) : Option Path := do
  let names ← (← j.list?).mapM Json.text?
  (ofNames names).toOption

end Wireframe.Path
