import Wireframe.Proofs.Filter
/-!
# Runs whose flag is up from the start

The flag is read once for every announcement and once for every copy, and at no
other time. If it is up before a run starts, the first attribute array of the
source stops the run before anything is said or stored.

A source without attribute arrays offers no moment to read the flag. Its run
goes to the end, and the result is stored as if nobody had asked to stop.
-/

namespace Wireframe

variable {κ : Type}

section Copying

open AttributeMatrix

variable {schedule : Schedule} {label : String} {mask : Mask} {src dst : AttributeMatrix κ} {p : Progress}

end Copying

/-! ## The whole crop -/

variable [Coordinate κ] {src dst : EdgeGeometry κ} {schedule : Schedule}

namespace Selection

variable {s : Selection κ} {links : List Link}

end Selection

variable {bounds : Box κ} {policy : BoundaryPolicy}

namespace CropParameters

end CropParameters

end Wireframe
