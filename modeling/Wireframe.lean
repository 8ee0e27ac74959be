import Wireframe.Cell.CheckedScan
import Wireframe.Cell.LabelGrid
import Wireframe.Coordinate.Exact
import Wireframe.CopyInPlace
import Wireframe.FlatArray
import Wireframe.LooseGeometry
import Wireframe.Crop.Buffered
import Wireframe.Crop.Filter
import Wireframe.MatrixCalls
import Wireframe.Path.Names
import Wireframe.Proofs.Lists
import Wireframe.Proofs.Mask
import Wireframe.Proofs.SortedMap
import Wireframe.Proofs.TupleArray
import Wireframe.Proofs.FlatArray
import Wireframe.Proofs.AttributeMatrix
import Wireframe.Proofs.EdgeGeometry
import Wireframe.Proofs.MaskedCopy
import Wireframe.Proofs.RefusedCopy
import Wireframe.Proofs.Selection
import Wireframe.Proofs.Renumber
import Wireframe.Proofs.Crop
import Wireframe.Proofs.CompleteCrop
import Wireframe.Proofs.CopyInPlace
import Wireframe.Proofs.CopyBatch
import Wireframe.Proofs.FailedCrop
import Wireframe.Proofs.FailingEdge
import Wireframe.Proofs.Causes
import Wireframe.Proofs.Movement
import Wireframe.Proofs.Resizing
import Wireframe.Proofs.Buffered
import Wireframe.Proofs.MatrixCalls
import Wireframe.Proofs.GeometryStore
import Wireframe.Proofs.Filter
import Wireframe.Proofs.Preflight
import Wireframe.Proofs.Hiding
import Wireframe.Proofs.Stopping
import Wireframe.Proofs.RaisedFlag
import Wireframe.Proofs.Overwriting
import Wireframe.Proofs.Children
import Wireframe.Proofs.PathText
import Wireframe.Proofs.PathOrder
import Wireframe.Proofs.CellFlag
import Wireframe.Proofs.LabelGrid
import Wireframe.Proofs.Neighbours
import Wireframe.Proofs.GridSize
import Wireframe.Proofs.GridScan
import Wireframe.Proofs.Parts
import Wireframe.Proofs.Comparison
import Wireframe.Proofs.Clip
import Wireframe.Proofs.CropBounds
import Wireframe.Proofs.ExactClip
import Wireframe.Proofs.SpaceJson
import Wireframe.Proofs.ParametersJson
import Wireframe.Proofs.Composition
import Wireframe.Proofs.FixedPoint
import Wireframe.Proofs.Infinity
import Wireframe.Proofs.FaceSides
import Wireframe.Proofs.Repacking
import Wireframe.Proofs.CellSymmetry
import Wireframe.Proofs.MovedGrid
import Wireframe.Proofs.Policies
