import VertexPlacement.Session.Run
import VertexPlacement.Datum.Reading
import VertexPlacement.Chart.Polar
import VertexPlacement.Jacobian
import VertexPlacement.Manifold
import VertexPlacement.Chart
import VertexPlacement.Entity.Samples
import VertexPlacement.Entity.Path
import VertexPlacement.Average
import VertexPlacement.Quadrature
import VertexPlacement.Fault
import VertexPlacement.Datum
import VertexPlacement.Tensor.Broadcast
import VertexPlacement.Tensor
import VertexPlacement.Scalar.Rational
import VertexPlacement.Decimal.Rounded
import VertexPlacement.Decimal.Shortest
import VertexPlacement.Decimal.Reading
import VertexPlacement.Scalar.Format
import VertexPlacement.Text.Blank
import VertexPlacement.Text.Digit
import VertexPlacement.Text.Printable
import VertexPlacement.Text.Quoted
import VertexPlacement.Chart.Loose
import VertexPlacement.Proofs.Geodesic
import VertexPlacement.Proofs.Refinement
import VertexPlacement.Proofs.Lockstep
import VertexPlacement.Proofs.Sides
import VertexPlacement.Proofs.HangingNodes
import VertexPlacement.Proofs.ClosedForm
import VertexPlacement.Proofs.Stored
import VertexPlacement.Proofs.Arrays
import VertexPlacement.Proofs.AffineImage
import VertexPlacement.Proofs.Listing
import VertexPlacement.Proofs.AffineChart
import VertexPlacement.Proofs.Axes
import VertexPlacement.Proofs.MinimalImage
import VertexPlacement.Proofs.Hull
import VertexPlacement.Proofs.Offence
import VertexPlacement.Proofs.OutOfBox
import VertexPlacement.Proofs.Rounded
import VertexPlacement.Proofs.Copies
import VertexPlacement.Proofs.Malformed
import VertexPlacement.Proofs.IllShaped
import VertexPlacement.Proofs.Validation
import VertexPlacement.Proofs.Jacobian
import VertexPlacement.Proofs.Acceptance
import VertexPlacement.Proofs.Folding
