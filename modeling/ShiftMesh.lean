import ShiftMesh.Scalar
import ShiftMesh.Error
import ShiftMesh.Json.Basic
import ShiftMesh.Json.Number
import ShiftMesh.Json.Reader
import ShiftMesh.Mesh.Evaluator
import ShiftMesh.Decimal.Binary
import ShiftMesh.Decimal.Layout
import ShiftMesh.Decimal.Reader
import ShiftMesh.Json.Printer
import ShiftMesh.Mesh.Draft
import ShiftMesh.Mesh.Exchange
import ShiftMesh.Container.Single
import ShiftMesh.Text.Blank
import ShiftMesh.Text.Quoted
import ShiftMesh.Container.Author
import ShiftMesh.Container.Edit
import ShiftMesh.Container.Store
import ShiftMesh.Command.Arguments
import ShiftMesh.Command.Program
import ShiftMesh.Container.Archive
import ShiftMesh.Container.Session
import ShiftMesh.Main
import ShiftMesh.Proofs.Scan
import ShiftMesh.Proofs.Outward
import ShiftMesh.Proofs.Exact
import ShiftMesh.Proofs.Barycentric
import ShiftMesh.Proofs.Window
import ShiftMesh.Proofs.Lookup
import ShiftMesh.Proofs.Coverage
import ShiftMesh.Proofs.Distance
import ShiftMesh.Proofs.Nearest
import ShiftMesh.Proofs.History
import ShiftMesh.Proofs.Retention
import ShiftMesh.Proofs.Affine
import ShiftMesh.Proofs.RoundTrip
import ShiftMesh.Proofs.ConstantShift
import ShiftMesh.Proofs.Reach
import ShiftMesh.Proofs.Double.Fields
import ShiftMesh.Proofs.Double.Order
import ShiftMesh.Proofs.Double.Rounding
import ShiftMesh.Proofs.Double.Arithmetic
import ShiftMesh.Proofs.Decimal.Shortest
import ShiftMesh.Proofs.Json.Numeral
import ShiftMesh.Proofs.Json.Layout
import ShiftMesh.Proofs.Json.Double
import ShiftMesh.Proofs.Json.Text
import ShiftMesh.Proofs.Json.Reading
import ShiftMesh.Proofs.Checks
import ShiftMesh.Proofs.Draft
import ShiftMesh.Proofs.Header
import ShiftMesh.Proofs.Container.Written
import ShiftMesh.Proofs.Container.Opening
import ShiftMesh.Proofs.PointBlob
import ShiftMesh.Proofs.Container.Single
import ShiftMesh.Proofs.Container.Stream
import ShiftMesh.Proofs.Container.Serving
import ShiftMesh.Proofs.Pruning
import ShiftMesh.Proofs.Rounds
import ShiftMesh.Proofs.Exchange
import ShiftMesh.Proofs.Conversion
import ShiftMesh.Proofs.Json.Integer
import ShiftMesh.Proofs.Json.Range
import ShiftMesh.Proofs.Columns
import ShiftMesh.Proofs.Double.Span
import ShiftMesh.Proofs.Validation
import ShiftMesh.Proofs.Acceptance
import ShiftMesh.Proofs.Phases
import ShiftMesh.Proofs.CornerRange
import ShiftMesh.Proofs.CornerOrder
import ShiftMesh.Proofs.SharedEdge
import ShiftMesh.Proofs.DecodeFailures
import ShiftMesh.Proofs.Simulation
import ShiftMesh.Proofs.Heights
import ShiftMesh.Proofs.Container.Encodings
import ShiftMesh.Proofs.NonFinite
import ShiftMesh.Proofs.Double.Quotient
import ShiftMesh.Proofs.Double.Error
import ShiftMesh.Proofs.Json.Reread
import ShiftMesh.Proofs.ShiftReading
import ShiftMesh.Proofs.AffineCoordinates
import ShiftMesh.Proofs.Boundary
import ShiftMesh.Proofs.Decimal.Plain
import ShiftMesh.Proofs.Report
import ShiftMesh.Proofs.Text.Parts
import ShiftMesh.Proofs.Transcript
import ShiftMesh.Proofs.Container.Cells
import ShiftMesh.Proofs.Container.Gate
