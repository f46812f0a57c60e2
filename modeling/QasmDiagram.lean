import QasmDiagram.Command.Directory
import QasmDiagram.Draft.Procedure
import QasmDiagram.Json.Reader
import QasmDiagram.Main
import QasmDiagram.Program.Encoding
import QasmDiagram.Proofs.Angle.Sixteenths
import QasmDiagram.Proofs.Circuit.Decoding
import QasmDiagram.Proofs.Circuit.RoundTrip
import QasmDiagram.Proofs.Command.Output
import QasmDiagram.Proofs.Draft.Acceptance
import QasmDiagram.Proofs.Draft.Atomicity
import QasmDiagram.Proofs.Draft.ClassicalParts
import QasmDiagram.Proofs.Draft.DeclarationsFirst
import QasmDiagram.Proofs.Draft.DisplayModes
import QasmDiagram.Proofs.Draft.Fitness
import QasmDiagram.Proofs.Draft.References
import QasmDiagram.Proofs.Draft.WholeNumbers
import QasmDiagram.Proofs.Draft.Wires
import QasmDiagram.Proofs.Expression.Walks
import QasmDiagram.Proofs.Program.Concatenation
import QasmDiagram.Proofs.Program.Diagnostics
import QasmDiagram.Proofs.Program.Encoding
import QasmDiagram.Proofs.Program.KeptOperands
import QasmDiagram.Proofs.Program.MeasuredTargets
import QasmDiagram.Proofs.Program.Numbers
import QasmDiagram.Proofs.Program.RoundTrip
import QasmDiagram.Proofs.Program.Values
import QasmDiagram.Proofs.RenderRequest.Layout
