import DiagramCheck.Main
import DiagramCheck.Proofs.Flowchart.Run
import DiagramCheck.Proofs.Validation.Session
import DiagramCheck.Proofs.Diagnostic.Standing
import DiagramCheck.Proofs.Diagnostic.Families
import DiagramCheck.Proofs.Diagnostic.Location
import DiagramCheck.Proofs.Token.Word
import DiagramCheck.Proofs.Reading.Reserved
import DiagramCheck.Proofs.Flowchart.Linking
import DiagramCheck.Proofs.Flowchart.Boundary
import DiagramCheck.Proofs.Flowchart.Overrun
import DiagramCheck.Proofs.Relocation.Diagrams
import DiagramCheck.Proofs.Flowchart.Succession
import DiagramCheck.Proofs.Diagram.LineByLine
import DiagramCheck.Proofs.Flowchart.Redrawn
import DiagramCheck.Proofs.Flowchart.LinkStyle
import DiagramCheck.Proofs.Flowchart.Unconnected
import DiagramCheck.Proofs.Flowchart.Provenance
import DiagramCheck.Proofs.Diagram.Checked
import DiagramCheck.Proofs.Flowchart.Skipping
import DiagramCheck.Proofs.Flowchart.Closing
import DiagramCheck.Proofs.Token.Touching
import DiagramCheck.Proofs.Diagram.Names
import DiagramCheck.Proofs.Flowchart.Statements
import DiagramCheck.Proofs.Flowchart.Separators
import DiagramCheck.Proofs.Diagram.Comments
import DiagramCheck.Proofs.Report.Labels
import DiagramCheck.Proofs.Validation.Outcome
import DiagramCheck.Proofs.Diagnostic.Once
import DiagramCheck.Proofs.Sequence.Script
import DiagramCheck.Proofs.Chart.Redrawn
import DiagramCheck.Proofs.Diagnostic.SourceOrder
import DiagramCheck.Proofs.Diagnostic.Lexical
import DiagramCheck.Proofs.Diagnostic.Inline
import DiagramCheck.Proofs.CommandLine.Course
import DiagramCheck.Proofs.Sequence.Activation
import DiagramCheck.Proofs.Diagram.Words
import DiagramCheck.Proofs.Sequence.Declaration
import DiagramCheck.Proofs.Chart.Quoting
import DiagramCheck.Proofs.Diagram.Decorations
import DiagramCheck.Proofs.Token.Quotation
import DiagramCheck.Proofs.Sequence.Announced
