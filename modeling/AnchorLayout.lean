import AnchorLayout.Table
import AnchorLayout.Value.Display
import AnchorLayout.Expr.Parser
import AnchorLayout.Expr.Printer
import AnchorLayout.Expr.Evaluate
import AnchorLayout.Failure
import AnchorLayout.Value.Number
import AnchorLayout.Value.Summary
import AnchorLayout.Axis
import AnchorLayout.Reference
import AnchorLayout.Geometry
import AnchorLayout.Decimal.Length
import AnchorLayout.ViewBox
import AnchorLayout.Registry.Operations
import AnchorLayout.Pass
import AnchorLayout.Scene
import AnchorLayout.Json
import AnchorLayout.CommandLine.Arguments
import AnchorLayout.CommandLine.Folder
import AnchorLayout.CommandLine.Run
import AnchorLayout.Session
import AnchorLayout.Main
import AnchorLayout.Proofs.Decimal.Written
import AnchorLayout.Proofs.Expr.Lexeme
import AnchorLayout.Proofs.Expr.Token
import AnchorLayout.Proofs.Expr.Layout
import AnchorLayout.Proofs.Expr.Pieces
import AnchorLayout.Proofs.Expr.Spacing
import AnchorLayout.Proofs.Expr.Grammar
import AnchorLayout.Proofs.Expr.Parser
import AnchorLayout.Proofs.Expr.Printer
import AnchorLayout.Proofs.Expr.Meaning
import AnchorLayout.Proofs.Expr.Parentheses
import AnchorLayout.Proofs.Expr.Composition
import AnchorLayout.Proofs.Expr.Refusal
import AnchorLayout.Proofs.Expr.Reference
import AnchorLayout.Proofs.Journal.Action
import AnchorLayout.Proofs.Expr.Postorder
import AnchorLayout.Proofs.Journal.History
import AnchorLayout.Proofs.Journal.Survey
import AnchorLayout.Proofs.Registry.Keys
import AnchorLayout.Proofs.Registry.Sameness
import AnchorLayout.Proofs.Registry.Lookup
import AnchorLayout.Proofs.Shape.Questions
import AnchorLayout.Proofs.Shape.Reading
import AnchorLayout.Proofs.Registry.Effects
import AnchorLayout.Proofs.Registry.BareReferences
import AnchorLayout.Proofs.Registry.SelfReference
import AnchorLayout.Proofs.Registry.AxisWarnings
import AnchorLayout.Proofs.Registry.Frame
import AnchorLayout.Proofs.Shape.Failures
import AnchorLayout.Proofs.Registry.Operating
import AnchorLayout.Proofs.Registry.History
import AnchorLayout.Proofs.Pass.Answers
import AnchorLayout.Proofs.Pass.Placing
import AnchorLayout.Proofs.Pass.Independence
import AnchorLayout.Proofs.Pass.Growth
import AnchorLayout.Proofs.Pass.Exchange
import AnchorLayout.Proofs.Pass.FixedPoint
import AnchorLayout.Proofs.Pass.Course
import AnchorLayout.Proofs.Pass.Ledger
import AnchorLayout.Proofs.Pass.Finished
import AnchorLayout.Proofs.Pass.Diagnostics
import AnchorLayout.Proofs.Pass.Identity
import AnchorLayout.Proofs.Pass.References
import AnchorLayout.Proofs.Session.Commands
import AnchorLayout.Proofs.Session.Transparency
import AnchorLayout.Proofs.Pass.History
import AnchorLayout.Proofs.Session.Publication
import AnchorLayout.Proofs.Decimal.Order
import AnchorLayout.Proofs.Decimal.Arithmetic
import AnchorLayout.Proofs.Decimal.Midpoint
import AnchorLayout.Proofs.Shape.Inputs
import AnchorLayout.Proofs.Shape.Realization
import AnchorLayout.Proofs.Shape.Record
import AnchorLayout.Proofs.Shape.Completion
import AnchorLayout.Proofs.Shape.Confinement
import AnchorLayout.Proofs.Shape.IgnoredEnd
import AnchorLayout.Proofs.Decimal.Equality
import AnchorLayout.Proofs.Registry.Equivalence
import AnchorLayout.Proofs.Registry.Footprint
import AnchorLayout.Proofs.Registry.Building
import AnchorLayout.Proofs.Shape.Precedence
import AnchorLayout.Proofs.Registry.Routine
import AnchorLayout.Proofs.CommandLine.Arguments
import AnchorLayout.Proofs.CommandLine.Answer
import AnchorLayout.Proofs.Scene.Spelling
import AnchorLayout.Proofs.Scene.Encoding
import AnchorLayout.Proofs.Value.Summary
import AnchorLayout.Proofs.Registry.Trace
import AnchorLayout.Proofs.Pass.Log
