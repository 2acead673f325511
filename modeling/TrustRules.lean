import TrustRules.Text.Range
import TrustRules.Text.Blank
import TrustRules.Text.Word
import TrustRules.Text.Break
import TrustRules.Text.Nesting
import TrustRules.Text.Quoted
import TrustRules.Failure
import TrustRules.LineEnding
import TrustRules.Rule
import TrustRules.Rule.Mark
import TrustRules.Rule.Header
import TrustRules.Rule.Shape
import TrustRules.Diagnostic
import TrustRules.Event
import TrustRules.Rule.Printer
import TrustRules.Block
import TrustRules.Block.Argument
import TrustRules.Block.Clause
import TrustRules.Block.Draft
import TrustRules.Reading
import TrustRules.Command
import TrustRules.Printout
import TrustRules.Trust
import TrustRules.Json
import TrustRules.Json.Form
import TrustRules.Event.Json
import TrustRules.Proofs.Text.Trimming
import TrustRules.Proofs.Text.Lines
import TrustRules.Proofs.Text.Returns
import TrustRules.Proofs.Text.Marks
import TrustRules.Proofs.Text.Pieces
import TrustRules.Proofs.Text.Decomposition
import TrustRules.Proofs.Block.Runs
import TrustRules.Proofs.Block.Clauses
import TrustRules.Proofs.Block.Values
import TrustRules.Proofs.Reading.Blocks
import TrustRules.Proofs.Reading.Independence
import TrustRules.Proofs.Text.Padding
import TrustRules.Proofs.Block.Padding
import TrustRules.Proofs.Reading.Runs
import TrustRules.Proofs.Reading.Layout
import TrustRules.Proofs.Reading.Shapes
import TrustRules.Proofs.Reading.Diagnostics
import TrustRules.Proofs.Reading.Arguments
import TrustRules.Proofs.Reading.Arrangements
import TrustRules.Proofs.Reading.Deletion
import TrustRules.Proofs.Reading.Placement
import TrustRules.Proofs.Reading.Places
import TrustRules.Proofs.Rule.Values
import TrustRules.Proofs.Rule.Statement
import TrustRules.Proofs.Rule.Arrangements
import TrustRules.Proofs.Rule.Written
import TrustRules.Proofs.Rule.Composition
import TrustRules.Proofs.Rule.Below
import TrustRules.Proofs.Rule.Headers
import TrustRules.Proofs.Rule.Stable
import TrustRules.Proofs.Block.Bodies
import TrustRules.Proofs.RoundTrip
import TrustRules.Proofs.Normalization
import TrustRules.Proofs.Expressions
import TrustRules.Proofs.Apart
import TrustRules.Proofs.Renaming
import TrustRules.Proofs.Text.Pattern
import TrustRules.Proofs.Block.Separators
import TrustRules.Proofs.Reading.Log
import TrustRules.Proofs.Printout.Pairs
import TrustRules.Proofs.Printout.Search
import TrustRules.Proofs.Printout.Entries
import TrustRules.Proofs.Printout.Occurrences
import TrustRules.Proofs.Trust.Commands
import TrustRules.Proofs.Trust.Literals
import TrustRules.Proofs.Trust.Printouts
import TrustRules.Proofs.Trust.Sessions
import TrustRules.Proofs.Trust.Log
import TrustRules.Proofs.Json.Faithful
import TrustRules.Proofs.Json.Forms
