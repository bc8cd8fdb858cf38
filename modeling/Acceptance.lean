import Acceptance.Json.Reader
import Acceptance.Main
import Acceptance.Proofs.Source.Grammar
import Acceptance.Proofs.Source.Masking
import Acceptance.Proofs.Source.Seam
import Acceptance.Proofs.Source.Scan
import Acceptance.Proofs.Text.Blank
import Acceptance.Proofs.Text.Trim
import Acceptance.Proofs.Text.Case
import Acceptance.Proofs.Text.Plain
import Acceptance.Proofs.Source.Kind
import Acceptance.Proofs.Codeunit.Line
import Acceptance.Proofs.Codeunit.Test
import Acceptance.Proofs.Codeunit.Whole
import Acceptance.Proofs.Codeunit.Sound
import Acceptance.Proofs.Codeunit.Outline
import Acceptance.Proofs.Check.Masked
import Acceptance.Proofs.Check.Variable
import Acceptance.Proofs.Check.Test
import Acceptance.Proofs.Check.Count
import Acceptance.Proofs.Check.Generated
import Acceptance.Proofs.Source.Report
import Acceptance.Proofs.Source.Extent
import Acceptance.Proofs.Source.Order
import Acceptance.Proofs.Source.Concat
import Acceptance.Proofs.Source.Shift
import Acceptance.Proofs.Check.Concat
import Acceptance.Proofs.Source.Comment
import Acceptance.Proofs.Source.Keyword
import Acceptance.Proofs.Source.Nesting
import Acceptance.Proofs.Source.Level
import Acceptance.Proofs.Text.Return
import Acceptance.Proofs.Source.Found
import Acceptance.Proofs.Source.Return
import Acceptance.Proofs.Text.Padding
import Acceptance.Proofs.Source.Padding
import Acceptance.Proofs.Check.Rule
import Acceptance.Proofs.Check.Return
import Acceptance.Proofs.Check.Once
import Acceptance.Proofs.Source.Offset
import Acceptance.Proofs.Source.Pass
import Acceptance.Proofs.Source.Views
import Acceptance.Proofs.Source.Position
import Acceptance.Proofs.Check.Line
import Acceptance.Proofs.Codeunit.Frame
import Acceptance.Proofs.Source.Cut
import Acceptance.Proofs.Codeunit.Cut
import Acceptance.Proofs.Codeunit.Name
import Acceptance.Proofs.Codeunit.TestName
import Acceptance.Proofs.Codeunit.Mention
import Acceptance.Proofs.Markup.Forward
import Acceptance.Proofs.Markup.Kept
import Acceptance.Proofs.Markup.Runs
import Acceptance.Proofs.Markup.Pairs
import Acceptance.Proofs.Markup.Spans
import Acceptance.Proofs.Markup.Border
import Acceptance.Proofs.Markup.Literal
import Acceptance.Proofs.Pipeline
import Acceptance.Proofs.Source.Remasking
import Acceptance.Proofs.Check.View
import Acceptance.Proofs.Plan.Block
import Acceptance.Proofs.Plan.Label
import Acceptance.Proofs.Plan.Blank
import Acceptance.Proofs.Plan.Written
import Acceptance.Proofs.Plan.Layout
import Acceptance.Proofs.Plan.Break
import Acceptance.Proofs.Plan.Number
import Acceptance.Proofs.Plan.Segment
import Acceptance.Proofs.Plan.Bold
import Acceptance.Proofs.Plan.Metadata
import Acceptance.Proofs.Plan.Step
import Acceptance.Proofs.Plan.Emphasized
import Acceptance.Proofs.CommandLine.World
import Acceptance.Proofs.CommandLine.Configured
import Acceptance.Proofs.CommandLine.Generate
import Acceptance.Proofs.Check.Order
import Acceptance.Proofs.Check.Numbering
import Acceptance.Proofs.Check.ObjectName
import Acceptance.Proofs.Json.Written
import Acceptance.Proofs.Plan.Record
