import AttributeExpr.Json.Reader
import AttributeExpr.Main
import AttributeExpr.Proofs.Numeral
import AttributeExpr.Proofs.Update.Completeness
import AttributeExpr.Proofs.Update.Soundness
import AttributeExpr.Proofs.JsonText.Subset
import AttributeExpr.Proofs.Literal.StringBody
import AttributeExpr.Proofs.Literal.Base64
import AttributeExpr.Proofs.Token.Nesting
import AttributeExpr.Proofs.Token.Operand
import AttributeExpr.Proofs.Token.Scan
import AttributeExpr.Proofs.Token.Stretch
import AttributeExpr.Proofs.Path.Spelling
import AttributeExpr.Proofs.Placeholder.Expansion
import AttributeExpr.Proofs.Placeholder.History
import AttributeExpr.Proofs.Update.RoundTrip
import AttributeExpr.Proofs.Value.RoundTrip
import AttributeExpr.Proofs.Value.Exactness
import AttributeExpr.Proofs.Path.Tree
import AttributeExpr.Proofs.Value.Tree
import AttributeExpr.Proofs.Update.Tree
import AttributeExpr.Proofs.Update.Exactness
import AttributeExpr.Proofs.SortCondition.Spelling
import AttributeExpr.Proofs.SortCondition.Policy
import AttributeExpr.Proofs.Value.WireRoundTrip
import AttributeExpr.Proofs.CommandLine.Query
import AttributeExpr.Proofs.Placeholder.Shape
import AttributeExpr.Proofs.Refusal
import AttributeExpr.Proofs.Provenance
import AttributeExpr.Proofs.Placeholder.KeyCondition
import AttributeExpr.Proofs.Reuse
import AttributeExpr.Proofs.JsonText.Printer
import AttributeExpr.Proofs.CommandLine.Failure
import AttributeExpr.Proofs.CommandLine.Ending
import AttributeExpr.Proofs.Path.RoundTrip
import AttributeExpr.Proofs.Token.Sign
import AttributeExpr.Proofs.Update.OperatorSign
import AttributeExpr.Proofs.SortCondition.DoubleSign
import AttributeExpr.Proofs.SortCondition.BareWord
import AttributeExpr.Proofs.Update.Joining
import AttributeExpr.Proofs.SortCondition.FirstToken
import AttributeExpr.Proofs.Update.Grouping
import AttributeExpr.Proofs.Value.MemberOrder
import AttributeExpr.Proofs.Update.Target
import AttributeExpr.Proofs.Update.Requirement
import AttributeExpr.Proofs.Update.KeyAttribute
import AttributeExpr.Proofs.Item
import AttributeExpr.Proofs.Placeholder.Projection
import AttributeExpr.Proofs.Token.Balance
import AttributeExpr.Proofs.Token.StringLiteral
import AttributeExpr.Proofs.Position
import AttributeExpr.Proofs.Token.Base64Literal
import AttributeExpr.Proofs.Value.WireNumbers
import AttributeExpr.Proofs.Value.Envelope
import AttributeExpr.Proofs.Path.Quoting
import AttributeExpr.Proofs.Value.NumberReading
import AttributeExpr.Proofs.Value.Inference
import AttributeExpr.Proofs.Value.HashTable
