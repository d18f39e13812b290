import RecordQuery.Aggregate
import RecordQuery.Calendar.Date
import RecordQuery.Calendar.DateTime
import RecordQuery.Calendar.Literal
import RecordQuery.Calendar.Pattern
import RecordQuery.Calendar.Specifier
import RecordQuery.Calendar.Writer
import RecordQuery.CommandLine
import RecordQuery.CommandLine.Program
import RecordQuery.Error
import RecordQuery.ErrorCode
import RecordQuery.FieldTypes
import RecordQuery.Fields
import RecordQuery.Filter
import RecordQuery.Filter.Clause
import RecordQuery.Group
import RecordQuery.Group.Format
import RecordQuery.Json
import RecordQuery.Json.Reader
import RecordQuery.Json.Writer
import RecordQuery.Main
import RecordQuery.Number.Binary
import RecordQuery.Number.Binary.Shortest
import RecordQuery.Number.Binary.Text
import RecordQuery.Number.Decimal
import RecordQuery.Number.Decimal.Conversion
import RecordQuery.Number.Decimal.Reader
import RecordQuery.Number.Integer
import RecordQuery.Number.Power
import RecordQuery.Number.Rounding
import RecordQuery.Path
import RecordQuery.Pipeline
import RecordQuery.Pipeline.Document
import RecordQuery.Pipeline.Envelope
import RecordQuery.Projection
import RecordQuery.Proofs.Aggregate.Extremes
import RecordQuery.Proofs.Aggregate.Meaning
import RecordQuery.Proofs.Aggregate.Operands
import RecordQuery.Proofs.Aggregate.RunningSum
import RecordQuery.Proofs.Aggregate.Sums
import RecordQuery.Proofs.Aggregate.Truths
import RecordQuery.Proofs.Calendar.Canonical
import RecordQuery.Proofs.Calendar.Clocks
import RecordQuery.Proofs.Calendar.Order
import RecordQuery.Proofs.Calendar.Patterns
import RecordQuery.Proofs.Calendar.ReadBack
import RecordQuery.Proofs.Calendar.Shown
import RecordQuery.Proofs.Calendar.Texts
import RecordQuery.Proofs.FieldTypes.Columns
import RecordQuery.Proofs.FieldTypes.Integers
import RecordQuery.Proofs.FieldTypes.Matching
import RecordQuery.Proofs.FieldTypes.Memory
import RecordQuery.Proofs.FieldTypes.Uniform
import RecordQuery.Proofs.FieldTypes.Unresolved
import RecordQuery.Proofs.Fields.Sorted
import RecordQuery.Proofs.Filter.Fitted
import RecordQuery.Proofs.Filter.FittedTexts
import RecordQuery.Proofs.Filter.IgnoreCase
import RecordQuery.Proofs.Filter.Integers
import RecordQuery.Proofs.Filter.Meaning
import RecordQuery.Proofs.Filter.Nulls
import RecordQuery.Proofs.Filter.OwnValue
import RecordQuery.Proofs.Filter.Ranges
import RecordQuery.Proofs.Filter.Relations
import RecordQuery.Proofs.Filter.Sampling
import RecordQuery.Proofs.Group.Classes
import RecordQuery.Proofs.Group.Classified
import RecordQuery.Proofs.Group.Identity
import RecordQuery.Proofs.Group.Partition
import RecordQuery.Proofs.Group.Replacement
import RecordQuery.Proofs.Group.Spans
import RecordQuery.Proofs.Group.Thousands
import RecordQuery.Proofs.Group.Totals
import RecordQuery.Proofs.Group.Tree
import RecordQuery.Proofs.Group.WholeKeys
import RecordQuery.Proofs.Json.Documents
import RecordQuery.Proofs.Json.Kept
import RecordQuery.Proofs.Number.DecimalDouble
import RecordQuery.Proofs.Number.DecimalRange
import RecordQuery.Proofs.Number.Exact
import RecordQuery.Proofs.Number.IntegerText
import RecordQuery.Proofs.Number.Integral
import RecordQuery.Proofs.Number.Intervals
import RecordQuery.Proofs.Number.ReadBack
import RecordQuery.Proofs.Number.Roundings
import RecordQuery.Proofs.Number.Shortest
import RecordQuery.Proofs.Number.Texts
import RecordQuery.Proofs.Pipeline.Composition
import RecordQuery.Proofs.Pipeline.Distinct
import RecordQuery.Proofs.Pipeline.Pages
import RecordQuery.Proofs.Pipeline.Replacement
import RecordQuery.Proofs.Pipeline.Representation
import RecordQuery.Proofs.Pipeline.Selection
import RecordQuery.Proofs.Pipeline.SumOrder
import RecordQuery.Proofs.Pipeline.Totals
import RecordQuery.Proofs.Record.Alike
import RecordQuery.Proofs.Record.Assigned
import RecordQuery.Proofs.Record.Elsewhere
import RecordQuery.Proofs.Record.Inside
import RecordQuery.Proofs.Record.Members
import RecordQuery.Proofs.Record.Ordered
import RecordQuery.Proofs.Record.Orders
import RecordQuery.Proofs.Record.Refusal
import RecordQuery.Proofs.Record.Written
import RecordQuery.Proofs.Search.Alternatives
import RecordQuery.Proofs.Search.Enumerations
import RecordQuery.Proofs.Search.Meaning
import RecordQuery.Proofs.Sort.Exact
import RecordQuery.Proofs.Sort.Specification
import RecordQuery.Proofs.Sort.Stable
import RecordQuery.Proofs.Sort.Successive
import RecordQuery.Proofs.Text.Digits
import RecordQuery.Proofs.Text.LowerCase
import RecordQuery.Proofs.Text.Parts
import RecordQuery.Proofs.Value.NumberFamily
import RecordQuery.Proofs.Value.Ordered
import RecordQuery.Proofs.Value.OwnText
import RecordQuery.Proofs.Value.ReadBack
import RecordQuery.Proofs.Value.Rounded
import RecordQuery.Proofs.Value.SortOrder
import RecordQuery.Proofs.Value.Texts
import RecordQuery.Proofs.Value.Visible
import RecordQuery.Proofs.Wire.Accepted
import RecordQuery.Proofs.Wire.Forest
import RecordQuery.Proofs.Wire.Names
import RecordQuery.Proofs.Wire.RoundTrip
import RecordQuery.Record
import RecordQuery.Record.Member
import RecordQuery.Record.Resolve
import RecordQuery.Record.Write
import RecordQuery.Request
import RecordQuery.Sample.Orders
import RecordQuery.Search
import RecordQuery.Settings
import RecordQuery.Settings.Reader
import RecordQuery.Sort
import RecordQuery.Text.Blank
import RecordQuery.Text.CaseTable
import RecordQuery.Text.Digit
import RecordQuery.Text.LowerCase
import RecordQuery.Text.Split
import RecordQuery.Toml
import RecordQuery.Toml.Reader
import RecordQuery.Toml.Scalar
import RecordQuery.Toml.Text
import RecordQuery.Value
import RecordQuery.Value.Coercion
import RecordQuery.Value.Display
import RecordQuery.Value.Field
import RecordQuery.Value.Guid
import RecordQuery.Value.Json
import RecordQuery.Value.Kind
import RecordQuery.Value.Order
import RecordQuery.Wire
import RecordQuery.Wire.Reader
import RecordQuery.Wire.Request
import RecordQuery.Wire.Writer
