import PortableQuery.Calendar.Civil
import PortableQuery.Calendar.Instant
import PortableQuery.Calendar.Zone
import PortableQuery.CommandLine.Arguments
import PortableQuery.CommandLine.FileTree
import PortableQuery.CommandLine.Run
import PortableQuery.Config
import PortableQuery.Config.Zones
import PortableQuery.Decimal.Binary64
import PortableQuery.Decimal.Layout
import PortableQuery.Decimal.Reader
import PortableQuery.Decimal.Shortest
import PortableQuery.Dynamo.Attribute
import PortableQuery.Dynamo.Compile
import PortableQuery.Dynamo.Condition
import PortableQuery.Dynamo.Like
import PortableQuery.Dynamo.Partiql
import PortableQuery.Dynamo.Placeholder
import PortableQuery.Dynamo.Request
import PortableQuery.Dynamo.Supported
import PortableQuery.Entries
import PortableQuery.Error
import PortableQuery.Json.Basic
import PortableQuery.Json.Printer
import PortableQuery.Json.Reader
import PortableQuery.Literal.Basic
import PortableQuery.Main
import PortableQuery.Proofs.Calendar.Civil
import PortableQuery.Proofs.Calendar.IsoOrder
import PortableQuery.Proofs.Dynamo.Acceptance
import PortableQuery.Proofs.Dynamo.Addressing
import PortableQuery.Proofs.Dynamo.Allocation
import PortableQuery.Proofs.Dynamo.AttributeName
import PortableQuery.Proofs.Dynamo.AttributeSet
import PortableQuery.Proofs.Dynamo.AttributeText
import PortableQuery.Proofs.Dynamo.ColumnReference
import PortableQuery.Proofs.Dynamo.Condition
import PortableQuery.Proofs.Dynamo.DateOrder
import PortableQuery.Proofs.Dynamo.Expression
import PortableQuery.Proofs.Dynamo.KeyTest
import PortableQuery.Proofs.Dynamo.KeyedMutation
import PortableQuery.Proofs.Dynamo.Like
import PortableQuery.Proofs.Dynamo.LiteralText
import PortableQuery.Proofs.Dynamo.NestedSource
import PortableQuery.Proofs.Dynamo.Phrase
import PortableQuery.Proofs.Dynamo.Placeholder
import PortableQuery.Proofs.Dynamo.Rendering
import PortableQuery.Proofs.Dynamo.Resolution
import PortableQuery.Proofs.Dynamo.Selection
import PortableQuery.Proofs.Dynamo.Transport
import PortableQuery.Proofs.Dynamo.WordSearch
import PortableQuery.Proofs.Json.FloatText
import PortableQuery.Proofs.Json.Parsed
import PortableQuery.Proofs.Json.Printed
import PortableQuery.Proofs.Json.Scalar
import PortableQuery.Proofs.Outcome
import PortableQuery.Proofs.Query.Arithmetic
import PortableQuery.Proofs.Query.Induction
import PortableQuery.Proofs.Query.Lineage
import PortableQuery.Proofs.Query.Occurrence
import PortableQuery.Proofs.Query.Rewriting
import PortableQuery.Proofs.Query.Skeleton
import PortableQuery.Proofs.Sql.DateAdd
import PortableQuery.Proofs.Sql.Failure
import PortableQuery.Proofs.Sql.Frame
import PortableQuery.Proofs.Sql.Grouping
import PortableQuery.Proofs.Sql.InsertRows
import PortableQuery.Proofs.Sql.NestedString
import PortableQuery.Proofs.Sql.Noninterference
import PortableQuery.Proofs.Sql.Number
import PortableQuery.Proofs.Sql.Quoting
import PortableQuery.Proofs.Sql.Rewriting
import PortableQuery.Proofs.Sql.Substitution
import PortableQuery.Proofs.Sql.TableHook
import PortableQuery.Proofs.Sql.Template
import PortableQuery.Proofs.Sql.Transport
import PortableQuery.Proofs.Text.FixedWidth
import PortableQuery.Proofs.Text.Joined
import PortableQuery.Proofs.Text.OctetOrder
import PortableQuery.Proofs.Text.Quoted
import PortableQuery.Proofs.Text.Segments
import PortableQuery.Proofs.Text.Wildcard
import PortableQuery.Proofs.Wire.Canonical
import PortableQuery.Proofs.Wire.Decoded
import PortableQuery.Proofs.Wire.GroupSize
import PortableQuery.Proofs.Wire.Literal
import PortableQuery.Proofs.Wire.Octets
import PortableQuery.Proofs.Wire.Provenance
import PortableQuery.Proofs.Wire.ReadBack
import PortableQuery.Proofs.Wire.Record
import PortableQuery.Proofs.Wire.RoundTrip
import PortableQuery.Proofs.Wire.Sentinel
import PortableQuery.Proofs.Wire.ValuePosition
import PortableQuery.Proofs.Wire.ValueSlots
import PortableQuery.Query.Basic
import PortableQuery.Query.Build
import PortableQuery.Query.Condition
import PortableQuery.Query.Equality
import PortableQuery.Query.Expr
import PortableQuery.Query.Function
import PortableQuery.Query.Lineage
import PortableQuery.Query.Operator
import PortableQuery.Sql.DateAdd
import PortableQuery.Sql.Dialect
import PortableQuery.Sql.Escape
import PortableQuery.Sql.Function
import PortableQuery.Sql.Hooks
import PortableQuery.Sql.Render
import PortableQuery.Sql.Template
import PortableQuery.Text.Blank
import PortableQuery.Text.Case
import PortableQuery.Text.CaseData
import PortableQuery.Text.Numeral
import PortableQuery.Text.Quoted
import PortableQuery.Text.Segments
import PortableQuery.Toml.Basic
import PortableQuery.Toml.Reader
import PortableQuery.Wire.Decode
import PortableQuery.Wire.Encode
import PortableQuery.Wire.Literal
import PortableQuery.Wire.Record
import PortableQuery.Wire.Sentinel
