import ItemStore.Attribute
import ItemStore.Batch.Buckets
import ItemStore.Batch.Config
import ItemStore.Batch.Fetch
import ItemStore.Batch.Getter
import ItemStore.Batch.Pager
import ItemStore.Batch.Request
import ItemStore.Batch.Transport
import ItemStore.Clock
import ItemStore.Datum
import ItemStore.Decimal.Numeral
import ItemStore.Decimal.Shortest
import ItemStore.Dict
import ItemStore.Encoding
import ItemStore.Error
import ItemStore.Expression.Basic
import ItemStore.Expression.Builder
import ItemStore.Expression.ClauseText
import ItemStore.Expression.Keyword
import ItemStore.Expression.Operator
import ItemStore.Expression.Placeholder
import ItemStore.Expression.Test
import ItemStore.Expression.Update
import ItemStore.Instant.Basic
import ItemStore.Instant.Calendar
import ItemStore.Instant.Reader
import ItemStore.Instant.Text
import ItemStore.Json.Basic
import ItemStore.Json.Printer
import ItemStore.Json.Reader
import ItemStore.Retry
import ItemStore.Sample
import ItemStore.Schema
import ItemStore.Store
import ItemStore.Text.Alphanumeric
import ItemStore.Text.Blank
import ItemStore.Text.Printable
import ItemStore.Text.Quoted
import ItemStore.Text.Utf8
import ItemStore.Text.Word
import ItemStore.Tree
import ItemStore.Value
import ItemStore.Wire.Batch
import ItemStore.Wire.Decode
import ItemStore.Wire.Expression
import ItemStore.Wire.Schema
import ItemStore.Wire.Tree
import ItemStore.Wire.Value
import ItemStore.Proofs.Batch.Completion
import ItemStore.Proofs.Dict
import ItemStore.Proofs.Batch.Buckets
import ItemStore.Proofs.StoreFetch
import ItemStore.Proofs.Placeholder
import ItemStore.Proofs.Token
import ItemStore.Proofs.Batch.Keys
import ItemStore.Proofs.Retry
import ItemStore.Proofs.Batch.Rounds
import ItemStore.Proofs.Builder
import ItemStore.Proofs.ClauseText
import ItemStore.Proofs.Clauses
import ItemStore.Proofs.Update
import ItemStore.Proofs.Batch.Course
import ItemStore.Proofs.Batch.Limit
import ItemStore.Proofs.Batch.Order
import ItemStore.Proofs.Grammar
import ItemStore.Proofs.Reading
import ItemStore.Proofs.Canonical
import ItemStore.Proofs.Glue
import ItemStore.Proofs.Operand
import ItemStore.Proofs.UpdateTables
import ItemStore.Proofs.UpdateTargets
import ItemStore.Proofs.UpdateRefusal
import ItemStore.Proofs.Join
import ItemStore.Proofs.Conjunction
import ItemStore.Proofs.Fragments
import ItemStore.Proofs.Reservation
import ItemStore.Proofs.Acceptance
import ItemStore.Proofs.Lexeme
import ItemStore.Proofs.Unambiguous
import ItemStore.Proofs.Trim
import ItemStore.Proofs.Tree
import ItemStore.Proofs.Encoding
import ItemStore.Proofs.Numeral
import ItemStore.Proofs.FreeEncoding
import ItemStore.Proofs.Loaded
import ItemStore.Proofs.Batch.Paging
import ItemStore.Proofs.Batch.Trace
import ItemStore.Proofs.Batch.Failure
import ItemStore.Proofs.Batch.Concurrency
import ItemStore.Proofs.Batch.Progress
import ItemStore.Proofs.Batch.Gauge
import ItemStore.Proofs.Vocabulary
import ItemStore.Proofs.Noninterference
import ItemStore.Proofs.Wire.Tree
import ItemStore.Proofs.Wire.Batch
import ItemStore.Proofs.Wire.Options
import ItemStore.Proofs.DeclaredEncoding
import ItemStore.Proofs.Batch.Budget
import ItemStore.Proofs.FixedWidth
import ItemStore.Proofs.Calendar
import ItemStore.Proofs.Chronology
import ItemStore.Proofs.Batch.Pages
import ItemStore.Proofs.KeyRefusal
import ItemStore.Proofs.UpdateCalls
import ItemStore.Proofs.PathReading
import ItemStore.Proofs.FirstFree
import ItemStore.Proofs.Registration
