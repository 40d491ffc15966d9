import SqlFerry.Failure.Named
import SqlFerry.Main
import SqlFerry.Proofs.Backup.Script
import SqlFerry.Proofs.Convert.Expressible
import SqlFerry.Proofs.Convert.Losses
import SqlFerry.Proofs.Convert.Script
import SqlFerry.Proofs.Convert.Strict
import SqlFerry.Proofs.Ddl.Casts
import SqlFerry.Proofs.Ddl.Columns
import SqlFerry.Proofs.Ddl.IndexColumns
import SqlFerry.Proofs.Ddl.Numbers
import SqlFerry.Proofs.Ddl.Ordering
import SqlFerry.Proofs.Ddl.Phrase
import SqlFerry.Proofs.Ddl.Producers
import SqlFerry.Proofs.Ddl.References
import SqlFerry.Proofs.Ddl.RoundTrip
import SqlFerry.Proofs.Ddl.Targets
import SqlFerry.Proofs.Ddl.Values
import SqlFerry.Proofs.Migration
import SqlFerry.Proofs.Pattern.Words
import SqlFerry.Proofs.Restore.Accounting
import SqlFerry.Proofs.Restore.Deletion
import SqlFerry.Proofs.Restore.Escape
import SqlFerry.Proofs.Restore.Progress
import SqlFerry.Proofs.Restore.Screening
import SqlFerry.Proofs.Restore.Spacing
import SqlFerry.Proofs.Restore.Strings
import SqlFerry.Proofs.Restore.Teardown
import SqlFerry.Proofs.Restore.Transaction
import SqlFerry.Proofs.Restore.Wanted
import SqlFerry.Proofs.Schema.Order
import SqlFerry.Proofs.Splitter.Agreement
import SqlFerry.Proofs.Splitter.Culprits
import SqlFerry.Proofs.Splitter.Lexemes
import SqlFerry.Proofs.Splitter.Progress
import SqlFerry.Proofs.Splitter.Rescan
import SqlFerry.Proofs.Splitter.Routine
import SqlFerry.Proofs.Splitter.Shift
import SqlFerry.Proofs.Splitter.Spans
import SqlFerry.Proofs.Splitter.Splitting
import SqlFerry.Proofs.Sql.Binary
import SqlFerry.Proofs.Sql.Joining
import SqlFerry.Proofs.Sql.Names
import SqlFerry.Proofs.Sql.Nesting
import SqlFerry.Proofs.Sql.Tokens
import SqlFerry.Proofs.Strategy.Check
import SqlFerry.Proofs.Strategy.Tools
import SqlFerry.Proofs.Text.Case
import SqlFerry.Proofs.Tool.Redaction
import SqlFerry.Proofs.Transfer
import SqlFerry.Proofs.Value.Numerals
import SqlFerry.Schema.Record
import SqlFerry.Statement.Record
import SqlFerry.Value.Typed
