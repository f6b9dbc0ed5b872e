import SealedColumns.Cipher.Keyed
import SealedColumns.Connection
import SealedColumns.Operation
import SealedColumns.Proofs.Agreement
import SealedColumns.Proofs.Alike
import SealedColumns.Proofs.Bindings
import SealedColumns.Proofs.Blanks
import SealedColumns.Proofs.Buffered
import SealedColumns.Proofs.Cipher.Accepted
import SealedColumns.Proofs.Cipher.OneWrittenForm
import SealedColumns.Proofs.CipherCalls
import SealedColumns.Proofs.ClientCalls
import SealedColumns.Proofs.ColumnIndex
import SealedColumns.Proofs.EqualNames
import SealedColumns.Proofs.Execution
import SealedColumns.Proofs.Filling
import SealedColumns.Proofs.Grouping
import SealedColumns.Proofs.Keys
import SealedColumns.Proofs.Lifecycle
import SealedColumns.Proofs.Logging
import SealedColumns.Proofs.OpenedCells
import SealedColumns.Proofs.Opening
import SealedColumns.Proofs.PendingRows
import SealedColumns.Proofs.Placeholder.Binding
import SealedColumns.Proofs.Placeholder.Broadcast
import SealedColumns.Proofs.Placeholder.Bytes
import SealedColumns.Proofs.Placeholder.FreshNames
import SealedColumns.Proofs.Placeholder.Grammar
import SealedColumns.Proofs.Placeholder.HiddenText
import SealedColumns.Proofs.Placeholder.IndexReader
import SealedColumns.Proofs.Placeholder.PlainSearch
import SealedColumns.Proofs.Placeholder.RenamedText
import SealedColumns.Proofs.Placeholder.Restoring
import SealedColumns.Proofs.Placeholder.Segments
import SealedColumns.Proofs.Placeholder.Slices
import SealedColumns.Proofs.Placeholder.SuffixCounter
import SealedColumns.Proofs.Placeholder.Tokens
import SealedColumns.Proofs.RepeatedColumns
import SealedColumns.Proofs.RoundTrip
import SealedColumns.Proofs.SealedValues
import SealedColumns.Proofs.Sealing
import SealedColumns.Proofs.SideBySide
import SealedColumns.Proofs.StablePartition
import SealedColumns.Proofs.Stream
import SealedColumns.Sample.Ciphers
import SealedColumns.Sample.Person
import SealedColumns.Sample.Script
import SealedColumns.Sql.Memory
