import SnowflakeSqlApi.Lib.GreedySplit
import SnowflakeSqlApi.RoundTrip
import SnowflakeSqlApi.Transport
import SnowflakeSqlApi.ClientBase
import SnowflakeSqlApi.Batches.Planner
import SnowflakeSqlApi.Batches.Encoder
import SnowflakeSqlApi.Batches.Greedy
import SnowflakeSqlApi.Batches.Agreement
import SnowflakeSqlApi.Batches.Split
import SnowflakeSqlApi.TransportSpec
import SnowflakeSqlApi.Waits
import SnowflakeSqlApi.Lib.Replay
import SnowflakeSqlApi.Submission
import SnowflakeSqlApi.Poll
import SnowflakeSqlApi.PollSpec
import SnowflakeSqlApi.Pagination
import SnowflakeSqlApi.Truncation
import SnowflakeSqlApi.Batches.Insert
import SnowflakeSqlApi.Batches.Counts
import SnowflakeSqlApi.Batches.Import
import SnowflakeSqlApi.Batches.Machine
import SnowflakeSqlApi.Batches.Progress
import SnowflakeSqlApi.Batches.Evidence
import SnowflakeSqlApi.Batches.Faults
import SnowflakeSqlApi.Lib.Ledger
import SnowflakeSqlApi.Batches.Outcome
import SnowflakeSqlApi.Auth
import SnowflakeSqlApi.Decoding
import SnowflakeSqlApi.Testing.Wire
import SnowflakeSqlApi.Testing.Numbers
import SnowflakeSqlApi.Lib.Chunks
import SnowflakeSqlApi.Testing.Fake
import SnowflakeSqlApi.Testing.Statements
import SnowflakeSqlApi.Testing.Session
import SnowflakeSqlApi.Testing.Lossless
import SnowflakeSqlApi.Streaming
import SnowflakeSqlApi.Exports
import SnowflakeSqlApi.AbandonedCancels
import SnowflakeSqlApi.Python.Utf8
import SnowflakeSqlApi.Batches.Readback
import SnowflakeSqlApi.Lib.Csv
import SnowflakeSqlApi.ExportReaders
import SnowflakeSqlApi.Testing.Handles
import SnowflakeSqlApi.Parity
import SnowflakeSqlApi.Batches.AsyncImport
import SnowflakeSqlApi.Python.Pretty
import SnowflakeSqlApi.Configuration
import SnowflakeSqlApi.Cli
import SnowflakeSqlApi.Authorization
import SnowflakeSqlApi.Python.Calendar
import SnowflakeSqlApi.ExportContents
import SnowflakeSqlApi.Testing.Execution
import SnowflakeSqlApi.Batches.Recovery
import SnowflakeSqlApi.Testing.Imports
