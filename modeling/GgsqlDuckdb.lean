import GgsqlDuckdb.Library.Loop
import GgsqlDuckdb.Library.Trace
import GgsqlDuckdb.Library.Machine
import GgsqlDuckdb.Library.Lexer
import GgsqlDuckdb.Library.Splice
import GgsqlDuckdb.Library.Grid
import GgsqlDuckdb.Library.Ledger
import GgsqlDuckdb.Library.Roster
import GgsqlDuckdb.Library.Rows
import GgsqlDuckdb.Library.Utf8
import GgsqlDuckdb.Library.Lifetime
import GgsqlDuckdb.Library.Heartbeat
import GgsqlDuckdb.Library.Separator
import GgsqlDuckdb.Library.Base64
import GgsqlDuckdb.Library.Script
import GgsqlDuckdb.Parser.Scanner
import GgsqlDuckdb.Parser.Segments
import GgsqlDuckdb.Parser.Exactness
import GgsqlDuckdb.Parser.Terminator
import GgsqlDuckdb.Parser.Composition
import GgsqlDuckdb.Parser.Safety
import GgsqlDuckdb.Parser.HostLexer
import GgsqlDuckdb.Parser.Routing
import GgsqlDuckdb.Parser.Rules
import GgsqlDuckdb.Bridge.Invocation
import GgsqlDuckdb.Bridge.Forwarding
import GgsqlDuckdb.Bridge.Outcomes
import GgsqlDuckdb.Bridge.Connection
import GgsqlDuckdb.Bridge.Teardown
import GgsqlDuckdb.Bridge.Shutdown
import GgsqlDuckdb.Bridge.Lifetimes
import GgsqlDuckdb.Bridge.Endings
import GgsqlDuckdb.Reader.Arrow
import GgsqlDuckdb.Reader.Normalise
import GgsqlDuckdb.Reader.ExecSql
import GgsqlDuckdb.Reader.Completeness
import GgsqlDuckdb.Reader.HandOver
import GgsqlDuckdb.Reader.Dialect
import GgsqlDuckdb.Bridge.Callback
import GgsqlDuckdb.Exec.Config
import GgsqlDuckdb.Exec.Paths
import GgsqlDuckdb.Exec.Save
import GgsqlDuckdb.Exec.Run
import GgsqlDuckdb.Exec.Scalar
import GgsqlDuckdb.Server.Registry
import GgsqlDuckdb.Server.Consistency
import GgsqlDuckdb.Server.Heartbeat
import GgsqlDuckdb.Server.Standalone
import GgsqlDuckdb.Exec.Dispatch
import GgsqlDuckdb.Exec.Payload
import GgsqlDuckdb.Server.Process
import GgsqlDuckdb.Server.Sessions
import GgsqlDuckdb.Server.Deliveries
import GgsqlDuckdb.Server.Progress
import GgsqlDuckdb.Page.Viewer
import GgsqlDuckdb.Page.Pictures
import GgsqlDuckdb.Page.Model
import GgsqlDuckdb.Page.System
import GgsqlDuckdb.Page.Views
import GgsqlDuckdb.Page.Readers
import GgsqlDuckdb.Page.Locations
import GgsqlDuckdb.Page.Links
import GgsqlDuckdb.Page.Revisits
import GgsqlDuckdb.Page.Navigation
import GgsqlDuckdb.Page.DeepLinks
import GgsqlDuckdb.Page.Unattended
import GgsqlDuckdb.Page.Failures
import GgsqlDuckdb.Page.Screen
