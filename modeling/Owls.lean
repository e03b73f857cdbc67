import Owls.Base.Machine
import Owls.Base.Word
import Owls.Base.Blocks
import Owls.Objects
import Owls.Validate
import Owls.Json
import Owls.Storage
import Owls.SimulationHandler
import Owls.AuthClient
import Owls.Query
import Owls.SimStats
import Owls.Coordinator
import Owls.Operation
import Owls.Base.Draw
import Owls.MockElements
import Owls.Configuration
import Owls.Base.Digits
import Owls.Serials
import Owls.Shares
import Owls.RemoteRequests
import Owls.Calls
import Owls.Vectors
import Owls.Client
import Owls.Link
import Owls.Runner
import Owls.Timers
import Owls.Connections
import Owls.Orphans
import Owls.Live
import Owls.Coordination
import Owls.Services
import Owls.Endings
import Owls.Keys
import Owls.Totals
import Owls.Results
import Owls.StatusHandler
import Owls.FullDevices
import Owls.Base.Locks
import Owls.StartStop
import Owls.WaitCycles
import Owls.Tokens
import Owls.Expiry
import Owls.Joins
import Owls.Reports
import Owls.Rights
import Owls.Commands
import Owls.Discovery
import Owls.Base.Exits
import Owls.Requests
import Owls.Tables
import Owls.Settings
import Owls.Backoff
import Owls.Base.Inverse
import Owls.Descriptors
import Owls.DeviceState
import Owls.References
import Owls.Base.Base64
import Owls.Compression
import Owls.Memory
import Owls.Merge
import Owls.Answers
import Owls.Bindings
import Owls.Parameters
import Owls.Base.Rows
import Owls.Columns
import Owls.Base.Sql
import Owls.ResultQueries
import Owls.Base.Fields
import Owls.Security
import Owls.WebSockets
import Owls.Removals
import Owls.Notifications
import Owls.Recipients
import Owls.Base.Parens
import Owls.Base.Lexing
import Owls.Base.Predicates
import Owls.Base.Separators
import Owls.Conditions
import Owls.Base.Placeholders
import Owls.Statements
import Owls.WhereClauses
import Owls.OrderBy
import Owls.Iterate
import Owls.Base.Windows
import Owls.RateLimiter
import Owls.AppServiceRegistry
import Owls.Base.Prefixes
import Owls.Cidr
import Owls.Ranges
import Owls.Extraction
import Owls.Decoding
import Owls.Base.Glob
import Owls.Globs
import Owls.Counters
import Owls.Macs
import Owls.Sequences
import Owls.Base.Mirror
import Owls.Cluster
import Owls.Directory
import Owls.OpenAPIRequests
import Owls.Kafka
import Owls.Producer
import Owls.Base.Records
import Owls.Records
import Owls.Base.Multimap
import Owls.ThreadPool
import Owls.Workers
import Owls.Agenda
import Owls.Scheduler
import Owls.Promptness
import Owls.Potential
import Owls.Base.Clauses
import Owls.Base.Selections
import Owls.Queries
import Owls.Chosen
