import QuestDbWriter.Lib.Transition
import QuestDbWriter.Lib.Session
import QuestDbWriter.Lib.Keyed
import QuestDbWriter.Lib.Ledger
import QuestDbWriter.Lib.Utf8
import QuestDbWriter.Lib.Escape
import QuestDbWriter.Lib.Insertion
import QuestDbWriter.Lib.Retention
import QuestDbWriter.Lib.Separated
import QuestDbWriter.Lib.Redelivery
import QuestDbWriter.Lib.Lists
import QuestDbWriter.Lib.Glob
import QuestDbWriter.Lib.DurableQueue
import QuestDbWriter.Lib.Lexer
import QuestDbWriter.Lib.Percent
import QuestDbWriter.Lib.Base64
import QuestDbWriter.Python
import QuestDbWriter.Spool.Database
import QuestDbWriter.Spool.Operations
import QuestDbWriter.Spool.Statements
import QuestDbWriter.Spool.Atomicity
import QuestDbWriter.Spool.Specs
import QuestDbWriter.Spool.Reading
import QuestDbWriter.Spool.History
import QuestDbWriter.Spool.Enqueue
import QuestDbWriter.Spool.Eviction
import QuestDbWriter.Ilp.Encode
import QuestDbWriter.Ilp.Decodable
import QuestDbWriter.Ilp.Total
import QuestDbWriter.Json.Scan
import QuestDbWriter.Json.Dump
import QuestDbWriter.Json.Float
import QuestDbWriter.Event
import QuestDbWriter.Payload
import QuestDbWriter.Transport
import QuestDbWriter.HttpConnection
import QuestDbWriter.Schema.Columns
import QuestDbWriter.Schema.Validation
import QuestDbWriter.Schema.Ensure
import QuestDbWriter.Schema.Retention
import QuestDbWriter.Worker.Shared
import QuestDbWriter.Worker.Backoff
import QuestDbWriter.Worker.Schedule
import QuestDbWriter.Worker.Notice
import QuestDbWriter.Worker.World
import QuestDbWriter.Worker.Methods
import QuestDbWriter.Worker.Step
import QuestDbWriter.Worker.Frame
import QuestDbWriter.Worker.Places
import QuestDbWriter.Worker.Queues
import QuestDbWriter.Worker.Sides
import QuestDbWriter.Worker.Terminal
import QuestDbWriter.Worker.Termination
import QuestDbWriter.Worker.StartTimeout
import QuestDbWriter.Worker.Handshake
import QuestDbWriter.Worker.Gate
import QuestDbWriter.Worker.SchemaGate
import QuestDbWriter.Worker.Blocking
import QuestDbWriter.Worker.Wakeups
import QuestDbWriter.Worker.Shutdown
import QuestDbWriter.Worker.Books
import QuestDbWriter.Worker.Keeping
import QuestDbWriter.Worker.Turns
import QuestDbWriter.Worker.Genuine
import QuestDbWriter.Worker.Accounts
import QuestDbWriter.Worker.Deliveries
import QuestDbWriter.Worker.SingleDelivery
import QuestDbWriter.Worker.Batch
import QuestDbWriter.Worker.OldestRow
import QuestDbWriter.Worker.Isolation
import QuestDbWriter.Worker.SpoolFull
import QuestDbWriter.Worker.Pauses
import QuestDbWriter.Worker.Admission
import QuestDbWriter.Worker.Validated
import QuestDbWriter.Worker.Uncertain
import QuestDbWriter.Worker.Server
import QuestDbWriter.Worker.EndToEnd
import QuestDbWriter.Worker.Edits
import QuestDbWriter.Worker.Snapshot
import QuestDbWriter.Runtime
import QuestDbWriter.Worker.Jobs
import QuestDbWriter.Lifecycle
import QuestDbWriter.Monitor
import QuestDbWriter.Setup
import QuestDbWriter.Options.Settings
import QuestDbWriter.Options.Entry
import QuestDbWriter.Options.Filter
import QuestDbWriter.Options.Advanced
import QuestDbWriter.Options.Startable
import QuestDbWriter.Options.Resave
import QuestDbWriter.Options.Connection
import QuestDbWriter.AttributeFilter
import QuestDbWriter.Requests
import QuestDbWriter.TableSize
import QuestDbWriter.Credentials
