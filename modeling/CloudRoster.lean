import CloudRoster.Cache.Bus
import CloudRoster.Cache.CacheList
import CloudRoster.Cache.Commit
import CloudRoster.Cache.Entries
import CloudRoster.Cache.LockTable
import CloudRoster.Cache.Registry
import CloudRoster.Cache.Rules
import CloudRoster.Cache.SharedLocks
import CloudRoster.Cloud.EditForm
import CloudRoster.Cloud.Event
import CloudRoster.Cloud.Group
import CloudRoster.Cloud.Kind
import CloudRoster.Cloud.Player
import CloudRoster.Cloud.Service
import CloudRoster.Cloud.Template
import CloudRoster.Cloud.ValueTypes
import CloudRoster.Cloud.Wrapper
import CloudRoster.Command.Arguments
import CloudRoster.Command.Program
import CloudRoster.Decimal.Binary64
import CloudRoster.Decimal.Shortest
import CloudRoster.Identity.NameKey
import CloudRoster.Identity.Uuid
import CloudRoster.Json.Access
import CloudRoster.Json.Canonical
import CloudRoster.Json.Codec
import CloudRoster.Json.Draft
import CloudRoster.Json.Fault
import CloudRoster.Json.Place
import CloudRoster.Json.Printer
import CloudRoster.Json.Record
import CloudRoster.Json.Token
import CloudRoster.Json.Value
import CloudRoster.Main
import CloudRoster.Net.Connection
import CloudRoster.Net.Frame
import CloudRoster.Net.SocketAddr
import CloudRoster.Net.Transport
import CloudRoster.Node.Basic
import CloudRoster.Node.Config
import CloudRoster.Node.Gated
import CloudRoster.Node.Handler
import CloudRoster.Node.Lists
import CloudRoster.Node.Log
import CloudRoster.Node.Operation
import CloudRoster.Node.Start
import CloudRoster.Node.Traffic
import CloudRoster.Node.World
import CloudRoster.Proofs.Cache.Absorb
import CloudRoster.Proofs.Cache.Entries
import CloudRoster.Proofs.Cache.Events
import CloudRoster.Proofs.Cache.Exclusion
import CloudRoster.Proofs.Cache.LockQueue
import CloudRoster.Proofs.Cache.LockReferences
import CloudRoster.Proofs.Cache.LockTable
import CloudRoster.Proofs.Cache.OrderedMap
import CloudRoster.Proofs.Cache.Sequential
import CloudRoster.Proofs.Cache.SharedLocks
import CloudRoster.Proofs.Cache.WaitingLine
import CloudRoster.Proofs.Cloud.EventRoundTrip
import CloudRoster.Proofs.Cloud.Messages
import CloudRoster.Proofs.Cloud.NameEdits
import CloudRoster.Proofs.Cloud.ServiceNames
import CloudRoster.Proofs.Cloud.Updaters
import CloudRoster.Proofs.Identity.Uuid
import CloudRoster.Proofs.Json.Compact
import CloudRoster.Proofs.Json.Faithful
import CloudRoster.Proofs.Json.Indented
import CloudRoster.Proofs.Json.Literals
import CloudRoster.Proofs.Json.Numerals
import CloudRoster.Proofs.Json.Rows
import CloudRoster.Proofs.Json.Script
import CloudRoster.Proofs.Json.SetAside
import CloudRoster.Proofs.Json.Tolerance
import CloudRoster.Proofs.Net.Closing
import CloudRoster.Proofs.Net.Compatibility
import CloudRoster.Proofs.Net.Pending
import CloudRoster.Proofs.Net.Reading
import CloudRoster.Proofs.Net.Requests
import CloudRoster.Proofs.Net.RoundTrip
import CloudRoster.Proofs.Net.Streams
import CloudRoster.Proofs.Node.AbsentRemovals
import CloudRoster.Proofs.Node.Agreement
import CloudRoster.Proofs.Node.Apart
import CloudRoster.Proofs.Node.AtHome
import CloudRoster.Proofs.Node.Burst
import CloudRoster.Proofs.Node.Changes
import CloudRoster.Proofs.Node.ClaimOrder
import CloudRoster.Proofs.Node.Claims
import CloudRoster.Proofs.Node.Convergence
import CloudRoster.Proofs.Node.EventLog
import CloudRoster.Proofs.Node.GroupsInUse
import CloudRoster.Proofs.Node.Histories
import CloudRoster.Proofs.Node.Journal
import CloudRoster.Proofs.Node.Ledger
import CloudRoster.Proofs.Node.Linearization
import CloudRoster.Proofs.Node.Mesh
import CloudRoster.Proofs.Node.MessageOrder
import CloudRoster.Proofs.Node.Mirror
import CloudRoster.Proofs.Node.Moves
import CloudRoster.Proofs.Node.Names
import CloudRoster.Proofs.Node.Outcomes
import CloudRoster.Proofs.Node.Owed
import CloudRoster.Proofs.Node.Pair
import CloudRoster.Proofs.Node.Removal
import CloudRoster.Proofs.Node.RemovalByName
import CloudRoster.Proofs.Node.Replies
import CloudRoster.Proofs.Node.Restart
import CloudRoster.Proofs.Node.RoundReports
import CloudRoster.Proofs.Node.Rounds
import CloudRoster.Proofs.Node.RoundsInFlight
import CloudRoster.Proofs.Node.StagedChanges
import CloudRoster.Proofs.Node.StepMoves
import CloudRoster.Proofs.Node.Stores
import CloudRoster.Proofs.Node.Transitions
import CloudRoster.Proofs.Node.Turns
import CloudRoster.Proofs.Node.Upkeep
import CloudRoster.Proofs.Storage.Confinement
import CloudRoster.Proofs.Storage.Filing
import CloudRoster.Proofs.Storage.Loading
import CloudRoster.Proofs.Storage.Refusals
import CloudRoster.Proofs.Text.AsciiCase
import CloudRoster.Proofs.Text.Lowercase
import CloudRoster.Storage.Directory
import CloudRoster.Storage.FileTree
import CloudRoster.Storage.Store
import CloudRoster.Sync.Config
import CloudRoster.Sync.Error
import CloudRoster.Sync.Message
import CloudRoster.Sync.Report
import CloudRoster.Text.AsciiCase
import CloudRoster.Text.Cased
import CloudRoster.Text.Hex
import CloudRoster.Text.Lowercase
import CloudRoster.Text.LowercaseTable
import CloudRoster.Text.Quoted
import CloudRoster.Text.Ranges
import CloudRoster.Text.Terminal
import CloudRoster.Text.Unprintable
import CloudRoster.Text.Utf8
import CloudRoster.Toml.Document
import CloudRoster.Toml.Reader
import CloudRoster.Toml.Scalar
import CloudRoster.Toml.Table
import CloudRoster.Toml.Value
