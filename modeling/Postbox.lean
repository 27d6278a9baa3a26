import Postbox.Bytes
import Postbox.Command.Arguments
import Postbox.Command.Execution
import Postbox.Command.Invocation
import Postbox.Command.Usage
import Postbox.Config.File
import Postbox.Config.Layer
import Postbox.Config.Resolution
import Postbox.Config.Settings
import Postbox.Duration
import Postbox.Endpoint
import Postbox.Files.Fault
import Postbox.Files.Operation
import Postbox.Files.Tree
import Postbox.Files.Walk
import Postbox.Interruption
import Postbox.Log
import Postbox.Mailbox.Action
import Postbox.Mailbox.Delivery
import Postbox.Mailbox.Order
import Postbox.Mailbox.Outcome
import Postbox.Mailbox.Pending
import Postbox.Mailbox.Receipt
import Postbox.Mailbox.Recipient
import Postbox.Main
import Postbox.Message.Id
import Postbox.Message.Issuer
import Postbox.Message.Name
import Postbox.Number.Binary64
import Postbox.Number.Decimal
import Postbox.Number.Hex
import Postbox.Number.Whole
import Postbox.Path
import Postbox.Path.Ancestors
import Postbox.Polling.Policy
import Postbox.Polling.Wait
import Postbox.Procedure
import Postbox.Proofs.Accounts
import Postbox.Proofs.Activities
import Postbox.Proofs.Arrangement
import Postbox.Proofs.Ascents
import Postbox.Proofs.Attempts
import Postbox.Proofs.ByteOrder
import Postbox.Proofs.Ceiling
import Postbox.Proofs.Company
import Postbox.Proofs.Conservation
import Postbox.Proofs.Deliveries
import Postbox.Proofs.Discovery
import Postbox.Proofs.Draining
import Postbox.Proofs.Exactness
import Postbox.Proofs.Families
import Postbox.Proofs.Growth
import Postbox.Proofs.IdentifierOrder
import Postbox.Proofs.Identifiers
import Postbox.Proofs.Interruptions
import Postbox.Proofs.Issuing
import Postbox.Proofs.Layers
import Postbox.Proofs.Leftovers
import Postbox.Proofs.Listings
import Postbox.Proofs.Locations
import Postbox.Proofs.LongPaths
import Postbox.Proofs.Mailboxes
import Postbox.Proofs.Mirrors
import Postbox.Proofs.Names
import Postbox.Proofs.NearestSettings
import Postbox.Proofs.Neighbours
import Postbox.Proofs.Oracles
import Postbox.Proofs.Pacing
import Postbox.Proofs.Paths
import Postbox.Proofs.Patience
import Postbox.Proofs.Precedence
import Postbox.Proofs.Programs
import Postbox.Proofs.Queue
import Postbox.Proofs.Receipts
import Postbox.Proofs.Recoveries
import Postbox.Proofs.RecoveryCount
import Postbox.Proofs.RecoveryOrder
import Postbox.Proofs.Revivals
import Postbox.Proofs.Rounding
import Postbox.Proofs.Sending
import Postbox.Proofs.SettingsFiles
import Postbox.Proofs.Siblings
import Postbox.Proofs.Sleeping
import Postbox.Proofs.Standpoints
import Postbox.Proofs.Trees
import Postbox.Proofs.UpwardSearch
import Postbox.Proofs.Visibility
import Postbox.Proofs.Waiting
import Postbox.Proofs.Walks
import Postbox.Proofs.Whereabouts
import Postbox.Text.Blank
import Postbox.Text.Combining
import Postbox.Text.Json
import Postbox.Text.Quoted
import Postbox.Text.Ranges
import Postbox.Text.Unprintable
import Postbox.Toml.Document
import Postbox.Toml.Item
import Postbox.Toml.Quoted
import Postbox.Toml.Reader
import Postbox.Toml.Scalar
import Postbox.World
