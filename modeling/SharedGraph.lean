import SharedGraph.Cache.Basic
import SharedGraph.Cache.RecentMap
import SharedGraph.Cache.Session
import SharedGraph.Cache.Settings
import SharedGraph.Cache.Ticket
import SharedGraph.Cache.Tier
import SharedGraph.Commit
import SharedGraph.Data.Duration
import SharedGraph.Data.SortedMap
import SharedGraph.Data.SortedSet
import SharedGraph.Document.Cache
import SharedGraph.Document.Failover
import SharedGraph.Document.Record
import SharedGraph.Document.Relay
import SharedGraph.Document.Shape
import SharedGraph.Document.Shipment
import SharedGraph.Document.Store
import SharedGraph.Document.Value
import SharedGraph.Failover.Membership
import SharedGraph.Failover.Topology
import SharedGraph.Failure
import SharedGraph.Ids
import SharedGraph.MessagePack.Document
import SharedGraph.MessagePack.Single
import SharedGraph.MessagePack.Token
import SharedGraph.MessagePack.Word
import SharedGraph.Record.Action
import SharedGraph.Record.Draft
import SharedGraph.Record.Lineage
import SharedGraph.Record.Numbering
import SharedGraph.Record.Shipment
import SharedGraph.Relay.Basic
import SharedGraph.Relay.InFlight
import SharedGraph.Relay.Ledger
import SharedGraph.Relay.Passives
import SharedGraph.Relay.Policy
import SharedGraph.Relay.Schedule
import SharedGraph.Relay.Site
import SharedGraph.Relay.Transport
import SharedGraph.Store.Audience
import SharedGraph.Store.Backend
import SharedGraph.Store.ObjectIndex
import SharedGraph.Store.ObjectKind
import SharedGraph.Store.Objects
import SharedGraph.Store.Observer
import SharedGraph.Store.Phase
import SharedGraph.Store.Session
import SharedGraph.Store.Store
import SharedGraph.Store.StoreTransaction
import SharedGraph.Store.StoredObject
import SharedGraph.Store.ValueMap
import SharedGraph.Text.Blank
import SharedGraph.Text.Quoted
import SharedGraph.Text.Unprintable
import SharedGraph.Proofs.Failover.Membership
import SharedGraph.Proofs.Record.Numbering
import SharedGraph.Proofs.Relay.Ledger
import SharedGraph.Proofs.Relay.Queueing
import SharedGraph.Proofs.Relay.Settling
import SharedGraph.Proofs.Relay.Reporting
import SharedGraph.Proofs.Relay.InFlight
import SharedGraph.Proofs.Relay.Delivery
import SharedGraph.Proofs.Relay.Acknowledgement
import SharedGraph.Proofs.Relay.Shipping
import SharedGraph.Proofs.Relay.Cluster
import SharedGraph.Proofs.Relay.Failover
import SharedGraph.Proofs.Store.Observation
import SharedGraph.Proofs.Store.Edits
import SharedGraph.Proofs.Commit.Refusal
import SharedGraph.Proofs.Relay.Lanes
import SharedGraph.Proofs.Relay.Overlap
import SharedGraph.Proofs.Record.Pruning
import SharedGraph.Proofs.Relay.Holding
import SharedGraph.Proofs.Relay.Trail
import SharedGraph.Proofs.Relay.Exchange
import SharedGraph.Proofs.Relay.Order
import SharedGraph.Proofs.Relay.Effect
import SharedGraph.Proofs.MessagePack.Document
import SharedGraph.Proofs.Store.Encoding
import SharedGraph.Proofs.MessagePack.Token
import SharedGraph.Proofs.Store.Calls
import SharedGraph.Proofs.Commit.Indexing
import SharedGraph.Proofs.Commit.Issuing
import SharedGraph.Proofs.Cache.Timing
import SharedGraph.Proofs.Cache.Outcome
import SharedGraph.Proofs.Cache.Interleaving
import SharedGraph.Proofs.Cache.Schedule
import SharedGraph.Proofs.Cache.Recency
import SharedGraph.Proofs.Cache.Agreement
import SharedGraph.Proofs.Cache.LeastRecent
import SharedGraph.Proofs.Cache.Pending
import SharedGraph.Proofs.Cache.Outage
import SharedGraph.Proofs.Store.Accounts
import SharedGraph.Proofs.Commit.LeftOpen
import SharedGraph.Proofs.Failover.Completeness
import SharedGraph.Proofs.Failover.Roles
import SharedGraph.Proofs.Failover.Usability
import SharedGraph.Proofs.Failover.Naming
import SharedGraph.Proofs.Failover.Reconfiguration
import SharedGraph.Proofs.Relay.Carrying
import SharedGraph.Proofs.Relay.Arrears
import SharedGraph.Proofs.Store.Replay
import SharedGraph.Proofs.Store.ObjectCalls
import SharedGraph.Proofs.Relay.Refusal
import SharedGraph.Proofs.Relay.Reachable
import SharedGraph.Proofs.Relay.Narrowing
import SharedGraph.Proofs.Data.History
import SharedGraph.Proofs.Relay.Releasing
import SharedGraph.Proofs.Record.Projection
import SharedGraph.Proofs.Record.Replicas
import SharedGraph.Proofs.Store.FailedCalls
import SharedGraph.Proofs.Record.Construction
import SharedGraph.Proofs.Record.Sharing
import SharedGraph.Proofs.Commit.Effect
import SharedGraph.Proofs.MessagePack.Delimiting
import SharedGraph.Proofs.Store.Truncation
import SharedGraph.Proofs.Cache.Retention
import SharedGraph.Proofs.Store.Nesting
