import UnityLan.Foundation.Prog
import UnityLan.Foundation.Pool
import UnityLan.Foundation.Table
import UnityLan.Foundation.Counts
import UnityLan.Foundation.Places
import UnityLan.Foundation.Walk
import UnityLan.Foundation.Eval
import UnityLan.Foundation.Postcard
import UnityLan.Common.Basic
import UnityLan.Common.NetId
import UnityLan.Common.Labels
import UnityLan.Common.Indices
import UnityLan.Common.IpText
import UnityLan.Common.Api
import UnityLan.Common.Layouts
import UnityLan.Common.Rotation
import UnityLan.Coordinator.Versions
import UnityLan.Coordinator.Presence
import UnityLan.Coordinator.Wake
import UnityLan.Coordinator.RateLimit
import UnityLan.Coordinator.Limiter
import UnityLan.Coordinator.Changes
import UnityLan.Coordinator.SingleFlight
import UnityLan.Coordinator.Permits
import UnityLan.Coordinator.Roles
import UnityLan.Coordinator.Database
import UnityLan.Coordinator.Signer
import UnityLan.Coordinator.NatTables
import UnityLan.Coordinator.State
import UnityLan.Coordinator.Store
import UnityLan.Coordinator.Auth
import UnityLan.Coordinator.RoleSource
import UnityLan.Coordinator.Nat
import UnityLan.Coordinator.Signatures
import UnityLan.Coordinator.Snapshot
import UnityLan.Coordinator.Register
import UnityLan.Coordinator.Footprint
import UnityLan.Coordinator.Devices
import UnityLan.Coordinator.Machine
import UnityLan.Coordinator.Admission
import UnityLan.Coordinator.Binding
import UnityLan.Coordinator.Telling
import UnityLan.Coordinator.Usernames
import UnityLan.Coordinator.Ambiguity
import UnityLan.Coordinator.Removal
import UnityLan.Coordinator.Lookup
import UnityLan.Coordinator.Revocation
import UnityLan.Coordinator.RoleFailure
import UnityLan.Coordinator.LongPoll
import UnityLan.Coordinator.Outdated
import UnityLan.Coordinator.Announcements
import UnityLan.Engine.Keys
import UnityLan.Engine.Coord
import UnityLan.Coordinator.Rounds
import UnityLan.Engine.Seeds
import UnityLan.Engine.Verdicts
import UnityLan.Engine.Fw.Tokens
import UnityLan.Engine.Fw.Quoting
import UnityLan.Engine.MeshServices
import UnityLan.Engine.Resolver
import UnityLan.Coordinator.Enrollment
import UnityLan.Coordinator.Suffixes
import UnityLan.Coordinator.Services
import UnityLan.Coordinator.Names
import UnityLan.Coordinator.Primary
import UnityLan.Coordinator.Rekey
import UnityLan.Coordinator.UserLabels
import UnityLan.Coordinator.Allocation
import UnityLan.Coordinator.SignCache
import UnityLan.Coordinator.Joining
import UnityLan.Coordinator.Gates
import UnityLan.Coordinator.Reclaim
import UnityLan.Coordinator.Relays
import UnityLan.Coordinator.Reports
import UnityLan.Coordinator.Rotate
import UnityLan.Coordinator.Holding
import UnityLan.Coordinator.Addresses
import UnityLan.Foundation.Window
import UnityLan.Coordinator.Zone
import UnityLan.Coordinator.Acme
import UnityLan.Coordinator.Certificates
import UnityLan.Engine.Lifecycle
import UnityLan.Engine.Logout
import UnityLan.Engine.Fw.Exposure
import UnityLan.Engine.Fw.Scopes
import UnityLan.Engine.Fw.Nftables
import UnityLan.Engine.Fw.Windows
import UnityLan.Engine.Fw.Backends
import UnityLan.Engine.Fw.Firewall
import UnityLan.Engine.Fw.Refusals
import UnityLan.Engine.Fw.Restarts
import UnityLan.Engine.Fw.Convergence
import UnityLan.Engine.Fw.Announced
import UnityLan.Engine.Fw.Presence
import UnityLan.Engine.Fw.Members
import UnityLan.Engine.Fw.Published
import UnityLan.Proxy.Route
import UnityLan.Proxy.Serve
import UnityLan.Foundation.Runs
import UnityLan.Engine.Address
import UnityLan.Engine.Cert
import UnityLan.Engine.Dns
import UnityLan.Engine.Enrollments
import UnityLan.Engine.Order
import UnityLan.Engine.Answers
import UnityLan.Engine.Residue
import UnityLan.Engine.Sinks
import UnityLan.Engine.Tunnels
import UnityLan.Engine.Expiry
import UnityLan.Engine.Gossip
import UnityLan.Engine.P2p
import UnityLan.Engine.Datagrams
import UnityLan.Engine.Status
import UnityLan.Engine.Sessions
import UnityLan.Engine.Setters
import UnityLan.Engine.Displayed
import UnityLan.Engine.Halves
import UnityLan.Engine.Health
import UnityLan.Engine.Relay
import UnityLan.Engine.Polling
import UnityLan.Engine.Parking
import UnityLan.Engine.Waiting
import UnityLan.Engine.Oauth
import UnityLan.Engine.SelfUpdate
import UnityLan.Engine.Staging
import UnityLan.Engine.Updates
import UnityLan.Engine.Rollback
import UnityLan.Engine.Filter
import UnityLan.Engine.Durable
import UnityLan.Engine.Pacing
import UnityLan.Engine.Registration
import UnityLan.Engine.Pairing
import UnityLan.Engine.Segment
import UnityLan.Foundation.Exposition
import UnityLan.Coordinator.Metrics
import UnityLan.Coordinator.Records
import UnityLan.Coordinator.Dashboard
import UnityLan.Coordinator.Watching
import UnityLan.Foundation.Base64
import UnityLan.Foundation.Sequences
import UnityLan.Foundation.Hex
import UnityLan.Common.Wire
import UnityLan.Coordinator.Release
import UnityLan.Engine.Publishing
import UnityLan.Engine.ControlServer
