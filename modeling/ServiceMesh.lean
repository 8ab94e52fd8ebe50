import ServiceMesh.AddressSpace
import ServiceMesh.Adverts
import ServiceMesh.Allocator
import ServiceMesh.AllowedSources
import ServiceMesh.BroadcastLog
import ServiceMesh.Bytes
import ServiceMesh.ColdStart
import ServiceMesh.CommandCarrier
import ServiceMesh.CommandHost
import ServiceMesh.Coordinator
import ServiceMesh.Crates
import ServiceMesh.DataPlane
import ServiceMesh.DeadSessions
import ServiceMesh.DeadVerdict
import ServiceMesh.Demux
import ServiceMesh.Departures
import ServiceMesh.DialableEndpoints
import ServiceMesh.DirectPath
import ServiceMesh.Disclosure
import ServiceMesh.EndpointRestart
import ServiceMesh.Entries
import ServiceMesh.Excerpts
import ServiceMesh.FailClosed
import ServiceMesh.Filter
import ServiceMesh.FixedInfra
import ServiceMesh.Ghosts
import ServiceMesh.Heartbeat
import ServiceMesh.HolePunching
import ServiceMesh.Holepunch
import ServiceMesh.Identity
import ServiceMesh.IdleMesh
import ServiceMesh.IdleNet
import ServiceMesh.IdlePair
import ServiceMesh.IdleTimer
import ServiceMesh.Impersonation
import ServiceMesh.Injection
import ServiceMesh.Interleaving
import ServiceMesh.JsonText
import ServiceMesh.KeyIndex
import ServiceMesh.KeyedMap
import ServiceMesh.LivePeers
import ServiceMesh.LogLines
import ServiceMesh.LoopbackFrames
import ServiceMesh.LoopbackPeers
import ServiceMesh.Machine
import ServiceMesh.MalformedRecords
import ServiceMesh.Mesh
import ServiceMesh.Networks
import ServiceMesh.Node
import ServiceMesh.OwnAddress
import ServiceMesh.PathEvents
import ServiceMesh.PathRules
import ServiceMesh.PathTimer
import ServiceMesh.PeerIds
import ServiceMesh.Persistence
import ServiceMesh.Policy
import ServiceMesh.PolicyVersions
import ServiceMesh.ProbePacing
import ServiceMesh.Pulses
import ServiceMesh.PunchReaping
import ServiceMesh.PunchTracking
import ServiceMesh.RearmGate
import ServiceMesh.RearmPacing
import ServiceMesh.RebootGuard
import ServiceMesh.Refinement
import ServiceMesh.Reflexive
import ServiceMesh.RegisterCases
import ServiceMesh.Registration
import ServiceMesh.Rejection
import ServiceMesh.Rejoin
import ServiceMesh.Relay
import ServiceMesh.RelayClient
import ServiceMesh.RelayCustody
import ServiceMesh.RelayDelivery
import ServiceMesh.RelayFloor
import ServiceMesh.RelayMoves
import ServiceMesh.RelayOnly
import ServiceMesh.RelayOnlyNode
import ServiceMesh.Restamp
import ServiceMesh.Restore
import ServiceMesh.Roaming
import ServiceMesh.RosterIntegrity
import ServiceMesh.RosterSync
import ServiceMesh.RuleListing
import ServiceMesh.Seats
import ServiceMesh.SeatsInvariant
import ServiceMesh.SelfSession
import ServiceMesh.Serving
import ServiceMesh.SessionPath
import ServiceMesh.SessionTable
import ServiceMesh.Snapshot
import ServiceMesh.SpoolAge
import ServiceMesh.StdNet
import ServiceMesh.StdNetRoundTrip
import ServiceMesh.StickyIdentity
import ServiceMesh.StreamIdentity
import ServiceMesh.Stun
import ServiceMesh.TenantIsolation
import ServiceMesh.ThreadSteps
import ServiceMesh.Threads
import ServiceMesh.Topology
import ServiceMesh.TopologyOrder
import ServiceMesh.Transmit
import ServiceMesh.Utf8
import ServiceMesh.ViewerFrames
import ServiceMesh.WakeDiscipline
import ServiceMesh.Wire
import ServiceMesh.Words
