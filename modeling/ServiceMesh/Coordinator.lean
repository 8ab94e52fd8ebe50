import Mathlib.Data.List.Sort
import ServiceMesh.Holepunch
import ServiceMesh.Relay
import ServiceMesh.StdNetRoundTrip

/-! The coordinator's state, its projections to events and to the wire, the `apply` seam
through which peers join, beat and leave, and the durable roster snapshot. -/

namespace ServiceMesh

open StdNet (Ipv6Addr SocketAddr)

structure PathEdge where
  direct : Bool
  lastRxAgeMs : UInt64
  lastHandshakeDirect : Option Bool
  lastHandshakeAgeMs : Option UInt64
  handshakeRxTotal : UInt64
deriving DecidableEq, Repr

structure PeerEntry where
  peerId : Uuid
  wgPublicKey : List UInt8
  ula : Ipv6Addr
  peerIndex : UInt16
  listenEndpoint : Option String
  displayName : String
  network : String
  tags : List String
  hostedAppUlas : List String
  joinedAtMicros : Int
  lastHeartbeat : Nat
  observedExternal : String
  endpointIsReflexive : Bool
  kind : String
  parent : Option String
  appUuid : Option String
  softwareVersion : Option String
  meshVersion : Option String
  relayOnly : Bool
  paths : DashMap Uuid PathEdge
  dataplaneHealthy : Bool
  pendingCommands : List NodeCommandDto
deriving DecidableEq

namespace PeerEntry

variable [Crates]

def toInfoWithConnectivity (e : PeerEntry) (connectivity : Option String)
    (connectivityAgeMs : Option UInt64) : PeerInfo where
  peerId := e.peerId.toString
  wgPublicKey := Crates.base64Encode e.wgPublicKey
  ula := e.ula.toString
  listenEndpoint := e.listenEndpoint
  displayName := e.displayName
  network := e.network
  tags := e.tags
  hostedAppUlas := e.hostedAppUlas
  joinedAtMicros := e.joinedAtMicros
  kind := e.kind
  parent := e.parent
  appUuid := e.appUuid
  softwareVersion := e.softwareVersion
  meshVersion := e.meshVersion
  relayOnly := e.relayOnly
  connectivity := connectivity
  connectivityAgeMs := connectivityAgeMs

def toInfo (e : PeerEntry) : PeerInfo := e.toInfoWithConnectivity none none

def toJoinedEvent (e : PeerEntry) : PeerJoined where
  peerId := e.peerId.toString
  wgPublicKey := e.wgPublicKey
  ula := e.ula.toString
  listenEndpoint := e.listenEndpoint.getD ""
  displayName := e.displayName
  network := e.network
  tags := e.tags
  hostedAppUlas := e.hostedAppUlas
  joinedAtMicros := e.joinedAtMicros
  kind := e.kind
  parent := e.parent
  appUuid := e.appUuid
  softwareVersion := e.softwareVersion
  meshVersion := e.meshVersion
  relayOnly := e.relayOnly

end PeerEntry

/-- The part of the coordinator that membership is made of. `rosterStore` holds every snapshot
saved so far, the latest first; it outlives the process. -/
structure RosterState where
  roster : DashMap Uuid PeerEntry
  byPubkey : DashMap (List UInt8) Uuid
  allocator : UlaAllocator
  rosterStore : List (List PeerJoined)

structure PairRelayStat where
  bytes : UInt64
  handshakeFrames : UInt64
deriving DecidableEq, Repr

structure Coordinator extends RosterState where
  broadcaster : List PeerEvent
  policy : PolicyStore
  validator : Bool
  heartbeatTimeout : Nat
  punchTracker : PunchTracker
  directPairFlags : DirectPairFlags
  proactive : Bool
  relayForwardedBytes : UInt64
  holepunchEmitted : UInt64
  relayWakeEmitted : UInt64
  relayPairStats : DashMap (Uuid × Uuid) PairRelayStat
  relay : RelayRegistry

/-- What a call reads from its surroundings: the clocks, a fresh UUID, the auth service, and
whether the snapshot written after the change of a given peer reaches the disk. -/
structure Ambient where
  now : Nat
  nowUnixMicros : Int
  nowV7 : Uuid
  authService : String → Option String → AuthReply
  saved : Uuid → Bool

structure Config where
  policy : Policy
  validator : Bool
  heartbeatTimeout : Nat
  proactive : Bool

namespace RosterState

variable [Crates]

def joinedEntry (event : PeerJoined) (peerId : Uuid) (ula : Ipv6Addr) (now : Nat) : PeerEntry where
  peerId := peerId
  wgPublicKey := event.wgPublicKey
  ula := ula
  peerIndex := ula.seg3
  listenEndpoint := if event.listenEndpoint = "" then none else some event.listenEndpoint
  displayName := event.displayName
  network := event.network
  tags := event.tags
  hostedAppUlas := event.hostedAppUlas
  joinedAtMicros := event.joinedAtMicros
  lastHeartbeat := now
  observedExternal := ""
  endpointIsReflexive := false
  kind := event.kind
  parent := event.parent
  appUuid := event.appUuid
  softwareVersion := event.softwareVersion
  meshVersion := event.meshVersion
  relayOnly := event.relayOnly
  paths := ∅
  dataplaneHealthy := true
  pendingCommands := []

def insertEntry (m : RosterState) (entry : PeerEntry) : RosterState :=
  { m with
    roster := m.roster.insert entry.peerId entry
    byPubkey := m.byPubkey.insert entry.wgPublicKey entry.peerId
    allocator := m.allocator.bumpSlotAtLeast entry.ula.seg2 entry.ula.seg3 }

def applyPeerJoined (m : RosterState) (now : Nat) (event : PeerJoined) :
    Except CoordinatorError (RosterState × PeerEntry) :=
  match Uuid.parseStr event.peerId with
  | .error e => .error (.invalidPeerId e)
  | .ok peerId =>
    match Ipv6Addr.parse event.ula with
    | none => .error (.invalidPeerId StdNet.addrParseErrorText)
    | some ula =>
      if m.roster.values.any (fun existing => existing.ula == ula && existing.peerId != peerId) then
        .error (.ulaConflict ula.toString)
      else
        let entry := joinedEntry event peerId ula now
        .ok (m.insertEntry entry, entry)

def applyPeerHeartbeat (m : RosterState) (now : Nat) (event : PeerHeartbeat) : RosterState :=
  match Uuid.parseStr event.peerId with
  | .error _ => m
  | .ok peerId =>
    { m with
      roster := m.roster.modify peerId fun e =>
        { e with
          lastHeartbeat := now
          observedExternal := event.observedExternal
          hostedAppUlas := event.hostedAppUlas
          softwareVersion := event.softwareVersion.or e.softwareVersion
          meshVersion := event.meshVersion.or e.meshVersion } }

def rosterSnapshot (m : RosterState) : List PeerJoined :=
  m.roster.values.map PeerEntry.toJoinedEvent

def saveRoster (m : RosterState) (peers : List PeerJoined) (saved : Bool) : RosterState :=
  if saved then { m with rosterStore := peers :: m.rosterStore } else m

def persistRoster (m : RosterState) (saved : Bool) : RosterState :=
  m.saveRoster m.rosterSnapshot saved

def restoreEvents (now : Nat) (m : RosterState) (peers : List PeerJoined) : RosterState :=
  peers.foldl
    (fun m event =>
      match m.applyPeerJoined now event with
      | .ok (m, _) => m
      | .error _ => m) m

def load (m : RosterState) (file : Option Nat) : List PeerJoined :=
  (file.bind (fun k => m.rosterStore[k]?)).getD []

def fresh (rosterStore : List (List PeerJoined)) : RosterState := ⟨∅, ∅, UlaAllocator.new, rosterStore⟩

def restart (m : RosterState) (now : Nat) (file : Option Nat) : RosterState :=
  restoreEvents now (fresh m.rosterStore) (m.load file)

end RosterState

namespace Coordinator

variable [Crates]

def new (cfg : Config) (m : RosterState) : Coordinator :=
  { m with
    broadcaster := []
    policy := PolicyStore.new cfg.policy
    validator := cfg.validator
    heartbeatTimeout := cfg.heartbeatTimeout
    punchTracker := PunchTracker.new
    directPairFlags := DirectPairFlags.new
    proactive := cfg.proactive
    relayForwardedBytes := 0
    holepunchEmitted := 0
    relayWakeEmitted := 0
    relayPairStats := ∅
    relay := RelayRegistry.new }

def broadcast (c : Coordinator) (event : PeerEvent) : Coordinator :=
  { c with broadcaster := c.broadcaster ++ [event] }

def withRosterState (c : Coordinator) (m : RosterState) : Coordinator := { c with toRosterState := m }

def persistRoster (c : Coordinator) (saved : Bool) : Coordinator :=
  c.withRosterState (c.toRosterState.persistRoster saved)

def applyPeerLeft (c : Coordinator) (event : PeerLeft) : Coordinator :=
  match Uuid.parseStr event.peerId with
  | .error _ => c
  | .ok peerId =>
    match c.roster.lookup peerId with
    | none => c
    | some entry =>
      { c with
        roster := c.roster.erase peerId
        byPubkey := c.byPubkey.erase entry.wgPublicKey
        relay := c.relay.dropPubkey entry.wgPublicKey
        punchTracker := c.punchTracker.removePeer peerId
        directPairFlags := c.directPairFlags.removePeer peerId
        relayPairStats :=
          c.relayPairStats.retain (fun pair _ => pair.1 != peerId && pair.2 != peerId) }

def restart (c : Coordinator) (cfg : Config) (now : Nat) (file : Option Nat) : Coordinator :=
  new cfg (c.toRosterState.restart now file)

def selfConnectivityAged (c : Coordinator) (peerId : Uuid) : Option String × Option UInt64 :=
  match c.roster.lookup peerId with
  | none => (none, none)
  | some entry =>
    if !entry.dataplaneHealthy then (some "dead", none)
    else if entry.paths.values.isEmpty then (none, none)
    else
      (some (if entry.paths.values.any (fun e => e.direct) then "direct" else "relay"),
        (entry.paths.values.map PathEdge.lastRxAgeMs).min?)

def sortByPeerIndex (entries : List PeerEntry) : List PeerEntry :=
  entries.insertionSort (fun a b => a.peerIndex ≤ b.peerIndex)

def snapshot (c : Coordinator) : List PeerInfo :=
  (sortByPeerIndex c.roster.values).map fun e =>
    let (connectivity, age) := c.selfConnectivityAged e.peerId
    e.toInfoWithConnectivity connectivity age

def edge (c : Coordinator) (vantage target : Uuid) : Option (Bool × UInt64) :=
  ((c.roster.lookup vantage).bind (fun e => e.paths.lookup target)).map
    (fun e => (e.direct, e.lastRxAgeMs))

def snapshotWithVantage (c : Coordinator) (vantage : Option Uuid) : List PeerInfo :=
  (sortByPeerIndex c.roster.values).map fun e =>
    let (connectivity, age) := match vantage with
      | none => c.selfConnectivityAged e.peerId
      | some v =>
        match c.edge v e.peerId with
        | some (direct, age) => (some (if direct then "direct" else "relay"), some age)
        | none => (none, none)
    e.toInfoWithConnectivity connectivity age

def stalePeers (c : Coordinator) (now : Nat) : List Uuid :=
  c.roster.entries.filterMap fun kv =>
    if now - kv.2.lastHeartbeat > c.heartbeatTimeout then some kv.1 else none

def isRegisteredPubkey (c : Coordinator) (pk : List UInt8) : Bool := (c.byPubkey.lookup pk).isSome

def peerForPubkey (c : Coordinator) (pk : List UInt8) : Option (Uuid × Ipv6Addr) :=
  match c.byPubkey.lookup pk with
  | none => none
  | some peerId => (c.roster.lookup peerId).map (fun e => (peerId, e.ula))

end Coordinator

end ServiceMesh
