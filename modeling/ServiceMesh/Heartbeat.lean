import ServiceMesh.Registration

/-! Heartbeats with endpoint roaming and hole-punch pairing, path and health reports, the
command queue, departures and the timeout sweep. -/

namespace ServiceMesh

open StdNet (Ipv6Addr SocketAddr)

variable [Crates]

def isStickyExplicitEndpoint (_endpoint : String) : Bool := true

def roamedEntry (observedExternal : String) (wgListenPort : Option UInt16) (relayOnly : Bool)
    (e : PeerEntry) : PeerEntry :=
  if relayOnly then e
  else
    match SocketAddr.parse observedExternal with
    | none => e
    | some observed =>
      if !e.endpointIsReflexive && e.listenEndpoint.any isStickyExplicitEndpoint then e
      else
        let resolved := resolveListenEndpoint none (some observed) wgListenPort false
        if resolved.reflexive ∧ resolved.endpoint ≠ e.listenEndpoint then
          { e with listenEndpoint := resolved.endpoint, endpointIsReflexive := true }
        else e

namespace Coordinator

def refreshReflexiveEndpoint (c : Coordinator) (peerId : Uuid) (observedExternal : String)
    (wgListenPort : Option UInt16) (relayOnly : Bool) : Coordinator :=
  { c with roster := c.roster.modify peerId (roamedEntry observedExternal wgListenPort relayOnly) }

def punchPeerForPair (c : Coordinator) (e : PeerEntry) (other : Uuid) : Option PunchPeer :=
  if e.observedExternal = "" then none
  else if e.relayOnly then none
  else if c.directPairFlags.isPinnedToRelay e.peerId other then none
  else if !c.proactive && !c.directPairFlags.isDirect e.peerId other then none
  else (e.listenEndpoint.filter (fun s => s ≠ "")).map (fun dial => ⟨e.peerId, dial⟩)

def tryEmitHolepunchPair (now : Int) (a : PeerEntry) (c : Coordinator) (b : PeerEntry) :
    Coordinator :=
  match c.punchPeerForPair a b.peerId, c.punchPeerForPair b a.peerId with
  | some pa, some pb =>
    match tryEmitPair c.punchTracker pa pb now with
    | (tracker, some events) =>
      { c with
        punchTracker := tracker
        broadcaster := c.broadcaster ++ events
        holepunchEmitted := c.holepunchEmitted + 1 }
    | (tracker, none) => { c with punchTracker := tracker }
  | _, _ => c

def tryEmitHolepunchPairs (c : Coordinator) (now : Int) (justHeartbeated : PeerEntry) :
    Coordinator :=
  (c.roster.values.filter (fun e => e.peerId != justHeartbeated.peerId)).foldl
    (tryEmitHolepunchPair now justHeartbeated) c

def heartbeat (c : Coordinator) (amb : Ambient) (peerId : Uuid) (observedExternal : String)
    (wgListenPort : Option UInt16) (hostedAppUlas : List String)
    (softwareVersion meshVersion : Option String) (relayOnly : Bool) :
    Coordinator × Except CoordinatorError PeerEntry :=
  if (c.roster.lookup peerId).isNone then (c, .error (.unknownPeer peerId))
  else
    let c := c.withRosterState (c.toRosterState.applyPeerHeartbeat amb.now
      ⟨peerId.toString, observedExternal, hostedAppUlas, softwareVersion, meshVersion,
        amb.nowUnixMicros⟩)
    let c := { c with
      roster := c.roster.modify peerId (fun e => { e with relayOnly := relayOnly }) }
    let c := c.refreshReflexiveEndpoint peerId observedExternal wgListenPort relayOnly
    match c.roster.lookup peerId with
    | none => (c, .error (.unknownPeer peerId))
    | some snapshot =>
      ((c.broadcast (.updated snapshot.toInfo)).tryEmitHolepunchPairs amb.nowUnixMicros snapshot,
        .ok snapshot)

def pathEdges (paths : List PeerPathDto) : DashMap Uuid PathEdge :=
  paths.foldl
    (fun edges p =>
      match Uuid.parseStr p.peerId with
      | .error _ => edges
      | .ok target =>
        edges.insert target
          ⟨p.direct, p.lastRxAgeMs, p.lastHandshakeDirect, p.lastHandshakeAgeMs,
            p.handshakeRxTotal⟩) ∅

def confirmDirect (reporter : Uuid) (t : PunchTracker) (p : PeerPathDto) : PunchTracker :=
  match Uuid.parseStr p.peerId with
  | .error _ => t
  | .ok target => if p.direct then t.noteConfirmed (canonicalPair reporter target) else t

def recordPeerPaths (c : Coordinator) (reporter : Uuid) (paths : List PeerPathDto) : Coordinator :=
  if (c.roster.lookup reporter).isNone then c
  else
    { c with
      punchTracker := paths.foldl (confirmDirect reporter) c.punchTracker
      roster := c.roster.modify reporter (fun e => { e with paths := pathEdges paths }) }

def recordDataplaneHealth (c : Coordinator) (reporter : Uuid) (healthy : Bool) : Coordinator :=
  { c with roster := c.roster.modify reporter (fun e => { e with dataplaneHealthy := healthy }) }

def enqueueCommand (c : Coordinator) (peerId : Uuid) (command : NodeCommandDto) : Coordinator :=
  { c with
    roster := c.roster.modify peerId
      (fun e => { e with pendingCommands := e.pendingCommands ++ [command] }) }

def drainCommands (c : Coordinator) (peerId : Uuid) : Coordinator × List NodeCommandDto :=
  ({ c with roster := c.roster.modify peerId (fun e => { e with pendingCommands := [] }) },
    ((c.roster.lookup peerId).map PeerEntry.pendingCommands).getD [])

def ackCommands (c : Coordinator) (peerId : Uuid) (acked : List String) : Coordinator :=
  if acked.isEmpty then c
  else
    { c with
      roster := c.roster.modify peerId fun e =>
        { e with pendingCommands := e.pendingCommands.filter (fun cmd => cmd.commandId ∉ acked) } }

def departPeer (c : Coordinator) (nowMicros : Int) (peerId : Uuid) (tags : List String)
    (reason : String) : Coordinator :=
  (c.applyPeerLeft ⟨peerId.toString, reason, nowMicros⟩).broadcast (.removed peerId.toString tags)

def deregister (c : Coordinator) (amb : Ambient) (peerId : Uuid) (reason : String) :
    Coordinator × Bool :=
  match c.roster.lookup peerId with
  | none => (c, false)
  | some e =>
    ((c.departPeer amb.nowUnixMicros peerId e.tags reason).persistRoster (amb.saved peerId), true)

def reapStaleResources (c : Coordinator) (now : Nat) (nowMicros : Int) : Coordinator :=
  { c with
    relay := c.relay.reapClosed.reapExpiredSpool now
    punchTracker := c.punchTracker.reapOlderThan (nowMicros - punchPairTtlMicros) }

def sweepOnce (c : Coordinator) (amb : Ambient) : Coordinator :=
  let c := c.reapStaleResources amb.now amb.nowUnixMicros
  (c.stalePeers amb.now).foldl (fun c peerId => (c.deregister amb peerId "heartbeat_timeout").1) c

theorem sweepOnce_induction {P : Coordinator → Prop} (c : Coordinator) (amb : Ambient)
    (hreap : P (c.reapStaleResources amb.now amb.nowUnixMicros))
    (hleave : ∀ c', P c' → ∀ id ∈ c.stalePeers amb.now,
      P (c'.deregister amb id "heartbeat_timeout").1) : P (c.sweepOnce amb) :=
  List.foldlRecOn _ _ hreap hleave

end Coordinator

end ServiceMesh
