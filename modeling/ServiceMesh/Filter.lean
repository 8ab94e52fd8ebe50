import ServiceMesh.Heartbeat

/-! What a peer gets to see of the others: the filtered roster, the per-viewer event stream
and the relay, each gated by the policy in force. -/

namespace ServiceMesh

open StdNet (Ipv6Addr SocketAddr)

variable [Crates]

namespace Coordinator

def resyncAllPeers (c : Coordinator) : Coordinator :=
  { c with broadcaster := c.broadcaster ++ c.snapshot.map PeerEvent.updated }

def peerTags (c : Coordinator) (peerId : Uuid) : Option (List String) :=
  (c.roster.lookup peerId).map PeerEntry.tags

def viewerCanSee (c : Coordinator) (viewerTags peerTags : List String) : Bool :=
  c.policy.current.canSee viewerTags peerTags

def canRelay (c : Coordinator) (srcPubkey dstPubkey : List UInt8) : Bool :=
  match c.byPubkey.lookup srcPubkey, c.byPubkey.lookup dstPubkey with
  | some srcId, some dstId =>
    match c.peerTags srcId, c.peerTags dstId with
    | some srcTags, some dstTags => c.viewerCanSee srcTags dstTags
    | _, _ => false
  | _, _ => false

def visiblePeers (c : Coordinator) (viewerId : Uuid) (viewerTags : List String) : List PeerInfo :=
  (sortByPeerIndex (c.roster.values.filter
    (fun e => e.peerId != viewerId && c.policy.current.canSee viewerTags e.tags))).map
    PeerEntry.toInfo

def noteRelayPairForwarded (c : Coordinator) (srcPubkey dstPubkey : List UInt8) (bytes : Nat)
    (hiPrio : Bool) : Coordinator :=
  match c.byPubkey.lookup srcPubkey, c.byPubkey.lookup dstPubkey with
  | some src, some dst =>
    let stat := (c.relayPairStats.lookup (src, dst)).getD ⟨0, 0⟩
    { c with
      relayPairStats := c.relayPairStats.insert (src, dst)
        ⟨stat.bytes + bytes.toUInt64, if hiPrio then stat.handshakeFrames + 1 else stat.handshakeFrames⟩ }
  | _, _ => c

def wakeDestination (c : Coordinator) (now : Nat) (wallMicros : Int) (myPubkey dst : List UInt8) :
    Coordinator :=
  match c.peerForPubkey dst, c.peerForPubkey myPubkey with
  | some (recipient, _), some (_, sourceUla) =>
    match c.relay.takeWakeSlot now dst with
    | (relay, true) =>
      { c with
        relay := relay
        broadcaster := c.broadcaster ++
          [.relayWake ⟨recipient.toString, sourceUla.toString, wallMicros⟩]
        relayWakeEmitted := c.relayWakeEmitted + 1 }
    | (relay, false) => { c with relay := relay }
  | _, _ => c

def routeUplink (c : Coordinator) (now : Nat) (wallMicros : Int) (myPubkey buf : List UInt8) :
    Coordinator × Option (List UInt8) :=
  match decodeRelayFrame buf with
  | none => (c, none)
  | some (dst, payload) =>
    if !c.canRelay myPubkey dst then (c, none)
    else
      let hiPrio := payload.head?.any (fun t => 1 ≤ t && t ≤ 3)
      let isInit := payload.head? == some 1
      let downlink := encodeRelayFrame myPubkey payload
      match c.relay.forward now dst downlink hiPrio with
      | (relay, true) =>
        let c := { c with
          relay := relay
          relayForwardedBytes := c.relayForwardedBytes + downlink.length.toUInt64 }
        (c.noteRelayPairForwarded myPubkey dst downlink.length hiPrio, some downlink)
      | (relay, false) =>
        let c := { c with relay := relay }
        (if isInit && c.proactive then c.wakeDestination now wallMicros myPubkey dst else c, none)

end Coordinator

structure ViewerFilter where
  viewerId : Uuid
  viewerTags : List String
  revealed : List String
deriving DecidableEq, Repr

namespace ViewerFilter

def reveal (f : ViewerFilter) (peerId : String) : ViewerFilter :=
  { f with revealed := f.revealed.insert peerId }

def conceal (f : ViewerFilter) (peerId : String) : ViewerFilter :=
  { f with revealed := f.revealed.filter (fun r => r != peerId) }

def applyInfo (f : ViewerFilter) (c : Coordinator) (info : PeerInfo) :
    ViewerFilter × Option PeerEvent :=
  if info.peerId = f.viewerId.toString then (f, none)
  else if c.viewerCanSee f.viewerTags info.tags then
    (f.reveal info.peerId,
      some (if info.peerId ∈ f.revealed then .updated info else .added info))
  else if info.peerId ∈ f.revealed then
    (f.conceal info.peerId, some (.removed info.peerId info.tags))
  else (f, none)

def apply (f : ViewerFilter) (c : Coordinator) : PeerEvent → ViewerFilter × Option PeerEvent
  | .added info => f.applyInfo c info
  | .updated info => f.applyInfo c info
  | .removed peerId tags =>
    if peerId ∈ f.revealed then (f.conceal peerId, some (.removed peerId tags)) else (f, none)
  | .holePunch hp =>
    (f, if hp.initiatorPeerId = f.viewerId.toString then some (.holePunch hp) else none)
  | .relayWake rw =>
    (f, if rw.recipientPeerId = f.viewerId.toString then some (.relayWake rw) else none)

def applyAll (f : ViewerFilter) (c : Coordinator) : List PeerEvent → ViewerFilter × List PeerEvent
  | [] => (f, [])
  | event :: events =>
    let (f, frame) := f.apply c event
    let (f, frames) := f.applyAll c events
    (f, frame.toList ++ frames)

end ViewerFilter

def peerBroadcastCapacity : Nat := 256

structure Stream where
  filter : Option ViewerFilter
  cursor : Nat
deriving DecidableEq, Repr

namespace Stream

def opened (c : Coordinator) (viewer : Option (Uuid × List String)) : Stream × List PeerEvent :=
  let bootstrap := c.snapshot.map PeerEvent.added
  match viewer with
  | none => (⟨none, c.broadcaster.length⟩, bootstrap)
  | some (viewerId, viewerTags) =>
    let (f, frames) := (ViewerFilter.mk viewerId viewerTags []).applyAll c bootstrap
    (⟨some f, c.broadcaster.length⟩, frames)

def next (s : Stream) (c : Coordinator) : Stream × Option PeerEvent :=
  if s.cursor + peerBroadcastCapacity < c.broadcaster.length then
    ({ s with cursor := c.broadcaster.length - peerBroadcastCapacity }, none)
  else
    match c.broadcaster[s.cursor]? with
    | none => (s, none)
    | some event =>
      match s.filter with
      | none => (⟨none, s.cursor + 1⟩, some event)
      | some f =>
        let (f, frame) := f.apply c event
        (⟨some f, s.cursor + 1⟩, frame)

end Stream

end ServiceMesh
