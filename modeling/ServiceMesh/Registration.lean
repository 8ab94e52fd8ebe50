import ServiceMesh.Coordinator
import ServiceMesh.Reflexive

/-! Registration: admission by join token, identity stamping, adoption of addresses held by
stale peers, address resolution, and the first-time, steady and re-home paths. -/

namespace ServiceMesh

open StdNet (Ipv6Addr SocketAddr)

def isWhitespace (c : Char) : Bool :=
  (0x9 ≤ c.toNat && c.toNat ≤ 0xd) || c.toNat == 0x20 || c.toNat == 0x85 || c.toNat == 0xa0 ||
    c.toNat == 0x1680 || (0x2000 ≤ c.toNat && c.toNat ≤ 0x200a) || c.toNat == 0x2028 ||
    c.toNat == 0x2029 || c.toNat == 0x202f || c.toNat == 0x205f || c.toNat == 0x3000

def trim (s : String) : String :=
  String.ofList ((s.toList.dropWhile isWhitespace).reverse.dropWhile isWhitespace).reverse

def selfAdvertisableCapabilityTags : List String :=
  ["supervisor", "firecracker", "docker", "builder"]

structure NodeIdentity where
  network : String
  tags : List String
deriving DecidableEq, Repr

def pushCapability (tags : List String) (t : String) : List String :=
  if t ∈ selfAdvertisableCapabilityTags ∧ t ∉ tags then tags ++ [t] else tags

def stampIdentity (req : RegisterRequest) : Option ValidatedClaims → NodeIdentity
  | none => ⟨req.network, req.tags⟩
  | some c => ⟨c.network, req.tags.foldl pushCapability c.tags⟩

inductive RegisterOutcome
  | created
  | existed
deriving DecidableEq, Repr

variable [Crates]

def decodePubkey (s : String) : Except CoordinatorError (List UInt8) :=
  match Crates.base64Decode s with
  | .error e => .error (.pubkeyDecode e)
  | .ok bytes => .ok bytes

def authorizeFixedRequestedUla (requestedUla : Option String) (claims : Option ValidatedClaims) :
    Except CoordinatorError Unit :=
  match requestedUla with
  | none => .ok ()
  | some raw =>
    match Ipv6Addr.parse raw with
    | none => .error (.invalidRequestedUla raw)
    | some addr =>
      if !isFixedInfraUla addr then .ok ()
      else if claims.any
          (fun c => c.requestedUlas.any (fun allowed => Ipv6Addr.parse allowed == some addr)) then
        .ok ()
      else
        .error (.unauthorized
          ("requested fixed infra ULA " ++ raw ++ " is not authorized by this join token"))

namespace RosterState

def resolveUla (m : RosterState) (network : String) (requestedUla : Option String) :
    Except CoordinatorError (RosterState × UInt16 × Ipv6Addr) :=
  match requestedUla with
  | some raw =>
    match Ipv6Addr.parse raw with
    | none => .error (.invalidRequestedUla raw)
    | some addr =>
      if !isUniqueLocal addr then .error (.invalidRequestedUla raw)
      else if addr.seg1 == hostUlaSlot && !isFixedInfraUla addr &&
          addr.seg2 != networkSlot network then
        .error (.ulaNetworkMismatch raw network)
      else if m.roster.values.any (fun e => e.ula == addr) then .error (.ulaConflict raw)
      else
        .ok ({ m with allocator := m.allocator.bumpSlotAtLeast addr.seg2 addr.seg3 },
          addr.seg3, addr)
  | none =>
    match m.allocator.allocate network with
    | .error e => .error (.allocation e)
    | .ok (allocator, peerIndex, ula) => .ok ({ m with allocator := allocator }, peerIndex, ula)

end RosterState

def refreshedEntry (req : RegisterRequest) (identity : NodeIdentity) (resolved : ResolvedEndpoint)
    (observed : Option SocketAddr) (now : Nat) (e : PeerEntry) : PeerEntry :=
  { e with
    listenEndpoint := resolved.endpoint
    endpointIsReflexive := resolved.reflexive
    displayName := req.displayName
    tags := identity.tags
    hostedAppUlas := req.hostedAppUlas
    kind := req.kind
    parent := req.parent
    appUuid := req.appUuid
    softwareVersion := req.softwareVersion.or e.softwareVersion
    meshVersion := req.meshVersion.or e.meshVersion
    relayOnly := req.relayOnly
    lastHeartbeat := now
    observedExternal := (observed.map SocketAddr.toString).getD e.observedExternal }

def rehomedEntry (network : String) (newUla : Ipv6Addr) (newIndex : UInt16) (e : PeerEntry) :
    PeerEntry :=
  { e with network := network, ula := newUla, peerIndex := newIndex }

def joinEvent (req : RegisterRequest) (identity : NodeIdentity) (resolved : ResolvedEndpoint)
    (pubkey : List UInt8) (peerId : Uuid) (ula : Ipv6Addr) (nowMicros : Int) : PeerJoined where
  peerId := peerId.toString
  wgPublicKey := pubkey
  ula := ula.toString
  listenEndpoint := resolved.endpoint.getD ""
  displayName := req.displayName
  network := identity.network
  tags := identity.tags
  hostedAppUlas := req.hostedAppUlas
  joinedAtMicros := nowMicros
  kind := req.kind
  parent := req.parent
  appUuid := req.appUuid
  softwareVersion := req.softwareVersion
  meshVersion := req.meshVersion
  relayOnly := req.relayOnly

def seedReflexive (resolved : ResolvedEndpoint) (observed : Option SocketAddr) (e : PeerEntry) :
    PeerEntry :=
  { e with
    endpointIsReflexive := resolved.reflexive
    observedExternal := (observed.map SocketAddr.toString).getD e.observedExternal }

namespace Coordinator

def authenticate (c : Coordinator) (amb : Ambient) (bearer wgPublicKey : Option String) :
    Except CoordinatorError (Option ValidatedClaims) :=
  if !c.validator then .ok none
  else
    match (bearer.map trim).filter (fun t => t ≠ "") with
    | none => .error (.unauthorized "missing join token (Authorization: Bearer)")
    | some token =>
      match validateToken (amb.authService token wgPublicKey) with
      | .ok claims =>
        if claims.valid then .ok (some claims)
        else .error (.unauthorized "join token invalid or revoked")
      | .error (.wrongKind kind) =>
        .error (.unauthorized ("join token has wrong kind: " ++ kind))
      | .error (.transport e) =>
        .error (.unauthorized ("join token validation failed: auth service transport: " ++ e))
      | .error (.status status body) =>
        .error (.unauthorized ("join token validation failed: auth service status " ++
          status.toNat.repr ++ ": " ++ body))
      | .error (.decode e) =>
        .error (.unauthorized
          ("join token validation failed: auth service response decode: " ++ e))

def admission (c : Coordinator) (amb : Ambient) (req : RegisterRequest) (bearer : Option String) :
    Except CoordinatorError (Option ValidatedClaims × List UInt8) :=
  let pubkeyB64 := (some (trim req.wgPublicKey)).filter (fun k => k ≠ "")
  match c.authenticate amb bearer pubkeyB64 with
  | .error e => .error e
  | .ok claims =>
    match authorizeFixedRequestedUla req.requestedUla claims with
    | .error e => .error e
    | .ok () =>
      match decodePubkey req.wgPublicKey with
      | .error e => .error e
      | .ok pubkey =>
        if pubkey.length ≠ 32 then .error (.invalidPubkey pubkey.length) else .ok (claims, pubkey)

def staleUlaHolder (c : Coordinator) (now : Nat) (requestedUla : Option String) : Option Uuid :=
  match requestedUla with
  | none => none
  | some raw =>
    match Ipv6Addr.parse raw with
    | none => none
    | some addr =>
      match c.roster.values.find? (fun e => e.ula == addr) with
      | none => none
      | some holder =>
        if (c.roster.lookup holder.peerId).any
            (fun e => decide (now - e.lastHeartbeat > c.heartbeatTimeout)) then
          some holder.peerId
        else none

def evictHolder (c : Coordinator) (nowMicros : Int) (holderId : Uuid) : Coordinator :=
  let tags := ((c.roster.lookup holderId).map PeerEntry.tags).getD []
  (c.broadcast (.removed holderId.toString tags)).applyPeerLeft
    ⟨holderId.toString, "evicted_stale_ula_holder", nowMicros⟩

def evictStaleUlaHolder (c : Coordinator) (amb : Ambient) (requestedUla : Option String) :
    Coordinator :=
  match c.staleUlaHolder amb.now requestedUla with
  | none => c
  | some holderId => (c.evictHolder amb.nowUnixMicros holderId).persistRoster (amb.saved holderId)

def refreshEntry (c : Coordinator) (amb : Ambient) (peerId : Uuid) (req : RegisterRequest)
    (claims : Option ValidatedClaims) (resolved : ResolvedEndpoint) (observed : Option SocketAddr) :
    Coordinator × Except CoordinatorError (PeerEntry × Bool) :=
  let identity := stampIdentity req claims
  match c.roster.lookup peerId with
  | none => (c, .error (.unknownPeer peerId))
  | some old =>
    let refreshed := refreshedEntry req identity resolved observed amb.now
    if claims.isSome ∧ identity.network ≠ old.network then
      match c.allocator.allocate identity.network with
      | .error e => (c, .error (.allocation e))
      | .ok (allocator, newIndex, newUla) =>
        if c.roster.values.any (fun e => e.ula == newUla && e.peerId != peerId) then
          ({ c with allocator := allocator }, .error (.ulaConflict newUla.toString))
        else
          let moved := fun e => rehomedEntry identity.network newUla newIndex (refreshed e)
          (({ c with allocator := allocator, roster := c.roster.modify peerId moved }.broadcast
            (.removed peerId.toString old.tags)).broadcast (.added (moved old).toInfo),
            .ok (moved old, true))
    else
      ({ c with roster := c.roster.modify peerId refreshed }.broadcast
        (.updated (refreshed old).toInfo), .ok (refreshed old, false))

def refreshExisting (c : Coordinator) (amb : Ambient) (peerId : Uuid) (req : RegisterRequest)
    (claims : Option ValidatedClaims) (resolved : ResolvedEndpoint) (observed : Option SocketAddr) :
    Coordinator × Except CoordinatorError PeerEntry :=
  match c.refreshEntry amb peerId req claims resolved observed with
  | (c, .error e) => (c, .error e)
  | (c, .ok (entry, rehome)) =>
    (if rehome then c.persistRoster (amb.saved peerId) else c, .ok entry)

def joinPeer (c : Coordinator) (amb : Ambient) (req : RegisterRequest)
    (claims : Option ValidatedClaims) (pubkey : List UInt8) (resolved : ResolvedEndpoint)
    (observed : Option SocketAddr) : Coordinator × Except CoordinatorError PeerEntry :=
  let identity := stampIdentity req claims
  match c.toRosterState.resolveUla identity.network req.requestedUla with
  | .error e => (c, .error e)
  | .ok (m, _, ula) =>
    match m.applyPeerJoined amb.now
        (joinEvent req identity resolved pubkey amb.nowV7 ula amb.nowUnixMicros) with
    | .error e => (c.withRosterState m, .error e)
    | .ok (m, entry) =>
      let entry := seedReflexive resolved observed entry
      let m := { m with roster := m.roster.modify amb.nowV7 (seedReflexive resolved observed) }
      ((c.withRosterState m).broadcast (.added entry.toInfo), .ok entry)

def registerAuthenticated (c : Coordinator) (amb : Ambient) (req : RegisterRequest)
    (bearer : Option String) (observed : Option SocketAddr) :
    Coordinator × Except CoordinatorError (PeerEntry × RegisterOutcome) :=
  match c.admission amb req bearer with
  | .error e => (c, .error e)
  | .ok (claims, pubkey) =>
    let resolved :=
      resolveListenEndpoint req.listenEndpoint observed req.wgListenPort req.relayOnly
    match c.byPubkey.lookup pubkey with
    | some existingId =>
      match c.refreshExisting amb existingId req claims resolved observed with
      | (c, .error e) => (c, .error e)
      | (c, .ok entry) => (c, .ok (entry, .existed))
    | none =>
      match (c.evictStaleUlaHolder amb req.requestedUla).joinPeer
          amb req claims pubkey resolved observed with
      | (c, .error e) => (c, .error e)
      | (c, .ok entry) => (c.persistRoster (amb.saved amb.nowV7), .ok (entry, .created))

end Coordinator

end ServiceMesh
