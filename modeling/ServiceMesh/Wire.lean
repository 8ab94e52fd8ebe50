import ServiceMesh.Crates
import ServiceMesh.KeyedMap
import ServiceMesh.Policy

/-! Requests, responses, roster events and stream frames of the coordinator's API, with the
fields and texts its handlers read and write. -/

namespace ServiceMesh

/-- Concurrent and plain hash maps alike; the order of the entries is the iteration order. -/
abbrev DashMap (K V : Type) := AList (fun _ : K => V)

structure RegisterRequest where
  wgPublicKey : String
  listenEndpoint : Option String
  wgListenPort : Option UInt16
  displayName : String
  network : String
  tags : List String
  hostedAppUlas : List String
  kind : String
  parent : Option String
  appUuid : Option String
  requestedUla : Option String
  softwareVersion : Option String
  meshVersion : Option String
  relayOnly : Bool
deriving DecidableEq, Repr

structure PeerPathDto where
  peerId : String
  direct : Bool
  lastRxAgeMs : UInt64
  lastHandshakeDirect : Option Bool
  lastHandshakeAgeMs : Option UInt64
  handshakeRxTotal : UInt64
deriving DecidableEq, Repr

structure HeartbeatRequest where
  peerId : String
  wgListenPort : Option UInt16
  hostedAppUlas : List String
  softwareVersion : Option String
  meshVersion : Option String
  relayOnly : Bool
  peerPaths : List PeerPathDto
  dataplaneHealthy : Bool
  executedCommandIds : List String
deriving DecidableEq, Repr

structure NodeCommandDto where
  commandId : String
  verb : String
  peerId : String
  nonce : String
  issuedAt : Int
  expiry : Int
  signature : String
deriving DecidableEq, Repr

structure PeerInfo where
  peerId : String
  wgPublicKey : String
  ula : String
  listenEndpoint : Option String
  displayName : String
  network : String
  tags : List String
  hostedAppUlas : List String
  joinedAtMicros : Int
  kind : String
  parent : Option String
  appUuid : Option String
  softwareVersion : Option String
  meshVersion : Option String
  relayOnly : Bool
  connectivity : Option String
  connectivityAgeMs : Option UInt64
deriving DecidableEq, Repr

structure RegisterResponse where
  peerId : String
  ula : String
  peers : List PeerInfo
  observedIp : Option String
  observedEndpoint : Option String
deriving DecidableEq, Repr

structure HeartbeatResponse where
  peers : List PeerInfo
  observedIp : Option String
  observedEndpoint : Option String
  pendingCommands : List NodeCommandDto
deriving DecidableEq, Repr

structure PeerJoined where
  peerId : String
  wgPublicKey : List UInt8
  ula : String
  listenEndpoint : String
  displayName : String
  network : String
  tags : List String
  hostedAppUlas : List String
  joinedAtMicros : Int
  kind : String
  parent : Option String
  appUuid : Option String
  softwareVersion : Option String
  meshVersion : Option String
  relayOnly : Bool
deriving DecidableEq, Repr

structure PeerHeartbeat where
  peerId : String
  observedExternal : String
  hostedAppUlas : List String
  softwareVersion : Option String
  meshVersion : Option String
  atMicros : Int
deriving DecidableEq, Repr

structure PeerLeft where
  peerId : String
  reason : String
  leftAtMicros : Int
deriving DecidableEq, Repr

structure HolePunchInitiate where
  initiatorPeerId : String
  targetPeerId : String
  targetExternalEndpoint : String
  timestampMicros : Int
deriving DecidableEq, Repr

structure RelayWake where
  recipientPeerId : String
  sourceUla : String
  timestampMicros : Int
deriving DecidableEq, Repr

inductive PeerEvent
  | added (info : PeerInfo)
  | updated (info : PeerInfo)
  | removed (peerId : String) (tags : List String)
  | holePunch (hp : HolePunchInitiate)
  | relayWake (rw : RelayWake)
deriving DecidableEq, Repr

structure ValidatedClaims where
  valid : Bool
  subject : String
  network : String
  tags : List String
  requestedUlas : List String
  kind : String
  exp : Int
deriving DecidableEq, Repr

/-- What came back from the auth service: nothing, or a response with its status, the
excerpt of its body that an error quotes, and the body as decoded. -/
inductive AuthReply
  | unreachable (e : String)
  | response (status : UInt16) (excerpt : String) (body : Except String ValidatedClaims)
deriving DecidableEq, Repr

inductive ValidationError
  | transport (e : String)
  | status (status : UInt16) (body : String)
  | decode (e : String)
  | wrongKind (kind : String)
deriving DecidableEq, Repr

def validateToken : AuthReply → Except ValidationError ValidatedClaims
  | .unreachable e => .error (.transport e)
  | .response status excerpt body =>
    if status < 200 ∨ 300 ≤ status then .error (.status status excerpt)
    else
      match body with
      | .error e => .error (.decode e)
      | .ok claims =>
        if claims.valid && claims.kind != "" && claims.kind != "join" then
          .error (.wrongKind claims.kind)
        else .ok claims

inductive CoordinatorError
  | invalidPeerId (e : String)
  | invalidPubkey (len : Nat)
  | pubkeyDecode (e : String)
  | invalidRequestedUla (ula : String)
  | allocation (e : AllocError)
  | unknownPeer (peerId : Uuid)
  | unauthorized (reason : String)
  | ulaConflict (ula : String)
  | ulaNetworkMismatch (ula network : String)
deriving DecidableEq, Repr

def CoordinatorError.toString [Crates] : CoordinatorError → String
  | .invalidPeerId e => "invalid peer id: " ++ e
  | .invalidPubkey len =>
    "invalid wireguard public key (expected 32 bytes, got " ++ len.repr ++ ")"
  | .pubkeyDecode e => "invalid base64 in wg_public_key: " ++ e
  | .invalidRequestedUla ula => "invalid requested ULA: " ++ ula
  | .allocation e => e.toString
  | .unknownPeer peerId => "peer not found: " ++ peerId.toString
  | .unauthorized reason => "unauthorized join: " ++ reason
  | .ulaConflict ula => "requested ULA already claimed by another peer: " ++ ula
  | .ulaNetworkMismatch ula network =>
    "requested ULA " ++ ula ++ " is outside network `" ++ network ++ "`'s address block"

def CoordinatorError.status : CoordinatorError → Nat
  | .invalidPubkey _ | .pubkeyDecode _ | .invalidPeerId _ | .invalidRequestedUla _ => 400
  | .unknownPeer _ => 404
  | .allocation _ => 503
  | .unauthorized _ => 401
  | .ulaConflict _ | .ulaNetworkMismatch _ _ => 409

end ServiceMesh
