import ServiceMesh.Filter
import ServiceMesh.Machine

/-! The coordinator process as a machine: one operation at a time, each with the answer its
caller gets, and restarts from a saved snapshot in between. -/

namespace ServiceMesh

open StdNet (Ipv6Addr SocketAddr)

variable [Crates]

structure Registered where
  entry : PeerEntry
  outcome : RegisterOutcome
  response : RegisterResponse
deriving DecidableEq

namespace Coordinator

def registerHandler (c : Coordinator) (amb : Ambient) (req : RegisterRequest)
    (bearer : Option String) (observed : Option SocketAddr) :
    Coordinator × Except CoordinatorError Registered :=
  match c.registerAuthenticated amb req bearer observed with
  | (c, .error e) => (c, .error e)
  | (c, .ok (entry, outcome)) =>
    (c, .ok ⟨entry, outcome,
      { peerId := entry.peerId.toString
        ula := entry.ula.toString
        peers := c.visiblePeers entry.peerId entry.tags
        observedIp := observed.map (fun o => o.ip.toString)
        observedEndpoint := entry.listenEndpoint }⟩)

def recordReports (c : Coordinator) (peerId : Uuid) (req : HeartbeatRequest) :
    Coordinator × List NodeCommandDto :=
  (((c.recordPeerPaths peerId req.peerPaths).recordDataplaneHealth peerId
    req.dataplaneHealthy).ackCommands peerId req.executedCommandIds).drainCommands peerId

def heartbeatHandler (c : Coordinator) (amb : Ambient) (req : HeartbeatRequest)
    (observed : Option SocketAddr) : Coordinator × Except CoordinatorError HeartbeatResponse :=
  match Uuid.parseStr req.peerId with
  | .error e => (c, .error (.invalidPeerId e))
  | .ok peerId =>
    match c.heartbeat amb peerId ((observed.map SocketAddr.toString).getD "") req.wgListenPort
        req.hostedAppUlas req.softwareVersion req.meshVersion req.relayOnly with
    | (c, .error e) => (c, .error e)
    | (c, .ok entry) =>
      let (c, pendingCommands) := c.recordReports entry.peerId req
      (c, .ok
        { peers := c.visiblePeers entry.peerId entry.tags
          observedIp := observed.map (fun o => o.ip.toString)
          observedEndpoint := entry.listenEndpoint
          pendingCommands := pendingCommands })

def deregisterHandler (c : Coordinator) (amb : Ambient) (peerId : String) :
    Coordinator × Except CoordinatorError Unit :=
  match Uuid.parseStr peerId with
  | .error e => (c, .error (.invalidPeerId e))
  | .ok peerId => ((c.deregister amb peerId "client_deregister").1, .ok ())

def putPolicyHandler (c : Coordinator) (ifMatch : String) (newPolicy : Policy) :
    Coordinator × Except PolicyReplaceError Unit :=
  match c.policy.replace ifMatch newPolicy with
  | .error e => (c, .error e)
  | .ok policy => ({ c with policy := policy }.resyncAllPeers, .ok ())

def postDirectHandler (c : Coordinator) (a b : String) (direct pinToRelay : Option Bool) :
    Coordinator :=
  match Uuid.parseStr a, Uuid.parseStr b with
  | .ok a, .ok b =>
    let flags := match direct with
      | some on => c.directPairFlags.setDirect a b on
      | none => c.directPairFlags
    let flags := match pinToRelay with
      | some on => flags.setPinnedToRelay a b on
      | none => flags
    { c with directPairFlags := flags }
  | _, _ => c

def postCommandHandler (c : Coordinator) (peerId : String) (command : NodeCommandDto) :
    Coordinator :=
  match Uuid.parseStr peerId with
  | .error _ => c
  | .ok peerId => c.enqueueCommand peerId command

def streamViewer (c : Coordinator) (peerId : String) : Option (Uuid × List String) :=
  match Uuid.parseStr peerId with
  | .error _ => none
  | .ok id => (c.peerTags id).map (fun tags => (id, tags))

end Coordinator

structure RelaySocket where
  pubkey : List UInt8
  lane : Lane
  id : UInt64
  tx : Nat
deriving DecidableEq, Repr

structure Mesh where
  coordinator : Coordinator
  streams : DashMap Nat Stream
  sockets : DashMap Nat RelaySocket
  nextHandle : Nat

inductive Op
  | register (amb : Ambient) (req : RegisterRequest) (bearer : Option String)
      (observed : Option SocketAddr)
  | heartbeat (amb : Ambient) (req : HeartbeatRequest) (observed : Option SocketAddr)
  | deregister (amb : Ambient) (peerId : String)
  | sweep (amb : Ambient)
  | putPolicy (ifMatch : String) (newPolicy : Policy)
  | postDirect (a b : String) (direct pinToRelay : Option Bool)
  | setProactive (on : Bool)
  | postCommand (peerId : String) (command : NodeCommandDto)
  | openStream (peerId : Option String)
  | pollStream (handle : Nat)
  | closeStream (handle : Nat)
  | relayConnect (now : Nat) (pubkey : List UInt8) (lane : Option String)
  | relayUplink (now : Nat) (wallMicros : Int) (handle : Nat) (buf : List UInt8)
  | relayDeliver (handle : Nat)
  | relaySendEnd (handle : Nat)
  | relayDisconnect (handle : Nat)
  | reorderRoster (entries : List (Sigma fun _ : Uuid => PeerEntry))
  | restart (cfg : Config) (now : Nat) (file : Option Nat)

def Op.savesNothing : Op → Bool
  | .register .. | .deregister .. | .sweep .. | .restart .. => false
  | _ => true

inductive Reply
  | register (answer : Except CoordinatorError Registered)
  | heartbeat (answer : Except CoordinatorError HeartbeatResponse)
  | deregister (answer : Except CoordinatorError Unit)
  | putPolicy (answer : Except PolicyReplaceError Unit)
  | opened (handle : Nat) (frames : List PeerEvent)
  | refused
  | frame (frame : Option PeerEvent)
  | relayed (frame : Option (List UInt8))
  | done

namespace Mesh

def init (cfg : Config) : Mesh := ⟨Coordinator.new cfg (RosterState.fresh []), ∅, ∅, 0⟩

def openStream (s : Mesh) (viewer : Option (Uuid × List String)) : Mesh × Reply :=
  let (stream, frames) := Stream.opened s.coordinator viewer
  ({ s with streams := s.streams.insert s.nextHandle stream, nextHandle := s.nextHandle + 1 },
    .opened s.nextHandle frames)

def pollStream (s : Mesh) (handle : Nat) : Mesh × Reply :=
  match s.streams.lookup handle with
  | none => (s, .frame none)
  | some stream =>
    let (stream, frame) := stream.next s.coordinator
    ({ s with streams := s.streams.insert handle stream }, .frame frame)

def relayConnect (s : Mesh) (now : Nat) (pubkey : List UInt8) (lane : Option String) :
    Mesh × Reply :=
  if pubkey.length = 32 ∧ s.coordinator.isRegisteredPubkey pubkey then
    let lane := parseLane lane
    let (relay, id) := s.coordinator.relay.register now pubkey lane (laneChannelCap lane)
    ({ s with
      coordinator := { s.coordinator with relay := relay }
      sockets := s.sockets.insert s.nextHandle
        ⟨pubkey, lane, id, s.coordinator.relay.channels.length⟩
      nextHandle := s.nextHandle + 1 }, .opened s.nextHandle [])
  else (s, .refused)

def withSocket (s : Mesh) (handle : Nat) (f : RelaySocket → Mesh × Reply) : Mesh × Reply :=
  match s.sockets.lookup handle with
  | none => (s, .done)
  | some socket => f socket

def withCoordinator (s : Mesh) (c : Coordinator) : Mesh := { s with coordinator := c }

def reorderRoster (s : Mesh) (entries : List (Sigma fun _ : Uuid => PeerEntry)) : Mesh :=
  if h : entries.Perm s.coordinator.roster.entries then
    s.withCoordinator { s.coordinator with roster := s.coordinator.roster.reorder entries h }
  else s

def step (s : Mesh) : Op → Mesh × Reply
  | .register amb req bearer observed =>
    let (c, answer) := s.coordinator.registerHandler amb req bearer observed
    (s.withCoordinator c, .register answer)
  | .heartbeat amb req observed =>
    let (c, answer) := s.coordinator.heartbeatHandler amb req observed
    (s.withCoordinator c, .heartbeat answer)
  | .deregister amb peerId =>
    let (c, answer) := s.coordinator.deregisterHandler amb peerId
    (s.withCoordinator c, .deregister answer)
  | .sweep amb => (s.withCoordinator (s.coordinator.sweepOnce amb), .done)
  | .putPolicy ifMatch newPolicy =>
    let (c, answer) := s.coordinator.putPolicyHandler ifMatch newPolicy
    (s.withCoordinator c, .putPolicy answer)
  | .postDirect a b direct pinToRelay =>
    (s.withCoordinator (s.coordinator.postDirectHandler a b direct pinToRelay), .done)
  | .setProactive on => (s.withCoordinator { s.coordinator with proactive := on }, .done)
  | .postCommand peerId command =>
    (s.withCoordinator (s.coordinator.postCommandHandler peerId command), .done)
  | .openStream none => s.openStream none
  | .openStream (some peerId) =>
    match s.coordinator.streamViewer peerId with
    | none => (s, .refused)
    | some viewer => s.openStream (some viewer)
  | .pollStream handle => s.pollStream handle
  | .closeStream handle => ({ s with streams := s.streams.erase handle }, .done)
  | .relayConnect now pubkey lane => s.relayConnect now pubkey lane
  | .relayUplink now wallMicros handle buf =>
    s.withSocket handle fun socket =>
      let (c, frame) := s.coordinator.routeUplink now wallMicros socket.pubkey buf
      (s.withCoordinator c, .relayed frame)
  | .relayDeliver handle =>
    s.withSocket handle fun socket =>
      let (relay, frame) := s.coordinator.relay.deliver socket.tx
      (s.withCoordinator { s.coordinator with relay := relay }, .relayed frame)
  | .relaySendEnd handle =>
    s.withSocket handle fun socket =>
      (s.withCoordinator { s.coordinator with relay := s.coordinator.relay.close socket.tx }, .done)
  | .relayDisconnect handle =>
    s.withSocket handle fun socket =>
      let relay := (s.coordinator.relay.unregister socket.pubkey socket.lane socket.id).close
        socket.tx
      ({ s with
        coordinator := { s.coordinator with relay := relay }
        sockets := s.sockets.erase handle }, .done)
  | .reorderRoster entries => (s.reorderRoster entries, .done)
  | .restart cfg now file =>
    (⟨s.coordinator.restart cfg now file, ∅, ∅, s.nextHandle⟩, .done)

inductive RelayLeaves (s : Mesh) : Op → RelayRegistry → Prop
  | connect (now : Nat) (lane : Option String) {pubkey : List UInt8}
      (hreg : s.coordinator.isRegisteredPubkey pubkey = true) :
      RelayLeaves s (.relayConnect now pubkey lane)
        (s.coordinator.relay.register now pubkey (parseLane lane)
          (laneChannelCap (parseLane lane))).1
  | deliver (handle tx : Nat) :
      RelayLeaves s (.relayDeliver handle) (s.coordinator.relay.deliver tx).1
  | sendEnd (handle tx : Nat) : RelayLeaves s (.relaySendEnd handle) (s.coordinator.relay.close tx)
  | disconnect (handle : Nat) (socket : RelaySocket) :
      RelayLeaves s (.relayDisconnect handle)
        ((s.coordinator.relay.unregister socket.pubkey socket.lane socket.id).close socket.tx)

/-- What an operation makes of the coordinator. It stays as it was where a request is turned away
and where only streams are concerned. -/
inductive Leaves (s : Mesh) : Op → Coordinator → Prop
  | same (op : Op) : Leaves s op s.coordinator
  | register (amb : Ambient) (req : RegisterRequest) (bearer : Option String)
      (observed : Option SocketAddr) : Leaves s (.register amb req bearer observed)
        (s.coordinator.registerHandler amb req bearer observed).1
  | heartbeat (amb : Ambient) (req : HeartbeatRequest) (observed : Option SocketAddr) :
      Leaves s (.heartbeat amb req observed) (s.coordinator.heartbeatHandler amb req observed).1
  | deregister (amb : Ambient) {peerId : String} {id : Uuid}
      (hid : Uuid.parseStr peerId = .ok id) :
      Leaves s (.deregister amb peerId) (s.coordinator.deregister amb id "client_deregister").1
  | sweep (amb : Ambient) : Leaves s (.sweep amb) (s.coordinator.sweepOnce amb)
  | policy (ifMatch : String) (newPolicy : Policy) (policy : PolicyStore) :
      Leaves s (.putPolicy ifMatch newPolicy)
        ({ s.coordinator with policy := policy } : Coordinator).resyncAllPeers
  | flags {a b : String} {direct pinToRelay : Option Bool} (flags : DirectPairFlags)
      (h : s.coordinator.postDirectHandler a b direct pinToRelay =
        { s.coordinator with directPairFlags := flags }) :
      Leaves s (.postDirect a b direct pinToRelay) { s.coordinator with directPairFlags := flags }
  | proactive (on : Bool) : Leaves s (.setProactive on) { s.coordinator with proactive := on }
  | command (peerId : String) (command : NodeCommandDto) (id : Uuid) :
      Leaves s (.postCommand peerId command) (s.coordinator.enqueueCommand id command)
  | relay {op : Op} {relay : RelayRegistry} (h : RelayLeaves s op relay) :
      Leaves s op { s.coordinator with relay := relay }
  | uplink (now : Nat) (wallMicros : Int) (handle : Nat) (buf : List UInt8)
      (socket : RelaySocket) : Leaves s (.relayUplink now wallMicros handle buf)
        (s.coordinator.routeUplink now wallMicros socket.pubkey buf).1
  | reorder {entries : List (Sigma fun _ : Uuid => PeerEntry)}
      (h : entries.Perm s.coordinator.roster.entries) : Leaves s (.reorderRoster entries)
        { s.coordinator with roster := s.coordinator.roster.reorder entries h }
  | restart (cfg : Config) (now : Nat) (file : Option Nat) :
      Leaves s (.restart cfg now file) (s.coordinator.restart cfg now file)

theorem leaves (s : Mesh) (op : Op) : Leaves s op (s.step op).1.coordinator := by
  cases op with
  | register amb req bearer observed => exact .register amb req bearer observed
  | heartbeat amb req observed => exact .heartbeat amb req observed
  | deregister amb peerId =>
    simp only [step, Coordinator.deregisterHandler]
    split
    · exact .same _
    · rename_i hid
      exact .deregister amb hid
  | sweep amb => exact .sweep amb
  | putPolicy ifMatch newPolicy =>
    simp only [step, Coordinator.putPolicyHandler]
    split
    · exact .same _
    · exact .policy ifMatch newPolicy _
  | postDirect a b direct pinToRelay =>
    have hflags : ∃ flags, s.coordinator.postDirectHandler a b direct pinToRelay =
        { s.coordinator with directPairFlags := flags } := by
      unfold Coordinator.postDirectHandler
      split
      · exact ⟨_, rfl⟩
      · exact ⟨s.coordinator.directPairFlags, rfl⟩
    obtain ⟨flags, hflags⟩ := hflags
    simp only [step, hflags]
    exact .flags flags hflags
  | setProactive on => exact .proactive on
  | postCommand peerId command =>
    simp only [step, Coordinator.postCommandHandler]
    split
    · exact .same _
    · exact .command peerId command _
  | openStream peerId =>
    cases peerId with
    | none => exact .same _
    | some peerId =>
      simp only [step]
      split <;> exact .same _
  | pollStream handle =>
    simp only [step, pollStream]
    split <;> exact .same _
  | closeStream handle => exact .same _
  | relayConnect now pubkey lane =>
    simp only [step, relayConnect]
    split
    · rename_i hok
      exact .relay (.connect now lane hok.2)
    · exact .same _
  | relayUplink now wallMicros handle buf =>
    simp only [step, withSocket]
    split
    · exact .same _
    · exact .uplink now wallMicros handle buf _
  | relayDeliver handle =>
    simp only [step, withSocket]
    split
    · exact .same _
    · exact .relay (.deliver handle _)
  | relaySendEnd handle =>
    simp only [step, withSocket]
    split
    · exact .same _
    · exact .relay (.sendEnd handle _)
  | relayDisconnect handle =>
    simp only [step, withSocket]
    split
    · exact .same _
    · exact .relay (.disconnect handle _)
  | reorderRoster entries =>
    simp only [step, reorderRoster]
    split
    · exact .reorder _
    · exact .same _
  | restart cfg now file => exact .restart cfg now file

end Mesh

def Reply.grants (reply : Reply) (peerId : Uuid) (ula : Ipv6Addr) : Prop :=
  ∃ r, reply = .register (.ok r) ∧ r.entry.peerId = peerId ∧ r.entry.ula = ula

def Granted (tr : List (Op × Reply)) (peerId : Uuid) (ula : Ipv6Addr) : Prop :=
  ∃ x ∈ tr, x.2.grants peerId ula

/-- `Uuid::now_v7` never repeats: a drawn id was not given to a peer before. -/
def Op.Fresh (tr : List (Op × Reply)) : Op → Prop
  | .register amb _ _ _ => ∀ ula, ¬ Granted tr amb.nowV7 ula
  | _ => True

def mesh (cfg : Config) : Machine Mesh Op Reply where
  init := Mesh.init cfg
  step := Mesh.step
  admits tr op := op.Fresh tr

theorem reach_step {cfg : Config} {tr : List (Op × Reply)} {s : Mesh} (h : (mesh cfg).Reach tr s)
    (op : Op) (hfresh : op.Fresh tr) :
    (mesh cfg).Reach ((op, (s.step op).2) :: tr) (s.step op).1 :=
  .step op h hfresh trivial

def Reply.grantedId : Reply → Option Uuid
  | .register (.ok r) => some r.entry.peerId
  | _ => none

omit [Crates] in
theorem Reply.grantedId_eq_some_iff {reply : Reply} {id : Uuid} :
    reply.grantedId = some id ↔ ∃ ula, reply.grants id ula := by
  constructor
  · intro h
    unfold Reply.grantedId at h
    split at h
    · rename_i r
      exact ⟨r.entry.ula, r, rfl, Option.some.inj h, rfl⟩
    · simp at h
  · rintro ⟨ula, r, rfl, rfl, -⟩
    rfl

omit [Crates] in
theorem forall_grantedId_ne_iff {tr : List (Op × Reply)} {id : Uuid} :
    (∀ x ∈ tr, x.2.grantedId ≠ some id) ↔ ∀ ula, ¬ Granted tr id ula := by
  constructor
  · rintro h ula ⟨x, hx, hg⟩
    exact h x hx (Reply.grantedId_eq_some_iff.mpr ⟨ula, hg⟩)
  · intro h x hx hid
    obtain ⟨ula, hg⟩ := Reply.grantedId_eq_some_iff.mp hid
    exact h ula ⟨x, hx, hg⟩

instance (tr : List (Op × Reply)) : (op : Op) → Decidable (op.Fresh tr)
  | .register amb _ _ _ =>
    decidable_of_iff (∀ x ∈ tr, x.2.grantedId ≠ some amb.nowV7) forall_grantedId_ne_iff
  | .heartbeat .. | .deregister .. | .sweep .. | .putPolicy .. | .postDirect ..
  | .setProactive .. | .postCommand .. | .openStream .. | .pollStream .. | .closeStream ..
  | .relayConnect .. | .relayUplink .. | .relayDeliver .. | .relaySendEnd ..
  | .relayDisconnect .. | .reorderRoster .. | .restart .. => .isTrue trivial

instance (cfg : Config) (tr : List (Op × Reply)) (op : Op) :
    Decidable ((mesh cfg).admits tr op) :=
  inferInstanceAs (Decidable (op.Fresh tr))

def traceAfter (cfg : Config) (ops : List Op) : List (Op × Reply) :=
  ((mesh cfg).exec [] (Mesh.init cfg) ops).1

def stateAfter (cfg : Config) (ops : List Op) : Mesh :=
  ((mesh cfg).exec [] (Mesh.init cfg) ops).2

theorem mem_traceAfter {cfg : Config} {ops : List Op} {x : Op × Reply}
    (h : x ∈ traceAfter cfg ops) : x.1 ∈ ops := by
  simpa using Machine.mem_exec h

theorem reach_of_admissible {cfg : Config} {ops : List Op}
    (h : (mesh cfg).Admissible (fun _ _ => True) [] (Mesh.init cfg) ops) :
    (mesh cfg).Reach (traceAfter cfg ops) (stateAfter cfg ops) :=
  Machine.Run.start.exec h

end ServiceMesh
