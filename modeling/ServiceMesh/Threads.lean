import ServiceMesh.Mesh

/-! The operations cut into the single roster accesses and broadcasts they are made of. Threads
take these steps in any order, and only registers exclude each other. A thread that runs alone
does what the sequential machine does in one step. -/

namespace ServiceMesh

open StdNet (Ipv6Addr SocketAddr)

section

variable [Crates]

structure Enrolment where
  req : RegisterRequest
  claims : Option ValidatedClaims
  pubkey : List UInt8
  observed : Option SocketAddr

namespace Enrolment

def resolved (r : Enrolment) : ResolvedEndpoint :=
  resolveListenEndpoint r.req.listenEndpoint r.observed r.req.wgListenPort r.req.relayOnly

def identity (r : Enrolment) : NodeIdentity := stampIdentity r.req r.claims

end Enrolment

inductive EnrolPc
  | lock
  | findExisting
  | readNetwork (peerId : Uuid)
  | allocate (peerId : Uuid)
  | checkHeld (peerId : Uuid) (newIndex : UInt16) (newUla : Ipv6Addr)
  | refresh (peerId : Uuid) (realloc : Option (UInt16 × Ipv6Addr))
  | announceMove (peerId : Uuid) (oldTags : List String) (entry : PeerEntry)
  | announceMoved (peerId : Uuid) (entry : PeerEntry)
  | persistMoved (peerId : Uuid) (entry : PeerEntry)
  | announceRefreshed (peerId : Uuid) (entry : PeerEntry)
  | findHolder
  | checkStale (holderId : Uuid)
  | readTags (holderId : Uuid) (leftAt : Int)
  | announceEvicted (holderId : Uuid) (tags : List String) (leftAt : Int)
  | evict (holderId : Uuid) (leftAt : Int)
  | persistEvicted (holderId : Uuid)
  | resolveUla
  | checkConflict (peerId : Uuid) (event : PeerJoined)
  | insert (peerId : Uuid) (ula : Ipv6Addr) (event : PeerJoined)
  | seed (peerId : Uuid) (entry : PeerEntry)
  | announceJoined (peerId : Uuid) (entry : PeerEntry)
  | persistJoined (peerId : Uuid) (entry : PeerEntry)
  | unlock (answer : Except CoordinatorError (PeerEntry × RegisterOutcome))
  | listVisible (entry : PeerEntry) (outcome : RegisterOutcome)

structure Beat where
  peerId : Uuid
  req : HeartbeatRequest
  observed : Option SocketAddr

def Beat.observedExternal (b : Beat) : String := (b.observed.map SocketAddr.toString).getD ""

inductive BeatPc
  | find
  | apply
  | setRelayOnly
  | roam
  | read
  | announce (snapshot : PeerEntry)
  | listCandidates (snapshot : PeerEntry)
  | punch (snapshot : PeerEntry) (now : Int) (candidates : List PeerEntry)
  | recordPaths (snapshot : PeerEntry)
  | recordHealth (snapshot : PeerEntry)
  | ack (snapshot : PeerEntry)
  | drain (snapshot : PeerEntry)
  | listVisible (snapshot : PeerEntry) (pendingCommands : List NodeCommandDto)

inductive LeaveReason
  | client
  | timeout
deriving DecidableEq, Repr

def LeaveReason.text : LeaveReason → String
  | .client => "client_deregister"
  | .timeout => "heartbeat_timeout"

inductive LeavePc
  | find
  | remove (tags : List String) (leftAt : Int)
  | announce (tags : List String)
  | persist

inductive StreamPc
  | findViewer (peerId : String)
  | subscribe (viewer : Option (Uuid × List String))
  | snapshot (viewer : Option (Uuid × List String)) (position : Nat)
  | attach (viewer : Option (Uuid × List String)) (position : Nat) (bootstrap : List PeerInfo)

/-- Operations that make at most one roster access and broadcast no peer. -/
def Op.isSingle : Op → Bool
  | .register .. | .heartbeat .. | .deregister .. | .sweep .. | .putPolicy .. | .openStream ..
  | .restart .. => false
  | _ => true

inductive Thread
  | arrive (req : RegisterRequest) (bearer : Option String) (observed : Option SocketAddr)
  | enrol (r : Enrolment) (pc : EnrolPc)
  | beat (b : Beat) (pc : BeatPc)
  | leave (reason : LeaveReason) (peerId : Uuid) (pc : LeavePc) (rest : List Uuid) (reply : Reply)
  | reap
  | listStale
  | replacePolicy (ifMatch : String) (newPolicy : Policy)
  | listPeers
  | resync (peers : List PeerInfo)
  | stream (pc : StreamPc)
  | single (op : Op) (h : op.isSingle = true)
  | done (reply : Reply)

def Thread.leaveAll (reason : LeaveReason) (reply : Reply) : List Uuid → Thread
  | [] => .done reply
  | peerId :: rest => .leave reason peerId .find rest reply

structure Shared where
  mesh : Mesh
  registrationLock : Bool

namespace Shared

abbrev coordinator (s : Shared) : Coordinator := s.mesh.coordinator

def withCoordinator (s : Shared) (c : Coordinator) : Shared :=
  { s with mesh := s.mesh.withCoordinator c }

def modifyPeer (s : Shared) (peerId : Uuid) (f : PeerEntry → PeerEntry) : Shared :=
  s.withCoordinator { s.coordinator with roster := s.coordinator.roster.modify peerId f }

def broadcast (s : Shared) (event : PeerEvent) : Shared :=
  s.withCoordinator (s.coordinator.broadcast event)

end Shared

def Enrolment.refreshed (r : Enrolment) (realloc : Option (UInt16 × Ipv6Addr)) (now : Nat)
    (e : PeerEntry) : PeerEntry :=
  let e := refreshedEntry r.req r.identity r.resolved r.observed now e
  match realloc with
  | none => e
  | some (newIndex, newUla) => rehomedEntry r.identity.network newUla newIndex e

def EnrolPc.step (r : Enrolment) (amb : Ambient) (s : Shared) : EnrolPc → Shared × Thread
  | .lock =>
    if s.registrationLock then (s, .enrol r .lock)
    else ({ s with registrationLock := true }, .enrol r .findExisting)
  | .findExisting =>
    match s.coordinator.byPubkey.lookup r.pubkey with
    | some existingId => (s, .enrol r (.readNetwork existingId))
    | none => (s, .enrol r .findHolder)
  | .readNetwork peerId =>
    match s.coordinator.roster.lookup peerId with
    | none => (s, .enrol r (.unlock (.error (.unknownPeer peerId))))
    | some old =>
      if r.claims.isSome ∧ r.identity.network ≠ old.network then (s, .enrol r (.allocate peerId))
      else (s, .enrol r (.refresh peerId none))
  | .allocate peerId =>
    match s.coordinator.allocator.allocate r.identity.network with
    | .error e => (s, .enrol r (.unlock (.error (.allocation e))))
    | .ok (allocator, newIndex, newUla) =>
      (s.withCoordinator { s.coordinator with allocator := allocator },
        .enrol r (.checkHeld peerId newIndex newUla))
  | .checkHeld peerId newIndex newUla =>
    if s.coordinator.roster.values.any (fun e => e.ula == newUla && e.peerId != peerId) then
      (s, .enrol r (.unlock (.error (.ulaConflict newUla.toString))))
    else (s, .enrol r (.refresh peerId (some (newIndex, newUla))))
  | .refresh peerId realloc =>
    match s.coordinator.roster.lookup peerId with
    | none => (s, .enrol r (.unlock (.error (.unknownPeer peerId))))
    | some old =>
      let refreshed := r.refreshed realloc amb.now
      (s.modifyPeer peerId refreshed,
        .enrol r (if realloc.isSome then .announceMove peerId old.tags (refreshed old)
          else .announceRefreshed peerId (refreshed old)))
  | .announceMove peerId oldTags entry =>
    (s.broadcast (.removed peerId.toString oldTags), .enrol r (.announceMoved peerId entry))
  | .announceMoved peerId entry =>
    (s.broadcast (.added entry.toInfo), .enrol r (.persistMoved peerId entry))
  | .persistMoved peerId entry =>
    (s.withCoordinator (s.coordinator.persistRoster (amb.saved peerId)),
      .enrol r (.unlock (.ok (entry, .existed))))
  | .announceRefreshed _ entry =>
    (s.broadcast (.updated entry.toInfo), .enrol r (.unlock (.ok (entry, .existed))))
  | .findHolder =>
    match r.req.requestedUla.bind Ipv6Addr.parse with
    | none => (s, .enrol r .resolveUla)
    | some addr =>
      match s.coordinator.roster.values.find? (fun e => e.ula == addr) with
      | none => (s, .enrol r .resolveUla)
      | some holder => (s, .enrol r (.checkStale holder.peerId))
  | .checkStale holderId =>
    if (s.coordinator.roster.lookup holderId).any
        (fun e => decide (amb.now - e.lastHeartbeat > s.coordinator.heartbeatTimeout)) then
      (s, .enrol r (.readTags holderId amb.nowUnixMicros))
    else (s, .enrol r .resolveUla)
  | .readTags holderId leftAt =>
    let tags := ((s.coordinator.roster.lookup holderId).map PeerEntry.tags).getD []
    (s, .enrol r (.announceEvicted holderId tags leftAt))
  | .announceEvicted holderId tags leftAt =>
    (s.broadcast (.removed holderId.toString tags), .enrol r (.evict holderId leftAt))
  | .evict holderId leftAt =>
    (s.withCoordinator (s.coordinator.applyPeerLeft
      ⟨holderId.toString, "evicted_stale_ula_holder", leftAt⟩), .enrol r (.persistEvicted holderId))
  | .persistEvicted holderId =>
    (s.withCoordinator (s.coordinator.persistRoster (amb.saved holderId)), .enrol r .resolveUla)
  | .resolveUla =>
    match s.coordinator.toRosterState.resolveUla r.identity.network r.req.requestedUla with
    | .error e => (s, .enrol r (.unlock (.error e)))
    | .ok (m, _, ula) =>
      (s.withCoordinator (s.coordinator.withRosterState m),
        .enrol r (.checkConflict amb.nowV7
          (joinEvent r.req r.identity r.resolved r.pubkey amb.nowV7 ula amb.nowUnixMicros)))
  | .checkConflict peerId event =>
    match Uuid.parseStr event.peerId with
    | .error e => (s, .enrol r (.unlock (.error (.invalidPeerId e))))
    | .ok joinedId =>
      match Ipv6Addr.parse event.ula with
      | none => (s, .enrol r (.unlock (.error (.invalidPeerId StdNet.addrParseErrorText))))
      | some ula =>
        if s.coordinator.roster.values.any
            (fun existing => existing.ula == ula && existing.peerId != joinedId) then
          (s, .enrol r (.unlock (.error (.ulaConflict ula.toString))))
        else (s, .enrol r (.insert peerId ula event))
  | .insert peerId ula event =>
    let entry := RosterState.joinedEntry event peerId ula amb.now
    (s.withCoordinator (s.coordinator.withRosterState (s.coordinator.toRosterState.insertEntry entry)),
      .enrol r (.seed peerId (seedReflexive r.resolved r.observed entry)))
  | .seed peerId entry =>
    (s.modifyPeer peerId (seedReflexive r.resolved r.observed),
      .enrol r (.announceJoined peerId entry))
  | .announceJoined peerId entry =>
    (s.broadcast (.added entry.toInfo), .enrol r (.persistJoined peerId entry))
  | .persistJoined peerId entry =>
    (s.withCoordinator (s.coordinator.persistRoster (amb.saved peerId)),
      .enrol r (.unlock (.ok (entry, .created))))
  | .unlock answer =>
    ({ s with registrationLock := false },
      match answer with
      | .error e => .done (.register (.error e))
      | .ok (entry, outcome) => .enrol r (.listVisible entry outcome))
  | .listVisible entry outcome =>
    (s, .done (.register (.ok ⟨entry, outcome,
      { peerId := entry.peerId.toString
        ula := entry.ula.toString
        peers := s.coordinator.visiblePeers entry.peerId entry.tags
        observedIp := r.observed.map (fun o => o.ip.toString)
        observedEndpoint := entry.listenEndpoint }⟩)))

def BeatPc.step (b : Beat) (amb : Ambient) (s : Shared) : BeatPc → Shared × Thread
  | .find =>
    if (s.coordinator.roster.lookup b.peerId).isNone then
      (s, .done (.heartbeat (.error (.unknownPeer b.peerId))))
    else (s, .beat b .apply)
  | .apply =>
    (s.withCoordinator (s.coordinator.withRosterState (s.coordinator.toRosterState.applyPeerHeartbeat
      amb.now ⟨b.peerId.toString, b.observedExternal, b.req.hostedAppUlas, b.req.softwareVersion,
        b.req.meshVersion, amb.nowUnixMicros⟩)), .beat b .setRelayOnly)
  | .setRelayOnly =>
    (s.modifyPeer b.peerId (fun e => { e with relayOnly := b.req.relayOnly }), .beat b .roam)
  | .roam =>
    (s.withCoordinator (s.coordinator.refreshReflexiveEndpoint b.peerId b.observedExternal
      b.req.wgListenPort b.req.relayOnly), .beat b .read)
  | .read =>
    match s.coordinator.roster.lookup b.peerId with
    | none => (s, .done (.heartbeat (.error (.unknownPeer b.peerId))))
    | some snapshot => (s, .beat b (.announce snapshot))
  | .announce snapshot =>
    (s.broadcast (.updated snapshot.toInfo), .beat b (.listCandidates snapshot))
  | .listCandidates snapshot =>
    (s, .beat b (.punch snapshot amb.nowUnixMicros
      (s.coordinator.roster.values.filter (fun e => e.peerId != snapshot.peerId))))
  | .punch snapshot _ [] => (s, .beat b (.recordPaths snapshot))
  | .punch snapshot now (candidate :: candidates) =>
    (s.withCoordinator (Coordinator.tryEmitHolepunchPair now snapshot s.coordinator candidate),
      .beat b (.punch snapshot now candidates))
  | .recordPaths snapshot =>
    (s.withCoordinator (s.coordinator.recordPeerPaths snapshot.peerId b.req.peerPaths),
      .beat b (.recordHealth snapshot))
  | .recordHealth snapshot =>
    (s.withCoordinator (s.coordinator.recordDataplaneHealth snapshot.peerId b.req.dataplaneHealthy),
      .beat b (.ack snapshot))
  | .ack snapshot =>
    (s.withCoordinator (s.coordinator.ackCommands snapshot.peerId b.req.executedCommandIds),
      .beat b (.drain snapshot))
  | .drain snapshot =>
    let (c, pendingCommands) := s.coordinator.drainCommands snapshot.peerId
    (s.withCoordinator c, .beat b (.listVisible snapshot pendingCommands))
  | .listVisible snapshot pendingCommands =>
    (s, .done (.heartbeat (.ok
      { peers := s.coordinator.visiblePeers snapshot.peerId snapshot.tags
        observedIp := b.observed.map (fun o => o.ip.toString)
        observedEndpoint := snapshot.listenEndpoint
        pendingCommands := pendingCommands })))

def LeavePc.step (reason : LeaveReason) (peerId : Uuid) (rest : List Uuid) (reply : Reply)
    (amb : Ambient) (s : Shared) : LeavePc → Shared × Thread
  | .find =>
    match s.coordinator.roster.lookup peerId with
    | none => (s, .leaveAll reason reply rest)
    | some e => (s, .leave reason peerId (.remove e.tags amb.nowUnixMicros) rest reply)
  | .remove tags leftAt =>
    (s.withCoordinator (s.coordinator.applyPeerLeft ⟨peerId.toString, reason.text, leftAt⟩),
      .leave reason peerId (.announce tags) rest reply)
  | .announce tags =>
    (s.broadcast (.removed peerId.toString tags), .leave reason peerId .persist rest reply)
  | .persist =>
    (s.withCoordinator (s.coordinator.persistRoster (amb.saved peerId)),
      .leaveAll reason reply rest)

def Stream.attached (c : Coordinator) (viewer : Option (Uuid × List String)) (position : Nat)
    (bootstrap : List PeerInfo) : Stream × List PeerEvent :=
  match viewer with
  | none => (⟨none, position⟩, bootstrap.map PeerEvent.added)
  | some (viewerId, viewerTags) =>
    let (f, frames) :=
      (ViewerFilter.mk viewerId viewerTags []).applyAll c (bootstrap.map PeerEvent.added)
    (⟨some f, position⟩, frames)

def StreamPc.step (s : Shared) : StreamPc → Shared × Thread
  | .findViewer peerId =>
    match s.coordinator.streamViewer peerId with
    | none => (s, .done .refused)
    | some viewer => (s, .stream (.subscribe (some viewer)))
  | .subscribe viewer => (s, .stream (.snapshot viewer s.coordinator.broadcaster.length))
  | .snapshot viewer position => (s, .stream (.attach viewer position s.coordinator.snapshot))
  | .attach viewer position bootstrap =>
    let (stream, frames) := Stream.attached s.coordinator viewer position bootstrap
    ({ s with
      mesh := { s.mesh with
        streams := s.mesh.streams.insert s.mesh.nextHandle stream
        nextHandle := s.mesh.nextHandle + 1 } }, .done (.opened s.mesh.nextHandle frames))

def Thread.step (amb : Ambient) (s : Shared) : Thread → Shared × Thread
  | .arrive req bearer observed =>
    match s.coordinator.admission amb req bearer with
    | .error e => (s, .done (.register (.error e)))
    | .ok (claims, pubkey) => (s, .enrol ⟨req, claims, pubkey, observed⟩ .lock)
  | .enrol r pc => pc.step r amb s
  | .beat b pc => pc.step b amb s
  | .leave reason peerId pc rest reply => pc.step reason peerId rest reply amb s
  | .reap =>
    (s.withCoordinator (s.coordinator.reapStaleResources amb.now amb.nowUnixMicros), .listStale)
  | .listStale => (s, .leaveAll .timeout .done (s.coordinator.stalePeers amb.now))
  | .replacePolicy ifMatch newPolicy =>
    match s.coordinator.policy.replace ifMatch newPolicy with
    | .error e => (s, .done (.putPolicy (.error e)))
    | .ok policy => (s.withCoordinator { s.coordinator with policy := policy }, .listPeers)
  | .listPeers => (s, .resync s.coordinator.snapshot)
  | .resync [] => (s, .done (.putPolicy (.ok ())))
  | .resync (info :: peers) => (s.broadcast (.updated info), .resync peers)
  | .stream pc => pc.step s
  | .single op _ => ({ s with mesh := (s.mesh.step op).1 }, .done (s.mesh.step op).2)
  | .done reply => (s, .done reply)

inductive Call
  | register (req : RegisterRequest) (bearer : Option String) (observed : Option SocketAddr)
  | heartbeat (req : HeartbeatRequest) (observed : Option SocketAddr)
  | deregister (peerId : String)
  | sweep
  | putPolicy (ifMatch : String) (newPolicy : Policy)
  | openStream (peerId : Option String)
  | single (op : Op) (h : op.isSingle = true)

namespace Call

def thread : Call → Thread
  | .register req bearer observed => .arrive req bearer observed
  | .heartbeat req observed =>
    match Uuid.parseStr req.peerId with
    | .error e => .done (.heartbeat (.error (.invalidPeerId e)))
    | .ok peerId => .beat ⟨peerId, req, observed⟩ .find
  | .deregister peerId =>
    match Uuid.parseStr peerId with
    | .error e => .done (.deregister (.error (.invalidPeerId e)))
    | .ok peerId => .leave .client peerId .find [] (.deregister (.ok ()))
  | .sweep => .reap
  | .putPolicy ifMatch newPolicy => .replacePolicy ifMatch newPolicy
  | .openStream none => .stream (.subscribe none)
  | .openStream (some peerId) => .stream (.findViewer peerId)
  | .single op h => .single op h

def op (amb : Ambient) : Call → Op
  | .register req bearer observed => .register amb req bearer observed
  | .heartbeat req observed => .heartbeat amb req observed
  | .deregister peerId => .deregister amb peerId
  | .sweep => .sweep amb
  | .putPolicy ifMatch newPolicy => .putPolicy ifMatch newPolicy
  | .openStream peerId => .openStream peerId
  | .single op _ => op

end Call

/-- What a step means to the outside: a heartbeat or register of a peer is accepted, a peer is
removed because it is stale, or a stream yields frames. -/
inductive Deed
  | none
  | stamped (peerId : Uuid)
  | expired (peerId : Uuid)
  | opened (handle : Nat) (frames : List PeerEvent)
  | polled (handle : Nat) (frame : Option PeerEvent)
  | lagged (handle : Nat)

def Shared.ifPresent (s : Shared) (peerId : Uuid) (deed : Deed) : Deed :=
  if (s.coordinator.roster.lookup peerId).isSome then deed else .none

def Thread.deed (s : Shared) : Thread → Deed
  | .enrol _ (.insert peerId _ _) => .stamped peerId
  | .enrol _ (.refresh peerId _) => s.ifPresent peerId (.stamped peerId)
  | .beat b .apply => s.ifPresent b.peerId (.stamped b.peerId)
  | .leave .timeout peerId (.remove _ _) _ _ => s.ifPresent peerId (.expired peerId)
  | .enrol _ (.evict holderId _) => s.ifPresent holderId (.expired holderId)
  | .stream (.attach viewer position bootstrap) =>
    .opened s.mesh.nextHandle (Stream.attached s.coordinator viewer position bootstrap).2
  | .single (.pollStream handle) _ =>
    match s.mesh.streams.lookup handle with
    | none => .none
    | some viewing =>
      if viewing.cursor + peerBroadcastCapacity < s.coordinator.broadcaster.length then
        .lagged handle
      else .polled handle (viewing.next s.coordinator).2
  | _ => .none

structure Process where
  shared : Shared
  threads : List Thread

inductive Move
  | start (call : Call)
  | advance (handle : Nat) (amb : Ambient)

def Move.NotBefore : Move → Move → Prop
  | .advance _ amb, .advance _ amb' => amb.now ≤ amb'.now
  | _, _ => True

instance : (m m' : Move) → Decidable (m.NotBefore m')
  | .advance _ amb, .advance _ amb' => inferInstanceAs (Decidable (amb.now ≤ amb'.now))
  | .start _, _ | .advance _ _, .start _ => .isTrue trivial

def Process.step (p : Process) : Move → Process × Deed
  | .start call => ({ p with threads := p.threads ++ [call.thread] }, .none)
  | .advance handle amb =>
    match p.threads[handle]? with
    | none => (p, .none)
    | some t =>
      (⟨(t.step amb p.shared).1, p.threads.set handle (t.step amb p.shared).2⟩, t.deed p.shared)

def Thread.isDone : Thread → Bool
  | .done _ => true
  | _ => false

def Process.Finished (p : Process) : Prop := ∀ t ∈ p.threads, t.isDone = true

instance (p : Process) : Decidable p.Finished :=
  inferInstanceAs (Decidable (∀ t ∈ p.threads, t.isDone = true))

def Mesh.booted (cfg : Config) (m : RosterState) (now : Nat) (file : Option Nat) : Mesh :=
  ⟨Coordinator.new cfg (m.restart now file), ∅, ∅, 0⟩

def threads (s : Mesh) : Machine Process Move Deed where
  init := ⟨⟨s, false⟩, []⟩
  step := Process.step
  admits tr move := ∀ x ∈ tr, x.1.NotBefore move

instance (s : Mesh) (tr : List (Move × Deed)) (move : Move) :
    Decidable ((threads s).admits tr move) :=
  inferInstanceAs (Decidable (∀ x ∈ tr, x.1.NotBefore move))

def Runs (amb : Ambient) : Shared × Thread → Shared × Thread → Prop :=
  Relation.ReflTransGen (fun x y => x.2.step amb x.1 = y)

namespace Runs

variable {amb : Ambient}

theorem refl (x : Shared × Thread) : Runs amb x x := Relation.ReflTransGen.refl

theorem head {x y z : Shared × Thread} (h : x.2.step amb x.1 = y) (hyz : Runs amb y z) :
    Runs amb x z :=
  Relation.ReflTransGen.head h hyz

theorem trans {x y z : Shared × Thread} (hxy : Runs amb x y) (hyz : Runs amb y z) :
    Runs amb x z :=
  Relation.ReflTransGen.trans hxy hyz

theorem leave (reason : LeaveReason) (peerId : Uuid) (rest : List Uuid) (reply : Reply) (s : Shared) :
    Runs amb (s, .leave reason peerId .find rest reply)
      (s.withCoordinator (s.coordinator.deregister amb peerId reason.text).1,
        .leaveAll reason reply rest) := by
  cases h : s.coordinator.roster.lookup peerId with
  | none =>
    refine .head (y := (s, .leaveAll reason reply rest)) ?_ ?_
    · simp only [Thread.step, LeavePc.step, h]
    · simp only [Coordinator.deregister, h]
      exact .refl _
  | some e =>
    refine .head (y := (s, .leave reason peerId (.remove e.tags amb.nowUnixMicros) rest reply)) ?_ ?_
    · simp only [Thread.step, LeavePc.step, h]
    · simp only [Coordinator.deregister, h]
      exact .head rfl (.head rfl (.head rfl (.refl _)))

theorem leaveAll (reason : LeaveReason) (reply : Reply) (stale : List Uuid) (s : Shared) :
    Runs amb (s, .leaveAll reason reply stale)
      (s.withCoordinator (stale.foldl (fun c id => (c.deregister amb id reason.text).1)
        s.coordinator), .done reply) := by
  induction stale generalizing s with
  | nil => exact .refl _
  | cons id stale ih => exact (leave reason id stale reply s).trans (ih _)

theorem punch (b : Beat) (snapshot : PeerEntry) (now : Int) (candidates : List PeerEntry)
    (s : Shared) :
    Runs amb (s, .beat b (.punch snapshot now candidates))
      (s.withCoordinator (candidates.foldl (Coordinator.tryEmitHolepunchPair now snapshot)
        s.coordinator), .beat b (.recordPaths snapshot)) := by
  induction candidates generalizing s with
  | nil => exact .head rfl (.refl _)
  | cons candidate candidates ih => exact .head rfl (ih _)

theorem resync (peers : List PeerInfo) (s : Shared) :
    Runs amb (s, .resync peers)
      (s.withCoordinator { s.coordinator with
        broadcaster := s.coordinator.broadcaster ++ peers.map PeerEvent.updated },
        .done (.putPolicy (.ok ()))) := by
  induction peers generalizing s with
  | nil =>
    rw [List.map_nil, List.append_nil]
    exact .head rfl (.refl _)
  | cons info peers ih =>
    refine .head rfl ?_
    have hrest := ih (s.broadcast (.updated info))
    simp only [Shared.broadcast, Coordinator.broadcast, Shared.withCoordinator,
      Mesh.withCoordinator, List.append_assoc] at hrest
    exact hrest

theorem evict (r : Enrolment) (s : Shared) :
    Runs amb (s, .enrol r .findHolder)
      (s.withCoordinator (s.coordinator.evictStaleUlaHolder amb r.req.requestedUla),
        .enrol r .resolveUla) := by
  have hskip : s.coordinator.staleUlaHolder amb.now r.req.requestedUla = none →
      Runs amb (s, .enrol r .resolveUla)
        (s.withCoordinator (s.coordinator.evictStaleUlaHolder amb r.req.requestedUla),
          .enrol r .resolveUla) := by
    intro h
    simp only [Coordinator.evictStaleUlaHolder, h]
    exact .refl _
  cases haddr : r.req.requestedUla.bind Ipv6Addr.parse with
  | none =>
    refine .head (y := (s, .enrol r .resolveUla)) ?_ (hskip ?_)
    · simp only [Thread.step, EnrolPc.step, haddr]
    · unfold Coordinator.staleUlaHolder
      cases hreq : r.req.requestedUla with
      | none => rfl
      | some raw =>
        rw [hreq, Option.bind_some] at haddr
        simp only [haddr]
  | some addr =>
    obtain ⟨raw, hreq, hraw⟩ := Option.bind_eq_some_iff.mp haddr
    cases hfind : s.coordinator.roster.values.find? (fun e => e.ula == addr) with
    | none =>
      refine .head (y := (s, .enrol r .resolveUla)) ?_ (hskip ?_)
      · simp only [Thread.step, EnrolPc.step, haddr, hfind]
      · simp only [Coordinator.staleUlaHolder, hreq, hraw, hfind]
    | some holder =>
      refine .head (y := (s, .enrol r (.checkStale holder.peerId))) ?_ ?_
      · simp only [Thread.step, EnrolPc.step, haddr, hfind]
      · by_cases hstale : (s.coordinator.roster.lookup holder.peerId).any
            (fun e => decide (amb.now - e.lastHeartbeat > s.coordinator.heartbeatTimeout)) = true
        · have hholder : s.coordinator.staleUlaHolder amb.now r.req.requestedUla =
              some holder.peerId := by
            simp only [Coordinator.staleUlaHolder, hreq, hraw, hfind, if_pos hstale]
          simp only [Coordinator.evictStaleUlaHolder, hholder]
          refine .head (if_pos hstale) ?_
          exact .head rfl (.head rfl (.head rfl (.head rfl (.refl _))))
        · refine .head (if_neg hstale) (hskip ?_)
          simp only [Coordinator.staleUlaHolder, hreq, hraw, hfind, if_neg hstale]

theorem join (r : Enrolment) (s : Shared) :
    Runs amb (s, .enrol r .resolveUla)
      (match s.coordinator.joinPeer amb r.req r.claims r.pubkey r.resolved r.observed with
      | (c, .error e) => (s.withCoordinator c, .enrol r (.unlock (.error e)))
      | (c, .ok entry) => (s.withCoordinator (c.persistRoster (amb.saved amb.nowV7)),
          .enrol r (.unlock (.ok (entry, .created))))) := by
  have hid : r.identity = stampIdentity r.req r.claims := rfl
  unfold Coordinator.joinPeer
  simp only [← hid]
  cases hres : s.coordinator.toRosterState.resolveUla r.identity.network r.req.requestedUla with
  | error e =>
    refine .head (y := (s, .enrol r (.unlock (.error e)))) ?_ (.refl _)
    simp only [Thread.step, EnrolPc.step, hres]
  | ok x =>
    obtain ⟨m, index, ula⟩ := x
    let event := joinEvent r.req r.identity r.resolved r.pubkey amb.nowV7 ula amb.nowUnixMicros
    let s' := s.withCoordinator (s.coordinator.withRosterState m)
    refine .head (y := (s', .enrol r (.checkConflict amb.nowV7 event))) ?_ ?_
    · simp only [Thread.step, EnrolPc.step, hres, s', event]
    · have hparse : Uuid.parseStr event.peerId = .ok amb.nowV7 := Uuid.parseStr_toString amb.nowV7
      have hula : Ipv6Addr.parse event.ula = some ula := StdNet.Ipv6Addr.parse_toString ula
      simp only [RosterState.applyPeerJoined]
      rw [hparse, hula]
      by_cases hheld : m.roster.values.any
          (fun existing => existing.ula == ula && existing.peerId != amb.nowV7) = true
      · simp only [hheld, if_true]
        refine .head (y := (s', .enrol r (.unlock (.error (.ulaConflict ula.toString))))) ?_ (.refl _)
        simp only [Thread.step, EnrolPc.step, hparse, hula]
        exact if_pos hheld
      · simp only [hheld]
        refine .head (y := (s', .enrol r (.insert amb.nowV7 ula event))) ?_ ?_
        · simp only [Thread.step, EnrolPc.step, hparse, hula]
          exact if_neg hheld
        · exact .head rfl (.head rfl (.head rfl (.head rfl (.refl _))))

theorem refresh (r : Enrolment) (peerId : Uuid) (s : Shared) :
    Runs amb (s, .enrol r (.readNetwork peerId))
      (s.withCoordinator
          (s.coordinator.refreshExisting amb peerId r.req r.claims r.resolved r.observed).1,
        .enrol r (.unlock
          ((s.coordinator.refreshExisting amb peerId r.req r.claims r.resolved r.observed).2.map
            (fun entry => (entry, .existed))))) := by
  have hid : r.identity = stampIdentity r.req r.claims := rfl
  unfold Coordinator.refreshExisting Coordinator.refreshEntry
  simp only [← hid]
  cases hold : s.coordinator.roster.lookup peerId with
  | none =>
    refine .head (y := (s, .enrol r (.unlock (.error (.unknownPeer peerId))))) ?_ (.refl _)
    simp only [Thread.step, EnrolPc.step, hold]
  | some old =>
    have hread : Thread.step amb s (.enrol r (.readNetwork peerId)) =
        if r.claims.isSome ∧ r.identity.network ≠ old.network then (s, .enrol r (.allocate peerId))
        else (s, .enrol r (.refresh peerId none)) := by
      simp only [Thread.step, EnrolPc.step, hold]
    by_cases hmove : r.claims.isSome ∧ r.identity.network ≠ old.network
    · rw [if_pos hmove] at hread
      simp only [if_pos hmove]
      refine .head hread ?_
      cases halloc : s.coordinator.allocator.allocate r.identity.network with
      | error e =>
        refine .head (y := (s, .enrol r (.unlock (.error (.allocation e))))) ?_ (.refl _)
        simp only [Thread.step, EnrolPc.step, halloc]
      | ok x =>
        obtain ⟨allocator, newIndex, newUla⟩ := x
        let s' := s.withCoordinator { s.coordinator with allocator := allocator }
        refine .head (y := (s', .enrol r (.checkHeld peerId newIndex newUla))) ?_ ?_
        · simp only [Thread.step, EnrolPc.step, halloc, s']
        · by_cases hheld : s.coordinator.roster.values.any
              (fun e => e.ula == newUla && e.peerId != peerId) = true
          · simp only [if_pos hheld]
            exact .head (if_pos hheld) (.refl _)
          · simp only [if_neg hheld]
            let moved := r.refreshed (some (newIndex, newUla)) amb.now
            have hold' : s'.coordinator.roster.lookup peerId = some old := hold
            refine .head (if_neg hheld) (.head (y := (s'.modifyPeer peerId moved,
              .enrol r (.announceMove peerId old.tags (moved old)))) ?_ ?_)
            · simp only [Thread.step, EnrolPc.step, hold']
              rfl
            · exact .head rfl (.head rfl (.head rfl (.refl _)))
    · rw [if_neg hmove] at hread
      simp only [if_neg hmove]
      let refreshed := r.refreshed none amb.now
      refine .head hread (.head (y := (s.modifyPeer peerId refreshed,
        .enrol r (.announceRefreshed peerId (refreshed old)))) ?_ ?_)
      · simp only [Thread.step, EnrolPc.step, hold]
        rfl
      · exact .head rfl (.refl _)

theorem enrol {r : Enrolment} {bearer : Option String} {s : Shared}
    (hadm : s.coordinator.admission amb r.req bearer = .ok (r.claims, r.pubkey)) :
    Runs amb (s, .enrol r .findExisting)
      (s.withCoordinator (s.coordinator.registerAuthenticated amb r.req bearer r.observed).1,
        .enrol r (.unlock (s.coordinator.registerAuthenticated amb r.req bearer r.observed).2)) := by
  have hres : resolveListenEndpoint r.req.listenEndpoint r.observed r.req.wgListenPort
      r.req.relayOnly = r.resolved := rfl
  simp only [Coordinator.registerAuthenticated, hadm, hres]
  cases hkey : s.coordinator.byPubkey.lookup r.pubkey with
  | some existingId =>
    refine .head (y := (s, .enrol r (.readNetwork existingId))) ?_
      ((refresh r existingId s).trans ?_)
    · simp only [Thread.step, EnrolPc.step, hkey]
    · dsimp only
      generalize Coordinator.refreshExisting s.coordinator amb existingId r.req r.claims r.resolved
        r.observed = x
      obtain ⟨c, e | entry⟩ := x
      · exact .refl _
      · exact .refl _
  | none =>
    refine .head (y := (s, .enrol r .findHolder)) ?_ ((evict r s).trans ((join r _).trans ?_))
    · simp only [Thread.step, EnrolPc.step, hkey]
    · simp only [Shared.withCoordinator, Shared.coordinator, Mesh.withCoordinator]
      generalize Coordinator.joinPeer _ amb r.req r.claims r.pubkey r.resolved r.observed = x
      obtain ⟨c, e | entry⟩ := x
      · exact .refl _
      · exact .refl _

theorem register (req : RegisterRequest) (bearer : Option String) (observed : Option SocketAddr)
    (s : Mesh) :
    Runs amb (⟨s, false⟩, .arrive req bearer observed)
      (⟨(s.step (.register amb req bearer observed)).1, false⟩,
        .done (s.step (.register amb req bearer observed)).2) := by
  simp only [Mesh.step, Coordinator.registerHandler]
  cases hadm : s.coordinator.admission amb req bearer with
  | error e =>
    refine .head (y := (⟨s, false⟩, .done (.register (.error e)))) ?_ ?_
    · simp only [Thread.step, Shared.coordinator, hadm]
    · simp only [Coordinator.registerAuthenticated, hadm]
      exact .refl _
  | ok x =>
    obtain ⟨claims, pubkey⟩ := x
    let r : Enrolment := ⟨req, claims, pubkey, observed⟩
    have hlock : Runs amb (⟨s, false⟩, .arrive req bearer observed)
        (⟨s, true⟩, .enrol r .findExisting) := by
      refine .head (y := (⟨s, false⟩, .enrol r .lock)) ?_ (.head rfl (.refl _))
      simp only [Thread.step, Shared.coordinator, hadm, r]
    have hrun : Runs amb (⟨s, true⟩, .enrol r .findExisting) _ := enrol hadm
    refine hlock.trans (hrun.trans ?_)
    simp only [r]
    generalize Coordinator.registerAuthenticated s.coordinator amb req bearer observed = answered
    obtain ⟨c, e | ⟨entry, outcome⟩⟩ := answered
    · exact .head rfl (.refl _)
    · exact .head rfl (.head rfl (.refl _))

theorem beat_read (b : Beat) (s : Mesh) :
    Runs amb (⟨s, false⟩, .beat b .read)
      (match s.coordinator.roster.lookup b.peerId with
      | none => (⟨s, false⟩, .done (.heartbeat (.error (.unknownPeer b.peerId))))
      | some snapshot =>
        let (c, pendingCommands) := ((s.coordinator.broadcast
          (.updated snapshot.toInfo)).tryEmitHolepunchPairs amb.nowUnixMicros
            snapshot).recordReports snapshot.peerId b.req
        (⟨s.withCoordinator c, false⟩, .done (.heartbeat (.ok
          { peers := c.visiblePeers snapshot.peerId snapshot.tags
            observedIp := b.observed.map (fun o => o.ip.toString)
            observedEndpoint := snapshot.listenEndpoint
            pendingCommands := pendingCommands })))) := by
  cases h : s.coordinator.roster.lookup b.peerId with
  | none =>
    refine .head ?_ (.refl _)
    simp only [Thread.step, BeatPc.step, Shared.coordinator, h]
  | some snapshot =>
    refine .head (y := (⟨s, false⟩, .beat b (.announce snapshot))) ?_ ?_
    · simp only [Thread.step, BeatPc.step, Shared.coordinator, h]
    · refine .head rfl (.head rfl ((punch b snapshot _ _ _).trans ?_))
      exact .head rfl (.head rfl (.head rfl (.head rfl (.head rfl (.refl _)))))

theorem heartbeat (b : Beat) (s : Mesh) (hreq : Uuid.parseStr b.req.peerId = .ok b.peerId) :
    Runs amb (⟨s, false⟩, .beat b .find)
      (⟨(s.step (.heartbeat amb b.req b.observed)).1, false⟩,
        .done (s.step (.heartbeat amb b.req b.observed)).2) := by
  simp only [Mesh.step, Coordinator.heartbeatHandler, hreq, Coordinator.heartbeat]
  by_cases hnone : (s.coordinator.roster.lookup b.peerId).isNone = true
  · rw [if_pos hnone]
    exact .head (if_pos hnone) (.refl _)
  · rw [if_neg hnone]
    generalize hc : Coordinator.refreshReflexiveEndpoint _ b.peerId _ b.req.wgListenPort _ = c
    have hwrites : Runs amb (⟨s, false⟩, .beat b .apply) (⟨s.withCoordinator c, false⟩, .beat b .read) := by
      rw [← hc]
      exact .head rfl (.head rfl (.head rfl (.refl _)))
    have hrest : Runs amb (⟨s.withCoordinator c, false⟩, .beat b .read) _ := beat_read b _
    refine .head (if_neg hnone) (hwrites.trans (hrest.trans ?_))
    simp only [Mesh.withCoordinator]
    cases c.roster.lookup b.peerId with
    | none => exact .refl _
    | some snapshot => exact .refl _

end Runs

theorem Call.runs_alone (call : Call) (amb : Ambient) (s : Mesh) :
    Runs amb (⟨s, false⟩, call.thread)
      (⟨(s.step (call.op amb)).1, false⟩, .done (s.step (call.op amb)).2) := by
  cases call with
  | register req bearer observed => exact Runs.register req bearer observed s
  | heartbeat req observed =>
    simp only [thread, op]
    cases hreq : Uuid.parseStr req.peerId with
    | error e =>
      simp only [Mesh.step, Coordinator.heartbeatHandler, hreq]
      exact .refl _
    | ok id => exact Runs.heartbeat ⟨id, req, observed⟩ s hreq
  | deregister peerId =>
    simp only [thread, op, Mesh.step, Coordinator.deregisterHandler]
    cases Uuid.parseStr peerId with
    | error e => exact .refl _
    | ok id => exact Runs.leave .client id [] (.deregister (.ok ())) ⟨s, false⟩
  | sweep =>
    refine .head rfl (.head rfl ?_)
    exact Runs.leaveAll .timeout .done _ _
  | putPolicy ifMatch newPolicy =>
    simp only [thread, op, Mesh.step, Coordinator.putPolicyHandler]
    cases hreplace : s.coordinator.policy.replace ifMatch newPolicy with
    | error e =>
      refine .head ?_ (.refl _)
      simp only [Thread.step, Shared.coordinator, hreplace]
      rfl
    | ok policy =>
      refine .head (y := (Shared.withCoordinator ⟨s, false⟩ { s.coordinator with policy := policy },
        .listPeers)) ?_ (.head rfl (Runs.resync _ _))
      simp only [Thread.step, Shared.coordinator, hreplace]
  | openStream peerId =>
    have hopen : ∀ viewer, Runs amb (⟨s, false⟩, .stream (.subscribe viewer))
        (⟨(s.openStream viewer).1, false⟩, .done (s.openStream viewer).2) := by
      intro viewer
      refine .head rfl (.head rfl (.head ?_ (.refl _)))
      cases viewer with
      | none => rfl
      | some viewer => rfl
    cases peerId with
    | none => exact hopen none
    | some peerId =>
      simp only [thread, op, Mesh.step]
      cases hviewer : s.coordinator.streamViewer peerId with
      | none =>
        refine .head ?_ (.refl _)
        simp only [Thread.step, StreamPc.step, Shared.coordinator, hviewer]
      | some viewer =>
        refine .head ?_ (hopen (some viewer))
        simp only [Thread.step, StreamPc.step, Shared.coordinator, hviewer]
  | single op h => exact .head rfl (.refl _)

theorem reach_of_runs {s₀ : Mesh} {amb : Ambient} {x y : Shared × Thread} (hruns : Runs amb x y)
    (ts : List Thread) {tr : List (Move × Deed)} (h : (threads s₀).Reach tr ⟨x.1, ts ++ [x.2]⟩)
    (hclock : ∀ z ∈ tr, z.1.NotBefore (.advance ts.length amb)) :
    ∃ tr', (threads s₀).Reach tr' ⟨y.1, ts ++ [y.2]⟩ := by
  induction hruns using Relation.ReflTransGen.head_induction_on generalizing tr with
  | refl => exact ⟨tr, h⟩
  | @head x w hstep _ ih =>
    have hadmits : (threads s₀).admits tr (.advance ts.length amb) := hclock
    have hnext := Machine.Run.step _ h hadmits trivial
    have hstate : ((threads s₀).step ⟨x.1, ts ++ [x.2]⟩ (.advance ts.length amb)).1 =
        ⟨w.1, ts ++ [w.2]⟩ := by
      simp [threads, Process.step, hstep]
    rw [hstate] at hnext
    refine ih hnext ?_
    intro z hz
    rcases List.mem_cons.mp hz with rfl | hz
    · exact Nat.le_refl amb.now
    · exact hclock z hz

end

attribute [local instance] referenceCrates

end ServiceMesh
