import ServiceMesh.Interleaving
import ServiceMesh.Mesh

/-! The operations that save the roster, cut at the points where they wait: registers under the
registration lock, deregisters and sweeps outside of it. Run without interruption each of them
is the operation of the sequential machine. -/

namespace ServiceMesh

open StdNet (Ipv6Addr SocketAddr)
open Async (act look acquire release persist)

section

variable [Crates]

abbrev Serving : Type → Type := Async Ambient Mesh

namespace Mesh

def lastSaved (s : Mesh) : List PeerJoined := s.coordinator.rosterStore.head?.getD []

def durable : Durable Mesh (List PeerJoined) where
  capture s := s.coordinator.rosterSnapshot
  write s peers :=
    s.withCoordinator (s.coordinator.withRosterState (s.coordinator.saveRoster peers true))
  stored := lastSaved

end Mesh

namespace Serving

variable {β : Type}

def onCoordinator (f : Ambient → Coordinator → Coordinator × β) : Serving β :=
  act fun amb s => (s.withCoordinator (f amb s.coordinator).1, (f amb s.coordinator).2)

def deregister (peerId : Uuid) (reason : String) : Serving Bool := do
  match ← look fun amb s =>
      (s.coordinator.roster.lookup peerId).map (fun e => (e.tags, amb.nowUnixMicros)) with
  | none => return false
  | some (tags, leftAt) =>
    onCoordinator fun _ c => (c.departPeer leftAt peerId tags reason, ())
    persist
    return true

def deregisterStale : List Uuid → Serving Unit
  | [] => return ()
  | peerId :: stale => do
    let _ ← deregister peerId "heartbeat_timeout"
    deregisterStale stale

def sweepOnce : Serving Unit := do
  onCoordinator fun amb c => (c.reapStaleResources amb.now amb.nowUnixMicros, ())
  let stale ← look fun amb s => s.coordinator.stalePeers amb.now
  deregisterStale stale

def evictStaleUlaHolder (requestedUla : Option String) : Serving Unit := do
  match ← look fun amb s =>
      (s.coordinator.staleUlaHolder amb.now requestedUla).map (fun id => (id, amb.nowUnixMicros)) with
  | none => return ()
  | some (holderId, leftAt) =>
    onCoordinator fun _ c => (c.evictHolder leftAt holderId, ())
    persist

def refreshExisting (peerId : Uuid) (req : RegisterRequest) (claims : Option ValidatedClaims)
    (resolved : ResolvedEndpoint) (observed : Option SocketAddr) :
    Serving (Except CoordinatorError PeerEntry) := do
  match ← onCoordinator fun amb c => c.refreshEntry amb peerId req claims resolved observed with
  | .error e => return .error e
  | .ok (entry, rehome) =>
    if rehome then persist
    return .ok entry

def claimUla (req : RegisterRequest) (claims : Option ValidatedClaims) (pubkey : List UInt8)
    (resolved : ResolvedEndpoint) (amb : Ambient) (c : Coordinator) :
    Coordinator × Except CoordinatorError (Uuid × PeerJoined) :=
  let identity := stampIdentity req claims
  match c.toRosterState.resolveUla identity.network req.requestedUla with
  | .error e => (c, .error e)
  | .ok (m, _, ula) =>
    (c.withRosterState m, .ok (amb.nowV7,
      joinEvent req identity resolved pubkey amb.nowV7 ula amb.nowUnixMicros))

def applyJoin (peerId : Uuid) (event : PeerJoined) (resolved : ResolvedEndpoint)
    (observed : Option SocketAddr) (amb : Ambient) (c : Coordinator) :
    Coordinator × Except CoordinatorError PeerEntry :=
  match c.toRosterState.applyPeerJoined amb.now event with
  | .error e => (c, .error e)
  | .ok (m, entry) =>
    let entry := seedReflexive resolved observed entry
    let m := { m with roster := m.roster.modify peerId (seedReflexive resolved observed) }
    ((c.withRosterState m).broadcast (.added entry.toInfo), .ok entry)

def joinPeer (req : RegisterRequest) (claims : Option ValidatedClaims) (pubkey : List UInt8)
    (resolved : ResolvedEndpoint) (observed : Option SocketAddr) :
    Serving (Except CoordinatorError PeerEntry) := do
  match ← onCoordinator (claimUla req claims pubkey resolved) with
  | .error e => return .error e
  | .ok (peerId, event) =>
    match ← onCoordinator (applyJoin peerId event resolved observed) with
    | .error e => return .error e
    | .ok entry =>
      persist
      return .ok entry

def registerLocked (req : RegisterRequest) (claims : Option ValidatedClaims) (pubkey : List UInt8)
    (observed : Option SocketAddr) :
    Serving (Except CoordinatorError (PeerEntry × RegisterOutcome)) := do
  let resolved := resolveListenEndpoint req.listenEndpoint observed req.wgListenPort req.relayOnly
  match ← look fun _ s => s.coordinator.byPubkey.lookup pubkey with
  | some existingId =>
    let answer ← refreshExisting existingId req claims resolved observed
    return answer.map fun entry => (entry, .existed)
  | none =>
    evictStaleUlaHolder req.requestedUla
    let answer ← joinPeer req claims pubkey resolved observed
    return answer.map fun entry => (entry, .created)

def registerAuthenticated (req : RegisterRequest) (bearer : Option String)
    (observed : Option SocketAddr) :
    Serving (Except CoordinatorError (PeerEntry × RegisterOutcome)) := do
  match ← look fun amb s => s.coordinator.admission amb req bearer with
  | .error e => return .error e
  | .ok (claims, pubkey) =>
    acquire
    let answer ← registerLocked req claims pubkey observed
    release
    return answer

def registerHandler (req : RegisterRequest) (bearer : Option String)
    (observed : Option SocketAddr) : Serving (Except CoordinatorError Registered) := do
  match ← registerAuthenticated req bearer observed with
  | .error e => return .error e
  | .ok (entry, outcome) =>
    let peers ← look fun _ s => s.coordinator.visiblePeers entry.peerId entry.tags
    return .ok ⟨entry, outcome,
      { peerId := entry.peerId.toString
        ula := entry.ula.toString
        peers := peers
        observedIp := observed.map (fun o => o.ip.toString)
        observedEndpoint := entry.listenEndpoint }⟩

def deregisterHandler (peerId : String) : Serving (Except CoordinatorError Unit) := do
  match Uuid.parseStr peerId with
  | .error e => return .error (.invalidPeerId e)
  | .ok peerId =>
    let _ ← deregister peerId "client_deregister"
    return .ok ()

end Serving

/-- What the process is asked to do; the operations that never wait are one piece each. -/
inductive Request
  | register (req : RegisterRequest) (bearer : Option String) (observed : Option SocketAddr)
  | deregister (peerId : String)
  | sweep
  | other (op : Op) (h : op.savesNothing = true)

def Request.serve : Request → Serving Reply
  | .register req bearer observed => do
    return .register (← Serving.registerHandler req bearer observed)
  | .deregister peerId => do
    return .deregister (← Serving.deregisterHandler peerId)
  | .sweep => do
    Serving.sweepOnce
    return .done
  | .other op _ => act fun _ s => s.step op

def Request.op (amb : Ambient) : Request → Op
  | .register req bearer observed => .register amb req bearer observed
  | .deregister peerId => .deregister amb peerId
  | .sweep => .sweep amb
  | .other op _ => op

namespace Serving

section

variable {amb : Ambient} (hsaved : ∀ id, amb.saved id = true) (s : Mesh) (req : RegisterRequest)
  (bearer : Option String) (claims : Option ValidatedClaims) (pubkey : List UInt8)
  (resolved : ResolvedEndpoint) (observed : Option SocketAddr)

@[simp] theorem alone_onCoordinator {β : Type} (f : Ambient → Coordinator → Coordinator × β) :
    (onCoordinator f).alone Mesh.durable amb s =
      (s.withCoordinator (f amb s.coordinator).1, (f amb s.coordinator).2) := rfl

include hsaved

theorem alone_deregister (id : Uuid) (reason : String) :
    (deregister id reason).alone Mesh.durable amb s =
      (s.withCoordinator (s.coordinator.deregister amb id reason).1,
        (s.coordinator.deregister amb id reason).2) := by
  simp only [deregister, Coordinator.deregister, Async.alone_bind, Async.alone_look]
  cases s.coordinator.roster.lookup id with
  | none => rfl
  | some e =>
    simp only [hsaved]
    rfl

theorem alone_deregisterStale (stale : List Uuid) :
    (deregisterStale stale).alone Mesh.durable amb s =
      (s.withCoordinator (stale.foldl
        (fun c id => (c.deregister amb id "heartbeat_timeout").1) s.coordinator), ()) := by
  induction stale generalizing s with
  | nil => rfl
  | cons id stale ih =>
    simp only [deregisterStale, Async.alone_bind, alone_deregister hsaved, ih, List.foldl_cons]
    rfl

theorem alone_sweepOnce :
    sweepOnce.alone Mesh.durable amb s =
      (s.withCoordinator (s.coordinator.sweepOnce amb), ()) := by
  simp only [sweepOnce, Async.alone_bind, Async.alone_look, alone_onCoordinator,
    alone_deregisterStale hsaved]
  rfl

theorem alone_evictStaleUlaHolder (requestedUla : Option String) :
    (evictStaleUlaHolder requestedUla).alone Mesh.durable amb s =
      (s.withCoordinator (s.coordinator.evictStaleUlaHolder amb requestedUla), ()) := by
  simp only [evictStaleUlaHolder, Coordinator.evictStaleUlaHolder, Async.alone_bind,
    Async.alone_look]
  cases s.coordinator.staleUlaHolder amb.now requestedUla with
  | none => rfl
  | some holderId =>
    simp only [hsaved]
    rfl

theorem alone_refreshExisting (id : Uuid) :
    (refreshExisting id req claims resolved observed).alone Mesh.durable amb s =
      (s.withCoordinator (s.coordinator.refreshExisting amb id req claims resolved observed).1,
        (s.coordinator.refreshExisting amb id req claims resolved observed).2) := by
  simp only [refreshExisting, Coordinator.refreshExisting, Async.alone_bind, alone_onCoordinator]
  generalize s.coordinator.refreshEntry amb id req claims resolved observed = x
  obtain ⟨c, _ | ⟨entry, _ | _⟩⟩ := x
  · rfl
  · rfl
  · simp only [hsaved]
    rfl

theorem alone_joinPeer :
    (joinPeer req claims pubkey resolved observed).alone Mesh.durable amb s =
      match s.coordinator.joinPeer amb req claims pubkey resolved observed with
      | (c, .error e) => (s.withCoordinator c, .error e)
      | (c, .ok entry) =>
        (s.withCoordinator (c.persistRoster (amb.saved amb.nowV7)), .ok entry) := by
  simp only [joinPeer, Coordinator.joinPeer, Async.alone_bind, alone_onCoordinator, claimUla]
  cases s.coordinator.toRosterState.resolveUla (stampIdentity req claims).network
      req.requestedUla with
  | error e => rfl
  | ok x =>
    obtain ⟨m, -, ula⟩ := x
    simp only [Async.alone_bind, alone_onCoordinator, applyJoin, Mesh.withCoordinator,
      Coordinator.withRosterState]
    cases m.applyPeerJoined amb.now (joinEvent req (stampIdentity req claims) resolved pubkey
        amb.nowV7 ula amb.nowUnixMicros) with
    | error e => rfl
    | ok y =>
      obtain ⟨m', entry⟩ := y
      simp only [hsaved]
      rfl

theorem alone_registerLocked
    (h : s.coordinator.admission amb req bearer = .ok (claims, pubkey)) :
    (registerLocked req claims pubkey observed).alone Mesh.durable amb s =
      (s.withCoordinator (s.coordinator.registerAuthenticated amb req bearer observed).1,
        (s.coordinator.registerAuthenticated amb req bearer observed).2) := by
  simp only [registerLocked, Coordinator.registerAuthenticated, h, Async.alone_bind,
    Async.alone_look]
  cases s.coordinator.byPubkey.lookup pubkey with
  | some id =>
    simp only [Async.alone_bind, alone_refreshExisting hsaved]
    generalize s.coordinator.refreshExisting amb id req claims _ observed = x
    obtain ⟨c, _ | entry⟩ := x <;> rfl
  | none =>
    simp only [Async.alone_bind, alone_evictStaleUlaHolder hsaved, alone_joinPeer hsaved,
      Mesh.withCoordinator]
    generalize Coordinator.joinPeer _ amb req claims pubkey _ observed = x
    obtain ⟨c, _ | entry⟩ := x <;> rfl

theorem alone_registerAuthenticated :
    (registerAuthenticated req bearer observed).alone Mesh.durable amb s =
      (s.withCoordinator (s.coordinator.registerAuthenticated amb req bearer observed).1,
        (s.coordinator.registerAuthenticated amb req bearer observed).2) := by
  simp only [registerAuthenticated, Async.alone_bind, Async.alone_look]
  cases h : s.coordinator.admission amb req bearer with
  | error e =>
    simp only [Coordinator.registerAuthenticated, h]
    rfl
  | ok x =>
    obtain ⟨claims, pubkey⟩ := x
    simp only [Async.alone_bind, Async.alone_acquire, Async.alone_release, Async.alone_pure,
      alone_registerLocked hsaved s req bearer claims pubkey observed h]

theorem alone_registerHandler :
    (registerHandler req bearer observed).alone Mesh.durable amb s =
      (s.withCoordinator (s.coordinator.registerHandler amb req bearer observed).1,
        (s.coordinator.registerHandler amb req bearer observed).2) := by
  simp only [registerHandler, Coordinator.registerHandler, Async.alone_bind,
    alone_registerAuthenticated hsaved]
  generalize s.coordinator.registerAuthenticated amb req bearer observed = x
  obtain ⟨c, _ | ⟨entry, outcome⟩⟩ := x <;> rfl

end

end Serving

theorem Request.alone_serve {amb : Ambient} (hsaved : ∀ id, amb.saved id = true)
    (request : Request) (s : Mesh) :
    request.serve.alone Mesh.durable amb s = s.step (request.op amb) := by
  cases request with
  | register req bearer observed =>
    simp only [serve, Async.alone_bind, Serving.alone_registerHandler hsaved, Async.alone_pure]
    rfl
  | deregister peerId =>
    simp only [serve, Async.alone_bind, Async.alone_pure, Serving.deregisterHandler, op, Mesh.step,
      Coordinator.deregisterHandler]
    cases Uuid.parseStr peerId with
    | error e => rfl
    | ok id =>
      simp only [Async.alone_bind, Serving.alone_deregister hsaved, Async.alone_pure]
  | sweep =>
    simp only [serve, Async.alone_bind, Serving.alone_sweepOnce hsaved, Async.alone_pure]
    rfl
  | other op h => rfl

namespace Serving

open Async (brackets_act brackets_persist brackets_pure)

variable (held : Bool) (req : RegisterRequest) (claims : Option ValidatedClaims)
  (pubkey : List UInt8) (resolved : ResolvedEndpoint) (observed : Option SocketAddr)

theorem brackets_deregister (id : Uuid) (reason : String) :
    (deregister id reason).Brackets held held := by
  refine (brackets_act held _).bind ?_
  rintro (_ | ⟨tags, leftAt⟩)
  · exact brackets_pure held false
  · exact (brackets_act held _).bind fun _ =>
      (brackets_persist held).bind fun _ => brackets_pure held true

theorem brackets_deregisterStale (stale : List Uuid) :
    (deregisterStale stale).Brackets held held := by
  induction stale with
  | nil => exact brackets_pure held ()
  | cons id stale ih => exact (brackets_deregister held id _).bind (fun _ => ih)

theorem brackets_sweepOnce : sweepOnce.Brackets held held :=
  (brackets_act held _).bind fun _ =>
    (brackets_act held _).bind fun stale => brackets_deregisterStale held stale

theorem brackets_evictStaleUlaHolder (requestedUla : Option String) :
    (evictStaleUlaHolder requestedUla).Brackets held held := by
  refine (brackets_act held _).bind ?_
  rintro (_ | ⟨holderId, leftAt⟩)
  · exact brackets_pure held ()
  · exact (brackets_act held _).bind (fun _ => brackets_persist held)

theorem brackets_refreshExisting (id : Uuid) :
    (refreshExisting id req claims resolved observed).Brackets held held := by
  refine (brackets_act held _).bind ?_
  rintro (e | ⟨entry, _ | _⟩)
  · exact brackets_pure held _
  · exact brackets_pure held _
  · exact (brackets_persist held).bind (fun _ => brackets_pure held _)

theorem brackets_joinPeer :
    (joinPeer req claims pubkey resolved observed).Brackets held held := by
  refine (brackets_act held _).bind ?_
  rintro (e | ⟨peerId, event⟩)
  · exact brackets_pure held _
  · refine (brackets_act held _).bind ?_
    rintro (e | entry)
    · exact brackets_pure held _
    · exact (brackets_persist held).bind (fun _ => brackets_pure held _)

theorem brackets_registerLocked :
    (registerLocked req claims pubkey observed).Brackets held held := by
  refine (brackets_act held _).bind ?_
  rintro (_ | id)
  · exact (brackets_evictStaleUlaHolder held _).bind fun _ =>
      (brackets_joinPeer held req claims pubkey _ observed).bind fun _ => brackets_pure held _
  · exact (brackets_refreshExisting held req claims _ observed id).bind fun _ =>
      brackets_pure held _

theorem brackets_registerHandler (bearer : Option String) :
    (registerHandler req bearer observed).Brackets false false := by
  have hauth : (registerAuthenticated req bearer observed).Brackets false false := by
    refine (brackets_act false _).bind ?_
    rintro (e | ⟨claims, pubkey⟩)
    · exact brackets_pure false _
    · exact ⟨rfl, (brackets_registerLocked true req claims pubkey observed).bind fun _ =>
        ⟨rfl, rfl⟩⟩
  refine hauth.bind ?_
  rintro (e | ⟨entry, outcome⟩)
  · exact brackets_pure false _
  · exact (brackets_act false _).bind (fun _ => brackets_pure false _)

end Serving

theorem Request.brackets_serve (request : Request) : request.serve.Brackets false false := by
  cases request with
  | register req bearer observed =>
    exact (Serving.brackets_registerHandler req observed bearer).bind (fun _ => rfl)
  | deregister peerId =>
    have hhandler : (Serving.deregisterHandler peerId).Brackets false false := by
      unfold Serving.deregisterHandler
      cases Uuid.parseStr peerId with
      | error e => rfl
      | ok id => exact (Serving.brackets_deregister false id _).bind (fun _ => rfl)
    exact hhandler.bind (fun _ => rfl)
  | sweep => exact (Serving.brackets_sweepOnce false).bind (fun _ => rfl)
  | other op h => exact fun _ _ => rfl

def serving (s : Mesh) :
    Machine (Pool Ambient Mesh (List PeerJoined) Reply) (Turn Request Ambient) Unit :=
  Pool.machine Mesh.durable Request.serve s

instance (s : Mesh) (tr : List (Turn Request Ambient × Unit)) (turn : Turn Request Ambient) :
    Decidable ((serving s).admits tr turn) := .isTrue trivial

end

attribute [local instance] referenceCrates

end ServiceMesh
