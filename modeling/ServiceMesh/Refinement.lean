import ServiceMesh.Mesh
import ServiceMesh.RegisterCases

/-! The coordinator refines membership: each operation is a run of membership steps, and the
grants on the way are the ones its answer reports. -/

namespace ServiceMesh

open StdNet (Ipv6Addr SocketAddr)
open RosterState (Steps SeatsKept)

variable [Crates] {G : Uuid → Ipv6Addr → Prop}

def Coordinator.Allocates (c : Coordinator) (req : RegisterRequest)
    (claims : Option ValidatedClaims) (pubkey : List UInt8) : Prop :=
  match c.byPubkey.lookup pubkey with
  | none => req.requestedUla = none
  | some id => ∃ old, c.roster.lookup id = some old ∧ claims.isSome ∧
    (stampIdentity req claims).network ≠ old.network

def Coordinator.Unknown (c : Coordinator) (req : RegisterRequest) : Prop :=
  ∃ pubkey, decodePubkey req.wgPublicKey = .ok pubkey ∧ c.byPubkey.lookup pubkey = none

structure RegisterGrant (c : Coordinator) (amb : Ambient) (req : RegisterRequest)
    (bearer : Option String) (entry : PeerEntry) (g : Grant) : Prop where
  peerId : entry.peerId = g.peerId
  ula : entry.ula = g.ula
  network : entry.network = g.network
  admitted : ∃ claims pubkey, c.admission amb req bearer = .ok (claims, pubkey) ∧
    (stampIdentity req claims).network = g.network ∧
    (g.sequential = true → c.Allocates req claims pubkey) ∧
    (g.sequential = false → c.byPubkey.lookup pubkey = none)
  requested : g.sequential = false →
    ∃ raw, req.requestedUla = some raw ∧ Ipv6Addr.parse raw = some g.ula
  sequential : g.sequential = true → c.toRosterState.NextUla g.network g.ula

omit [Crates] in
theorem sameSeat_refreshedEntry (req : RegisterRequest) (identity : NodeIdentity)
    (observed : Option SocketAddr) (now : Nat) (e : PeerEntry) :
    SameSeat e (refreshedEntry req identity
      (req.resolved observed)
      observed now e) :=
  ⟨rfl, rfl, rfl, rfl, rfl, fun _ => resolveListenEndpoint_ne_empty _ _ _ _⟩

omit [Crates] in
theorem sameSeat_seedReflexive (resolved : ResolvedEndpoint) (observed : Option SocketAddr)
    (e : PeerEntry) : SameSeat e (seedReflexive resolved observed e) :=
  ⟨rfl, rfl, rfl, rfl, rfl, fun h => h⟩

namespace Coordinator

variable {c : Coordinator} {amb : Ambient} {req : RegisterRequest} {bearer : Option String}
  {observed : Option SocketAddr} {claims : Option ValidatedClaims} {pubkey : List UInt8}

theorem firstEntry_endpoint (ula : Ipv6Addr) :
    (firstEntry amb req claims pubkey
      (req.resolved observed)
      ula).listenEndpoint ≠ some "" := by
  simp only [firstEntry, RosterState.joinedEntry]
  split
  · simp
  · rename_i hne
    simpa using hne

theorem joinPeer_steps (h : c.toRosterState.Inv G) (hid : c.roster.lookup amb.nowV7 = none)
    (hkey : c.byPubkey.lookup pubkey = none) :
    let r := c.joinPeer amb req claims pubkey
      (req.resolved observed) observed
    (∃ err, r = (c, .error err)) ∨
      ∃ entry, r.2 = .ok entry ∧
        c.toRosterState.Resolved (stampIdentity req claims).network req.requestedUla entry.ula ∧
        entry.peerId = amb.nowV7 ∧ entry.network = (stampIdentity req claims).network ∧
        Steps c.toRosterState [⟨entry.peerId, entry.ula, entry.network, req.requestedUla.isNone⟩]
          r.1.toRosterState := by
  intro r
  rcases joinPeer_cases amb req claims pubkey
      (req.resolved observed)
      observed h with ⟨err, -, hj⟩ | ⟨ula, hres, hj⟩
  · exact .inl ⟨err, hj⟩
  · refine .inr ⟨_, congrArg Prod.snd hj, hres, rfl, rfl, ?_⟩
    have hmem := congrArg (fun x => x.1.toRosterState) hj
    simp only [r]
    rw [hmem]
    have hjoin := RosterState.Step.join
      (firstEntry amb req claims pubkey
        (req.resolved observed) ula)
      req.requestedUla.isNone hid hkey hres.free rfl hres.uniqueLocal hres.slotBound
      (firstEntry_endpoint ula) (fun hn => hres.next (Option.isNone_iff_eq_none.mp hn))
    exact (Steps.single hjoin).quiet
      (.touch amb.nowV7 _ (fun e _ => sameSeat_seedReflexive _ _ e))

theorem refreshExisting_steps (h : c.toRosterState.Inv G) (id : Uuid) :
    let r := c.refreshExisting amb id req claims
      (req.resolved observed) observed
    (∃ err, r = (c, .error err)) ∨
      (∃ entry, r.2 = .ok entry ∧ Steps c.toRosterState [] r.1.toRosterState) ∨
      ∃ entry, r.2 = .ok entry ∧ entry.peerId = id ∧
        entry.network = (stampIdentity req claims).network ∧
        c.toRosterState.NextUla entry.network entry.ula ∧
        (∃ old, c.roster.lookup id = some old ∧ claims.isSome ∧
          (stampIdentity req claims).network ≠ old.network) ∧
        Steps c.toRosterState [⟨entry.peerId, entry.ula, entry.network, true⟩] r.1.toRosterState := by
  intro r
  simp only [r, refreshExisting]
  cases hold : c.roster.lookup id with
  | none => exact .inl ⟨.unknownPeer id, by simp only [refreshEntry, hold]⟩
  | some old =>
    have hseat := sameSeat_refreshedEntry req (stampIdentity req claims) observed amb.now
    rcases refreshEntry_cases amb req claims
        (req.resolved observed)
        observed h hold with ⟨-, hr⟩ | ⟨err, -, hr⟩ | ⟨allocator, idx, ula, hre, ha, hr⟩
    · rw [hr]
      exact .inr (.inl ⟨_, rfl, .single (.touch id _ (fun e _ => hseat e))⟩)
    · rw [hr]
      exact .inl ⟨.allocation err, rfl⟩
    · rw [hr]
      have hid : old.peerId = id := h.keyed hold
      refine .inr (.inr ⟨_, rfl, hid, rfl, ⟨allocator, idx, ha⟩, ⟨old, rfl, hre⟩, ?_⟩)
      have hmove := RosterState.Step.rehome id (stampIdentity req claims).network _ hold ha (hseat old)
      rw [← hid] at hmove ⊢
      exact (Steps.single hmove).trans (Steps.persistRoster _ _)

variable (amb req bearer observed) in
theorem registerAuthenticated_steps (h : c.toRosterState.Inv G)
    (hid : c.roster.lookup amb.nowV7 = none) :
    let r := c.registerAuthenticated amb req bearer observed
    ∃ gs, Steps c.toRosterState gs r.1.toRosterState ∧
      (∀ g ∈ gs, ∃ entry outcome, r.2 = .ok (entry, outcome) ∧
        RegisterGrant c amb req bearer entry g) ∧
      (r.2.isOk = true → c.Unknown req → gs ≠ []) := by
  intro r
  cases hadm : c.admission amb req bearer with
  | error e =>
    simp only [r, registerAuthenticated_refused observed hadm]
    exact ⟨[], .refl _, by simp, by simp [Except.isOk, Except.toBool]⟩
  | ok a =>
    obtain ⟨claims, pubkey⟩ := a
    have hdec := (admission_eq_ok hadm).2.2.1
    cases hk : c.byPubkey.lookup pubkey with
    | some id =>
      have hknown : ¬ c.Unknown req := by
        rintro ⟨k, hkey, hnone⟩
        rw [hdec] at hkey
        rw [← Except.ok.inj hkey, hk] at hnone
        simp at hnone
      simp only [r, registerAuthenticated_known observed hadm hk]
      rcases refreshExisting_steps h id with ⟨err, hr⟩ | ⟨entry, hr, hs⟩ |
        ⟨entry, hr, hpid, hnet, hn, hre, hs⟩
      · exact ⟨[], by rw [hr]; exact .refl _, by simp, fun _ hu => absurd hu hknown⟩
      · exact ⟨[], hs, by simp, fun _ hu => absurd hu hknown⟩
      · refine ⟨_, hs, fun g hg => ⟨entry, .existed, by rw [hr]; rfl, ?_⟩, by simp⟩
        obtain rfl := List.mem_singleton.mp hg
        have halloc : c.Allocates req claims pubkey := by
          simpa only [Allocates, hk] using hre
        exact ⟨rfl, rfl, rfl, ⟨claims, pubkey, hadm, hnet.symm, fun _ => halloc, by simp⟩, by simp,
          fun _ => hn⟩
    | none =>
      simp only [r, registerAuthenticated_new observed hadm hk]
      have hev := c.evictStaleUlaHolder_steps amb req.requestedUla
      have hnone : (c.evictStaleUlaHolder amb req.requestedUla).roster.lookup amb.nowV7 = none ∧
          (c.evictStaleUlaHolder amb req.requestedUla).byPubkey.lookup pubkey = none :=
        evictStaleUlaHolder_lookup_none amb req.requestedUla hid hk
      rcases joinPeer_steps (hev.inv_quiet h) hnone.1 hnone.2 with ⟨err, hr⟩ |
        ⟨entry, hr, hres, hpid, hnet, hs⟩
      · refine ⟨[], by rw [hr]; exact hev, by simp, fun hok => ?_⟩
        rw [hr] at hok
        simp [Except.map, Except.isOk, Except.toBool] at hok
      · refine ⟨[⟨entry.peerId, entry.ula, entry.network, req.requestedUla.isNone⟩], ?_,
          fun g hg => ⟨entry, .created, by rw [hr]; rfl, ?_⟩, by simp⟩
        · rw [hr]
          exact (hev.trans hs).trans (Steps.persistRoster _ _)
        · obtain rfl := List.mem_singleton.mp hg
          have halloc : req.requestedUla.isNone = true → c.Allocates req claims pubkey := by
            intro hseq
            simpa only [Allocates, hk] using Option.isNone_iff_eq_none.mp hseq
          refine ⟨rfl, rfl, rfl, ⟨claims, pubkey, hadm, hnet.symm, halloc, fun _ => hk⟩, ?_, ?_⟩
          · intro hseq
            obtain ⟨raw, hraw⟩ := Option.isSome_iff_exists.mp (by simpa using hseq)
            exact ⟨raw, hraw, hres.requested raw hraw⟩
          · intro hseq
            have hn : req.requestedUla = none := by simpa using hseq
            have hnext := hres.next hn
            rw [hn] at hnext
            rw [hnet]
            exact hnext

theorem registerHandler_fst (c : Coordinator) (amb : Ambient) (req : RegisterRequest)
    (bearer : Option String) (observed : Option SocketAddr) :
    (c.registerHandler amb req bearer observed).1 =
      (c.registerAuthenticated amb req bearer observed).1 := by
  simp only [registerHandler]
  generalize c.registerAuthenticated amb req bearer observed = x
  obtain ⟨c', err | ⟨entry, outcome⟩⟩ := x <;> rfl

theorem registerHandler_eq_error {err : CoordinatorError}
    (h : (c.registerHandler amb req bearer observed).2 = .error err) :
    (c.registerAuthenticated amb req bearer observed).2 = .error err := by
  simp only [registerHandler] at h
  generalize c.registerAuthenticated amb req bearer observed = x at h
  obtain ⟨c', err' | ⟨entry, outcome⟩⟩ := x
  · exact congrArg Except.error (Except.error.inj h)
  · simp at h

theorem registerHandler_eq_ok {reg : Registered}
    (h : (c.registerHandler amb req bearer observed).2 = .ok reg) :
    (c.registerAuthenticated amb req bearer observed).2 = .ok (reg.entry, reg.outcome) ∧
      reg.response.peers = (c.registerAuthenticated amb req bearer observed).1.visiblePeers
        reg.entry.peerId reg.entry.tags := by
  simp only [registerHandler] at h
  generalize c.registerAuthenticated amb req bearer observed = x at h
  obtain ⟨c', err | ⟨entry, outcome⟩⟩ := x
  · simp at h
  · obtain rfl := Except.ok.inj h
    exact ⟨rfl, rfl⟩

theorem registerHandler_of_ok {entry : PeerEntry} {outcome : RegisterOutcome}
    (h : (c.registerAuthenticated amb req bearer observed).2 = .ok (entry, outcome)) :
    ∃ reg, (c.registerHandler amb req bearer observed).2 = .ok reg ∧ reg.entry = entry := by
  simp only [registerHandler]
  generalize c.registerAuthenticated amb req bearer observed = x at h
  obtain ⟨c', res⟩ := x
  subst h
  exact ⟨_, rfl, rfl⟩

variable (req bearer observed) in
theorem registerHandler_steps (h : c.toRosterState.Inv G) (hid : c.roster.lookup amb.nowV7 = none) :
    let r := c.registerHandler amb req bearer observed
    ∃ gs, Steps c.toRosterState gs r.1.toRosterState ∧
      (∀ g ∈ gs, ∃ reg, r.2 = .ok reg ∧ RegisterGrant c amb req bearer reg.entry g) ∧
      (r.2.isOk = true → c.Unknown req → gs ≠ []) := by
  intro r
  obtain ⟨gs, hs, hg, hnew⟩ := registerAuthenticated_steps amb req bearer observed h hid
  refine ⟨gs, by rw [registerHandler_fst]; exact hs, ?_, ?_⟩
  · intro g hgs
    obtain ⟨entry, outcome, hr, hgrant⟩ := hg g hgs
    obtain ⟨reg, hreg, rfl⟩ := registerHandler_of_ok hr
    exact ⟨reg, hreg, hgrant⟩
  · simp only [r, registerHandler]
    generalize c.registerAuthenticated amb req bearer observed = x at hnew
    obtain ⟨c', _ | ⟨entry, outcome⟩⟩ := x <;> exact hnew

omit [Crates] in
theorem sameSeat_roamedEntry (observedExternal : String) (wgListenPort : Option UInt16)
    (relayOnly : Bool) (e : PeerEntry) :
    SameSeat e (roamedEntry observedExternal wgListenPort relayOnly e) := by
  have hrefl := SameSeat.refl e
  unfold roamedEntry
  split
  · exact hrefl
  · split
    · exact hrefl
    · split
      · exact hrefl
      · simp only
        split
        · exact ⟨rfl, rfl, rfl, rfl, rfl, fun _ => resolveListenEndpoint_ne_empty _ _ _ _⟩
        · exact hrefl

theorem toRosterState_tryEmitHolepunchPair (now : Int) (a : PeerEntry) (c : Coordinator)
    (b : PeerEntry) : (tryEmitHolepunchPair now a c b).toRosterState = c.toRosterState := by
  unfold tryEmitHolepunchPair
  split
  · split <;> rfl
  · rfl

theorem toRosterState_tryEmitHolepunchPairs (c : Coordinator) (now : Int) (a : PeerEntry) :
    (c.tryEmitHolepunchPairs now a).toRosterState = c.toRosterState := by
  unfold tryEmitHolepunchPairs
  generalize c.roster.values.filter (fun e => e.peerId != a.peerId) = candidates
  induction candidates generalizing c with
  | nil => rfl
  | cons b candidates ih =>
    rw [List.foldl_cons, ih, toRosterState_tryEmitHolepunchPair]

omit [Crates] in
theorem seatsKept_modify (c : Coordinator) (id : Uuid) {f : PeerEntry → PeerEntry}
    (hf : ∀ e, SameSeat e (f e)) :
    SeatsKept c.toRosterState ({ c with roster := c.roster.modify id f } : Coordinator).toRosterState :=
  .touch .refl id f hf

end Coordinator

def beatenEntry (now : Nat) (observedExternal : String) (wgListenPort : Option UInt16)
    (hostedAppUlas : List String) (softwareVersion meshVersion : Option String) (relayOnly : Bool)
    (e : PeerEntry) : PeerEntry :=
  roamedEntry observedExternal wgListenPort relayOnly
    { e with
      lastHeartbeat := now
      observedExternal := observedExternal
      hostedAppUlas := hostedAppUlas
      softwareVersion := softwareVersion.or e.softwareVersion
      meshVersion := meshVersion.or e.meshVersion
      relayOnly := relayOnly }

def HeartbeatRequest.beaten (req : HeartbeatRequest) (now : Nat) (observed : Option SocketAddr) :
    PeerEntry → PeerEntry :=
  beatenEntry now ((observed.map SocketAddr.toString).getD "") req.wgListenPort req.hostedAppUlas
    req.softwareVersion req.meshVersion req.relayOnly

omit [Crates] in
theorem sameSeat_beatenEntry (now : Nat) (observedExternal : String) (wgListenPort : Option UInt16)
    (hostedAppUlas : List String) (softwareVersion meshVersion : Option String) (relayOnly : Bool)
    (e : PeerEntry) :
    SameSeat e (beatenEntry now observedExternal wgListenPort hostedAppUlas softwareVersion
      meshVersion relayOnly e) := by
  apply SameSeat.trans _ (Coordinator.sameSeat_roamedEntry observedExternal wgListenPort relayOnly _)
  exact ⟨rfl, rfl, rfl, rfl, rfl, fun h => h⟩

namespace Coordinator

variable (c : Coordinator) (amb : Ambient)

theorem heartbeat_eq {c : Coordinator} {id : Uuid} {e : PeerEntry} (observedExternal : String)
    (wgListenPort : Option UInt16) (hostedAppUlas : List String)
    (softwareVersion meshVersion : Option String) (relayOnly : Bool)
    (he : c.roster.lookup id = some e) :
    c.heartbeat amb id observedExternal wgListenPort hostedAppUlas softwareVersion meshVersion
        relayOnly =
      let beaten := beatenEntry amb.now observedExternal wgListenPort hostedAppUlas
        softwareVersion meshVersion relayOnly
      ((({ c with roster := c.roster.modify id beaten } : Coordinator).broadcast
          (.updated (beaten e).toInfo)).tryEmitHolepunchPairs amb.nowUnixMicros (beaten e),
        .ok (beaten e)) := by
  simp only [heartbeat, he, Option.isNone_some, Bool.false_eq_true, if_false,
    RosterState.applyPeerHeartbeat, Uuid.parseStr_toString, withRosterState,
    refreshReflexiveEndpoint, AList.modify_modify, AList.lookup_modify, if_true, Option.map_some]
  rfl

theorem heartbeat_unknown {c : Coordinator} {id : Uuid} (observedExternal : String)
    (wgListenPort : Option UInt16) (hostedAppUlas : List String)
    (softwareVersion meshVersion : Option String) (relayOnly : Bool)
    (he : c.roster.lookup id = none) :
    c.heartbeat amb id observedExternal wgListenPort hostedAppUlas softwareVersion meshVersion
      relayOnly = (c, .error (.unknownPeer id)) := by
  simp only [heartbeat, he, Option.isNone_none, if_true]

theorem recordReports_seatsKept (id : Uuid) (req : HeartbeatRequest) :
    SeatsKept c.toRosterState (c.recordReports id req).1.toRosterState := by
  have hpaths : SeatsKept c.toRosterState (c.recordPeerPaths id req.peerPaths).toRosterState := by
    unfold recordPeerPaths
    split
    · exact .refl
    · exact c.seatsKept_modify id (fun e => ⟨rfl, rfl, rfl, rfl, rfl, fun h => h⟩)
  have hack : ∀ c : Coordinator,
      SeatsKept c.toRosterState (c.ackCommands id req.executedCommandIds).toRosterState := by
    intro c
    unfold ackCommands
    split
    · exact .refl
    · exact c.seatsKept_modify id (fun e => ⟨rfl, rfl, rfl, rfl, rfl, fun h => h⟩)
  have hhealth : SeatsKept (c.recordPeerPaths id req.peerPaths).toRosterState
      ((c.recordPeerPaths id req.peerPaths).recordDataplaneHealth id
        req.dataplaneHealthy).toRosterState :=
    seatsKept_modify _ id (fun e => ⟨rfl, rfl, rfl, rfl, rfl, fun h => h⟩)
  exact ((hpaths.trans hhealth).trans (hack _)).trans
    (seatsKept_modify _ id (fun e => ⟨rfl, rfl, rfl, rfl, rfl, fun h => h⟩))

def beat (c : Coordinator) (amb : Ambient) (id : Uuid) (req : HeartbeatRequest)
    (observed : Option SocketAddr) (e : PeerEntry) : Coordinator :=
  (({ c with roster := c.roster.modify id (req.beaten amb.now observed) } : Coordinator).broadcast
    (.updated (req.beaten amb.now observed e).toInfo)).tryEmitHolepunchPairs amb.nowUnixMicros
    (req.beaten amb.now observed e)

theorem beat_seatsKept (id : Uuid) (req : HeartbeatRequest) (observed : Option SocketAddr)
    (e : PeerEntry) : SeatsKept c.toRosterState (c.beat amb id req observed e).toRosterState := by
  rw [beat, toRosterState_tryEmitHolepunchPairs]
  exact c.seatsKept_modify id (sameSeat_beatenEntry _ _ _ _ _ _ _)

theorem heartbeatHandler_eq {c : Coordinator} {id : Uuid} {e : PeerEntry} {req : HeartbeatRequest}
    (observed : Option SocketAddr) (hid : Uuid.parseStr req.peerId = .ok id)
    (he : c.roster.lookup id = some e) :
    c.heartbeatHandler amb req observed =
      let entry := req.beaten amb.now observed e
      let r := (c.beat amb id req observed e).recordReports entry.peerId req
      (r.1, .ok
        { peers := r.1.visiblePeers entry.peerId entry.tags
          observedIp := observed.map (fun o => o.ip.toString)
          observedEndpoint := entry.listenEndpoint
          pendingCommands := r.2 }) := by
  simp only [heartbeatHandler, hid, heartbeat_eq amb _ _ _ _ _ _ he]
  rfl

theorem heartbeatHandler_unknown {c : Coordinator} {id : Uuid} {req : HeartbeatRequest}
    (observed : Option SocketAddr) (hid : Uuid.parseStr req.peerId = .ok id)
    (he : c.roster.lookup id = none) :
    c.heartbeatHandler amb req observed = (c, .error (.unknownPeer id)) := by
  simp only [heartbeatHandler, hid, heartbeat_unknown amb _ _ _ _ _ _ he]

theorem heartbeatHandler_cases (req : HeartbeatRequest) (observed : Option SocketAddr) :
    (∃ err, c.heartbeatHandler amb req observed = (c, .error err)) ∨
      ∃ id e, Uuid.parseStr req.peerId = .ok id ∧ c.roster.lookup id = some e := by
  cases hid : Uuid.parseStr req.peerId with
  | error err =>
    simp only [heartbeatHandler, hid]
    exact .inl ⟨_, rfl⟩
  | ok id =>
    cases he : c.roster.lookup id with
    | none => exact .inl ⟨_, heartbeatHandler_unknown amb observed hid he⟩
    | some e => exact .inr ⟨id, e, rfl, he⟩

theorem heartbeatHandler_seatsKept (req : HeartbeatRequest) (observed : Option SocketAddr) :
    SeatsKept c.toRosterState (c.heartbeatHandler amb req observed).1.toRosterState := by
  rcases c.heartbeatHandler_cases amb req observed with ⟨err, hsame⟩ | ⟨id, e, hid, he⟩
  · rw [hsame]
    exact .refl
  · rw [heartbeatHandler_eq amb observed hid he]
    exact (c.beat_seatsKept amb id req observed e).trans (recordReports_seatsKept _ _ _)

theorem deregister_steps (id : Uuid) (reason : String) :
    Steps c.toRosterState [] (c.deregister amb id reason).1.toRosterState := by
  unfold deregister
  split
  · exact .refl _
  · simp only [toRosterState_persistRoster, departPeer, toRosterState_broadcast,
      toRosterState_applyPeerLeft]
    exact (Steps.without _ id).trans (Steps.persistRoster _ _)

theorem sweepOnce_steps : Steps c.toRosterState [] (c.sweepOnce amb).toRosterState := by
  refine c.sweepOnce_induction amb
    (P := fun c' => Steps c.toRosterState [] c'.toRosterState) (.refl _) ?_
  intro c' h id _
  exact h.trans (c'.deregister_steps amb id _)

theorem routeUplink_roster (now : Nat) (wallMicros : Int) (myPubkey buf : List UInt8) :
    (c.routeUplink now wallMicros myPubkey buf).1.toRosterState = c.toRosterState := by
  unfold routeUplink noteRelayPairForwarded wakeDestination
  dsimp only
  repeat' split
  all_goals rfl

end Coordinator

def Attests (s : Mesh) (op : Op) (reply : Reply) (g : Grant) : Prop :=
  ∃ amb req bearer observed r, op = .register amb req bearer observed ∧
    reply = .register (.ok r) ∧ RegisterGrant s.coordinator amb req bearer r.entry g

theorem Attests.grants {s : Mesh} {op : Op} {reply : Reply} {g : Grant}
    (h : Attests s op reply g) : reply.grants g.peerId g.ula := by
  obtain ⟨amb, req, bearer, observed, r, -, hr, hg⟩ := h
  exact ⟨r, hr, hg.peerId, hg.ula⟩

namespace Mesh

theorem step_seatsKept (s : Mesh) {op : Op} (h : op.savesNothing = true) :
    SeatsKept s.coordinator.toRosterState (s.step op).1.coordinator.toRosterState := by
  have hleaves := s.leaves op
  generalize (s.step op).1.coordinator = c at hleaves
  cases hleaves with
  | same | policy | flags | proactive | relay => exact .refl
  | heartbeat amb req observed => exact s.coordinator.heartbeatHandler_seatsKept amb req observed
  | command =>
    exact s.coordinator.seatsKept_modify _ (fun e => ⟨rfl, rfl, rfl, rfl, rfl, fun h => h⟩)
  | uplink =>
    rw [Coordinator.routeUplink_roster]
    exact .refl
  | reorder hp => exact SeatsKept.refl.reorder _ hp
  | register | deregister | sweep | restart => simp [Op.savesNothing] at h

/-- One operation other than a restart is a run of membership steps. -/
theorem step_steps {s : Mesh} (h : s.coordinator.toRosterState.Inv G) {op : Op}
    (hlive : ∀ cfg now file, op ≠ .restart cfg now file)
    (hfresh : ∀ amb req bearer observed, op = .register amb req bearer observed →
      s.coordinator.roster.lookup amb.nowV7 = none) :
    ∃ gs, Steps s.coordinator.toRosterState gs (s.step op).1.coordinator.toRosterState ∧
      ∀ g ∈ gs, Attests s op (s.step op).2 g := by
  have quiet : ∀ {s' : Mesh} {reply : Reply},
      Steps s.coordinator.toRosterState [] s'.coordinator.toRosterState →
      ∃ gs, Steps s.coordinator.toRosterState gs s'.coordinator.toRosterState ∧
        ∀ g ∈ gs, Attests s op reply g :=
    fun hs => ⟨[], hs, by simp⟩
  cases op with
  | register amb req bearer observed =>
    obtain ⟨gs, hs, hg, -⟩ := Coordinator.registerHandler_steps req bearer observed h
      (hfresh amb req bearer observed rfl)
    refine ⟨gs, hs, fun g hgs => ?_⟩
    obtain ⟨r, hr, hgrant⟩ := hg g hgs
    exact ⟨amb, req, bearer, observed, r, rfl, congrArg Reply.register hr, hgrant⟩
  | deregister amb peerId =>
    simp only [step, Coordinator.deregisterHandler]
    split
    · exact quiet (.refl _)
    · exact quiet (s.coordinator.deregister_steps amb _ _)
  | sweep amb => exact quiet (s.coordinator.sweepOnce_steps amb)
  | restart cfg now file => exact absurd rfl (hlive cfg now file)
  | _ => exact quiet (s.step_seatsKept rfl).steps

end Mesh

theorem inv_init (cfg : Config) : (Mesh.init cfg).coordinator.toRosterState.Inv G :=
  RosterState.inv_fresh (by simp)

/-- In a run, the roster invariant holds for any account of the grants that every grant made
along the run enters. -/
theorem rosterInv_of_run {cfg : Config} {C : Mesh → Op → Prop}
    {H : List (Op × Reply) → Uuid → Ipv6Addr → Prop}
    (hsub : ∀ {tr id ula}, H tr id ula → Granted tr id ula)
    (hmono : ∀ {x tr id ula}, H tr id ula → H (x :: tr) id ula)
    (hstep : ∀ {tr s op g}, (mesh cfg).Run C tr s → C s op → Attests s op (s.step op).2 g →
      H ((op, (s.step op).2) :: tr) g.peerId g.ula)
    {tr : List (Op × Reply)} {s : Mesh} (h : (mesh cfg).Run C tr s) :
    s.coordinator.toRosterState.Inv (H tr) := by
  refine Machine.Run.invariant (I := fun tr s => s.coordinator.toRosterState.Inv (H tr))
    (inv_init cfg) ?_ h
  intro tr s op hr hi hfresh hc
  have hnew : ∀ amb req bearer observed, op = .register amb req bearer observed →
      s.coordinator.roster.lookup amb.nowV7 = none := by
    rintro amb req bearer observed rfl
    exact hi.lookup_eq_none (fun ula hH => hfresh ula (hsub hH))
  by_cases hlive : ∀ cfg now file, op ≠ .restart cfg now file
  · obtain ⟨gs, hs, hatt⟩ := Mesh.step_steps hi hlive hnew
    refine (hs.inv hi).mono ?_
    rintro id ula (hG | ⟨g, hg, rfl, rfl⟩)
    · exact hmono hG
    · exact hstep hr hc (hatt g hg)
  · push Not at hlive
    obtain ⟨cfg', now, file, rfl⟩ := hlive
    exact (hi.restart now file).mono fun _ _ => hmono

end ServiceMesh
