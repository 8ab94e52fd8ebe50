import ServiceMesh.BroadcastLog

/-! The life of one roster entry: what a single operation can turn the entry of a given peer
into, whoever the operation is about. -/

namespace ServiceMesh

open StdNet (Ipv6Addr SocketAddr)

def SameStanding (e e' : PeerEntry) : Prop :=
  e' = { e with
    paths := e'.paths
    dataplaneHealthy := e'.dataplaneHealthy
    pendingCommands := e'.pendingCommands }

theorem SameStanding.refl (e : PeerEntry) : SameStanding e e := rfl

theorem SameStanding.identity {e e' : PeerEntry} (h : SameStanding e e') :
    e'.tags = e.tags ∧ e'.network = e.network := by
  rw [h]
  exact ⟨rfl, rfl⟩

theorem SameStanding.endpoint {e e' : PeerEntry} (h : SameStanding e e') :
    e'.relayOnly = e.relayOnly ∧ e'.listenEndpoint = e.listenEndpoint := by
  rw [h]
  exact ⟨rfl, rfl⟩

section

variable [Crates] {G : Uuid → Ipv6Addr → Prop}

structure Coordinator.Writes (c : Coordinator) (amb : Ambient) (req : RegisterRequest)
    (bearer : Option String) (observed : Option SocketAddr) (claims : Option ValidatedClaims)
    (e : PeerEntry) : Prop where
  admitted : ∃ pubkey, c.admission amb req bearer = .ok (claims, pubkey)
  tags : e.tags = (stampIdentity req claims).tags
  network : claims.isSome → e.network = (stampIdentity req claims).network
  relayOnly : e.relayOnly = req.relayOnly
  listenEndpoint : e.listenEndpoint = (req.resolved observed).endpoint
  lastHeartbeat : e.lastHeartbeat = amb.now

inductive EntryStep (c : Coordinator) (k : Uuid) :
    Op → Reply → Option PeerEntry → Option PeerEntry → Prop
  | absent (op : Op) (reply : Reply) : EntryStep c k op reply none none
  | removed {op : Op} {reply : Reply} (hop : op.savesNothing = false) (e : PeerEntry) :
      EntryStep c k op reply (some e) none
  | kept (op : Op) (reply : Reply) {e e' : PeerEntry} (h : SameStanding e e') :
      EntryStep c k op reply (some e) (some e')
  | beaten (amb : Ambient) {req : HeartbeatRequest} (observed : Option SocketAddr) (reply : Reply)
      {e e' : PeerEntry} (hk : Uuid.parseStr req.peerId = .ok k)
      (h : SameStanding (req.beaten amb.now observed e) e') :
      EntryStep c k (.heartbeat amb req observed) reply (some e) (some e')
  | registered {amb : Ambient} {req : RegisterRequest} {bearer : Option String}
      {observed : Option SocketAddr} {claims : Option ValidatedClaims} {r : Registered}
      (before : Option PeerEntry) (hk : r.entry.peerId = k)
      (h : c.Writes amb req bearer observed claims r.entry) :
      EntryStep c k (.register amb req bearer observed) (.register (.ok r)) before (some r.entry)

namespace EntryStep

variable {c : Coordinator} {k : Uuid}

theorem same (c : Coordinator) (k : Uuid) (op : Op) (reply : Reply) (o : Option PeerEntry) :
    EntryStep c k op reply o o := by
  cases o with
  | none => exact .absent op reply
  | some e => exact .kept op reply (.refl e)

theorem erased {op : Op} (reply : Reply) (hop : op.savesNothing = false) (o : Option PeerEntry) :
    EntryStep c k op reply o none := by
  cases o with
  | none => exact .absent op reply
  | some e => exact .removed hop e

theorem erased_or_same {op : Op} (reply : Reply) (hop : op.savesNothing = false)
    {o o' : Option PeerEntry} (h : o' = none ∨ o' = o) : EntryStep c k op reply o o' := by
  rcases h with rfl | rfl
  · exact erased reply hop o
  · exact same c k op reply o'

theorem touched (op : Op) (reply : Reply) (o : Option PeerEntry) {f : PeerEntry → PeerEntry}
    (hf : ∀ e, SameStanding e (f e)) : EntryStep c k op reply o (o.map f) := by
  cases o with
  | none => exact .absent op reply
  | some e => exact .kept op reply (hf e)

end EntryStep

omit [Crates] in
theorem RosterState.roster_resolveUla {m m' : RosterState} {network : String}
    {requestedUla : Option String} {idx : UInt16} {ula : Ipv6Addr}
    (h : m.resolveUla network requestedUla = .ok (m', idx, ula)) : m'.roster = m.roster := by
  cases requestedUla with
  | none =>
    simp only [resolveUla] at h
    cases ha : m.allocator.allocate network with
    | error e => simp [ha] at h
    | ok r =>
      obtain ⟨allocator, i, addr⟩ := r
      simp only [ha, Except.ok.injEq, Prod.mk.injEq] at h
      rw [← h.1]
  | some raw =>
    simp only [resolveUla] at h
    split at h
    · cases h
    · split at h
      · cases h
      · split at h
        · cases h
        · split at h
          · cases h
          · simp only [Except.ok.injEq, Prod.mk.injEq] at h
            rw [← h.1]

namespace Coordinator

theorem evictStaleUlaHolder_lookup (c : Coordinator) (amb : Ambient) (requestedUla : Option String)
    (k : Uuid) :
    (c.evictStaleUlaHolder amb requestedUla).roster.lookup k = none ∨
      (c.evictStaleUlaHolder amb requestedUla).roster.lookup k = c.roster.lookup k := by
  rcases c.evictStaleUlaHolder_cases amb requestedUla with ⟨-, h⟩ | ⟨id, -, h⟩
  · rw [h]
    exact .inr rfl
  · rw [h, RosterState.roster_persistRoster, RosterState.roster_lookup_without]
    split
    · exact .inl rfl
    · exact .inr rfl

theorem roster_persistRoster (c : Coordinator) (saved : Bool) :
    (c.persistRoster saved).roster = c.roster :=
  RosterState.roster_persistRoster _ _

theorem lookup_seat {c : Coordinator} {first : PeerEntry} (f : PeerEntry → PeerEntry) (k : Uuid) :
    (c.seat first f).roster.lookup k =
      if k = first.peerId then some (f first) else c.roster.lookup k := by
  change ((c.roster.insert first.peerId first).modify first.peerId f).lookup k = _
  rw [AList.lookup_modify, AList.lookup_insert_eq_ite]
  split <;> rfl

variable {c : Coordinator} {amb : Ambient} {req : RegisterRequest} {bearer : Option String}
  {observed : Option SocketAddr}

omit [Crates] in
theorem firstEntry_listenEndpoint [Crates] (claims : Option ValidatedClaims) (pubkey : List UInt8)
    (ula : Ipv6Addr) :
    (firstEntry amb req claims pubkey (req.resolved observed) ula).listenEndpoint =
      (req.resolved observed).endpoint := by
  have hne : (req.resolved observed).endpoint ≠ some "" := resolveListenEndpoint_ne_empty _ _ _ _
  change (if (req.resolved observed).endpoint.getD "" = "" then none
    else some ((req.resolved observed).endpoint.getD "")) = _
  cases hend : (req.resolved observed).endpoint with
  | none => rfl
  | some text =>
    rw [hend] at hne
    exact if_neg (fun hc => hne (congrArg some hc))

namespace Registers

variable {r : Coordinator × Except CoordinatorError (PeerEntry × RegisterOutcome)}

theorem writes (hr : c.Registers amb req bearer observed r) {entry : PeerEntry}
    {outcome : RegisterOutcome} (hans : r.2 = .ok (entry, outcome)) :
    ∃ claims, c.Writes amb req bearer observed claims entry := by
  cases hr with
  | refused | exhausted | turnedAway => simp at hans
  | @refreshed claims pubkey id old hadm hk hold hstay =>
    obtain ⟨rfl, -⟩ := Prod.mk.inj (Except.ok.inj hans)
    refine ⟨claims, ⟨pubkey, hadm⟩, rfl, ?_, rfl, rfl, rfl⟩
    intro hclaims
    by_contra hne
    exact hstay ⟨hclaims, fun hsame => hne hsame.symm⟩
  | @moved claims pubkey id old allocator idx ula hadm hk hold hmove ha =>
    obtain ⟨rfl, -⟩ := Prod.mk.inj (Except.ok.inj hans)
    exact ⟨claims, ⟨pubkey, hadm⟩, rfl, fun _ => rfl, rfl, rfl, rfl⟩
  | @joined claims pubkey ula hadm hk hres =>
    obtain ⟨rfl, -⟩ := Prod.mk.inj (Except.ok.inj hans)
    exact ⟨claims, ⟨pubkey, hadm⟩, rfl, fun _ => rfl, rfl, firstEntry_listenEndpoint _ _ _, rfl⟩

theorem answers (hr : c.Registers amb req bearer observed r) (h : c.toRosterState.Inv G)
    {entry : PeerEntry} {outcome : RegisterOutcome} (hans : r.2 = .ok (entry, outcome)) :
    entry.peerId = amb.nowV7 ∨ ∃ claims pubkey, c.admission amb req bearer = .ok (claims, pubkey) ∧
      c.byPubkey.lookup pubkey = some entry.peerId ∧ entry.tags = (stampIdentity req claims).tags := by
  cases hr with
  | refused | exhausted | turnedAway => simp at hans
  | @refreshed claims pubkey id old hadm hk hold hstay =>
    obtain ⟨rfl, -⟩ := Prod.mk.inj (Except.ok.inj hans)
    have hid : old.peerId = id := h.keyed hold
    exact .inr ⟨claims, pubkey, hadm, hid ▸ hk, rfl⟩
  | @moved claims pubkey id old allocator idx ula hadm hk hold hmove ha =>
    obtain ⟨rfl, -⟩ := Prod.mk.inj (Except.ok.inj hans)
    have hid : old.peerId = id := h.keyed hold
    exact .inr ⟨claims, pubkey, hadm, hid ▸ hk, rfl⟩
  | joined =>
    obtain ⟨rfl, -⟩ := Prod.mk.inj (Except.ok.inj hans)
    exact .inl rfl

theorem keeps_key (hr : c.Registers amb req bearer observed r) (h : c.toRosterState.Inv G)
    {entry : PeerEntry} {outcome : RegisterOutcome} (hans : r.2 = .ok (entry, outcome)) :
    ∃ claims pubkey, c.admission amb req bearer = .ok (claims, pubkey) ∧
      entry.wgPublicKey = pubkey ∧
      (c.byPubkey.lookup pubkey = some entry.peerId ∨
        c.byPubkey.lookup pubkey = none ∧ entry.peerId = amb.nowV7) := by
  cases hr with
  | refused | exhausted | turnedAway => simp at hans
  | @refreshed claims pubkey id old hadm hk hold hstay =>
    obtain ⟨rfl, -⟩ := Prod.mk.inj (Except.ok.inj hans)
    obtain ⟨e, he, hkey⟩ := h.index.mp hk
    obtain rfl := Option.some.inj (hold.symm.trans he)
    have hid : old.peerId = id := h.keyed hold
    exact ⟨claims, pubkey, hadm, hkey, .inl (hid ▸ hk)⟩
  | @moved claims pubkey id old allocator idx ula hadm hk hold hmove ha =>
    obtain ⟨rfl, -⟩ := Prod.mk.inj (Except.ok.inj hans)
    obtain ⟨e, he, hkey⟩ := h.index.mp hk
    obtain rfl := Option.some.inj (hold.symm.trans he)
    have hid : old.peerId = id := h.keyed hold
    exact ⟨claims, pubkey, hadm, hkey, .inl (hid ▸ hk)⟩
  | @joined claims pubkey ula hadm hk hres =>
    obtain ⟨rfl, -⟩ := Prod.mk.inj (Except.ok.inj hans)
    exact ⟨claims, pubkey, hadm, rfl, .inr ⟨hk, rfl⟩⟩

theorem others (hr : c.Registers amb req bearer observed r) (h : c.toRosterState.Inv G) {k : Uuid}
    (hk : ∀ entry outcome, r.2 = .ok (entry, outcome) → entry.peerId ≠ k) :
    r.1.roster.lookup k = none ∨ r.1.roster.lookup k = c.roster.lookup k := by
  cases hr with
  | refused | exhausted => exact .inr rfl
  | @refreshed claims pubkey id old hadm hkey hold hstay =>
    have hne : k ≠ id := fun hc => hk _ _ rfl ((h.keyed hold).trans hc.symm)
    exact .inr ((AList.lookup_modify _ _ _ _).trans (if_neg hne))
  | @moved claims pubkey id old allocator idx ula hadm hkey hold hmove ha =>
    have hne : k ≠ id := fun hc => hk _ _ rfl ((h.keyed hold).trans hc.symm)
    rw [roster_persistRoster]
    exact .inr ((AList.lookup_modify _ _ _ _).trans (if_neg hne))
  | turnedAway => exact c.evictStaleUlaHolder_lookup amb req.requestedUla k
  | @joined claims pubkey ula hadm hkey hres =>
    have hne : k ≠ (firstEntry amb req claims pubkey (req.resolved observed) ula).peerId :=
      fun hc => hk _ _ rfl hc.symm
    rw [roster_persistRoster, lookup_seat, if_neg hne]
    exact c.evictStaleUlaHolder_lookup amb req.requestedUla k

end Registers

theorem registerHandler_entry (h : c.toRosterState.Inv G) (k : Uuid) :
    EntryStep c k (.register amb req bearer observed)
      (.register (c.registerHandler amb req bearer observed).2) (c.roster.lookup k)
      ((c.registerHandler amb req bearer observed).1.roster.lookup k) := by
  have hr := registers amb req bearer observed h
  by_cases hk : ∃ reg, (c.registerHandler amb req bearer observed).2 = .ok reg ∧
      reg.entry.peerId = k
  · obtain ⟨reg, hans, rfl⟩ := hk
    obtain ⟨claims, hwrites⟩ := hr.writes (registerHandler_eq_ok hans).1
    rw [registerHandler_lookup amb req observed bearer h hans, hans]
    exact .registered _ rfl hwrites
  · rw [registerHandler_fst]
    refine .erased_or_same _ rfl (hr.others h ?_)
    intro entry outcome hans hid
    obtain ⟨reg, hreg, rfl⟩ := registerHandler_of_ok hans
    exact hk ⟨reg, hreg, hid⟩

def reported (req : HeartbeatRequest) (e : PeerEntry) : PeerEntry :=
  { e with
    paths := pathEdges req.peerPaths
    dataplaneHealthy := req.dataplaneHealthy
    pendingCommands := [] }

theorem recordReports_eq {c : Coordinator} {id : Uuid} {e : PeerEntry} (req : HeartbeatRequest)
    (he : c.roster.lookup id = some e) :
    (c.recordReports id req).1.roster = c.roster.modify id (reported req) ∧
      (c.recordReports id req).2 =
        e.pendingCommands.filter (fun cmd => cmd.commandId ∉ req.executedCommandIds) := by
  simp only [recordReports, drainCommands, ackCommands, recordDataplaneHealth, recordPeerPaths, he,
    Option.isNone_some, Bool.false_eq_true, if_false]
  split
  · rename_i hack
    rw [List.isEmpty_iff] at hack
    simp [AList.lookup_modify, AList.modify_modify, he, hack]
    rfl
  · simp [AList.lookup_modify, AList.modify_modify, he]
    rfl

theorem heartbeatHandler_roster {c : Coordinator} (h : c.toRosterState.Inv G) {id : Uuid}
    {e : PeerEntry} (amb : Ambient) {req : HeartbeatRequest} (observed : Option SocketAddr)
    (hid : Uuid.parseStr req.peerId = .ok id) (he : c.roster.lookup id = some e) :
    (c.heartbeatHandler amb req observed).1.roster =
      c.roster.modify id (fun e => reported req (req.beaten amb.now observed e)) := by
  have hpid : (req.beaten amb.now observed e).peerId = id :=
    (sameSeat_beatenEntry _ _ _ _ _ _ _ e).peerId.trans (h.keyed he)
  rw [heartbeatHandler_eq amb observed hid he]
  simp only [hpid, (recordReports_eq req (lookup_beat amb req observed he)).1]
  rw [beat, toRosterState_tryEmitHolepunchPairs]
  exact AList.modify_modify _ _ _ _

theorem heartbeatHandler_entry {c : Coordinator} (h : c.toRosterState.Inv G) (amb : Ambient)
    (req : HeartbeatRequest) (observed : Option SocketAddr) (reply : Reply) (k : Uuid) :
    EntryStep c k (.heartbeat amb req observed) reply (c.roster.lookup k)
      ((c.heartbeatHandler amb req observed).1.roster.lookup k) := by
  rcases c.heartbeatHandler_cases amb req observed with ⟨err, hsame⟩ | ⟨id, e, hid, he⟩
  · rw [hsame]
    exact .same c k _ reply _
  · rw [heartbeatHandler_roster h amb observed hid he, AList.lookup_modify]
    by_cases hk : k = id
    · subst hk
      rw [if_pos rfl, he]
      exact .beaten amb observed reply hid rfl
    · rw [if_neg hk]
      exact .same c k _ reply _

theorem deregister_lookup (c : Coordinator) (amb : Ambient) (id : Uuid) (reason : String)
    (k : Uuid) :
    (c.deregister amb id reason).1.roster.lookup k = none ∨
      (c.deregister amb id reason).1.roster.lookup k = c.roster.lookup k := by
  unfold deregister
  split
  · exact .inr rfl
  · rw [roster_persistRoster, departPeer, toRosterState_broadcast, toRosterState_applyPeerLeft,
      RosterState.roster_lookup_without]
    split
    · exact .inl rfl
    · exact .inr rfl

theorem sweepOnce_lookup (c : Coordinator) (amb : Ambient) (k : Uuid) :
    (c.sweepOnce amb).roster.lookup k = none ∨
      (c.sweepOnce amb).roster.lookup k = c.roster.lookup k := by
  refine c.sweepOnce_induction amb
    (P := fun c' => c'.roster.lookup k = none ∨ c'.roster.lookup k = c.roster.lookup k) ?_ ?_
  · exact .inr rfl
  · intro c' h id _
    rcases c'.deregister_lookup amb id "heartbeat_timeout" k with hgone | hsame
    · exact .inl hgone
    · rw [hsame]
      exact h

end Coordinator

theorem Mesh.step_grantedId {s : Mesh} {op : Op} {id : Uuid}
    (h : (s.step op).2.grantedId = some id) :
    ∃ amb req bearer observed r, op = .register amb req bearer observed ∧
      (s.step op).2 = .register (.ok r) ∧ r.entry.peerId = id := by
  cases op with
  | register amb req bearer observed =>
    obtain ⟨ula, r, hr, hid, -⟩ := Reply.grantedId_eq_some_iff.mp h
    exact ⟨amb, req, bearer, observed, r, rfl, hr, hid⟩
  | openStream peerId =>
    cases peerId with
    | none => cases h
    | some peerId =>
      simp only [step] at h
      split at h <;> cases h
  | pollStream handle =>
    simp only [step, pollStream] at h
    split at h <;> cases h
  | relayConnect now pubkey lane =>
    simp only [step, relayConnect] at h
    split at h <;> cases h
  | relayUplink | relayDeliver | relaySendEnd | relayDisconnect =>
    simp only [step, withSocket] at h
    split at h <;> cases h
  | _ => cases h

omit [Crates] in
theorem Op.Live.of_savesNothing {op : Op} (h : op.savesNothing = true) : op.Live := by
  cases op <;> trivial

theorem Mesh.step_entry {s : Mesh} (h : s.coordinator.toRosterState.Inv G) {op : Op}
    (hlive : op.Live) (k : Uuid) :
    EntryStep s.coordinator k op (s.step op).2 (s.coordinator.roster.lookup k)
      ((s.step op).1.coordinator.roster.lookup k) := by
  have hleaves := s.leaves op
  have hregister : ∀ amb req bearer observed, op = .register amb req bearer observed →
      EntryStep s.coordinator k op (s.step op).2 (s.coordinator.roster.lookup k)
        ((s.coordinator.registerHandler amb req bearer observed).1.roster.lookup k) := by
    rintro amb req bearer observed rfl
    exact Coordinator.registerHandler_entry h k
  generalize (s.step op).2 = reply at hregister ⊢
  generalize (s.step op).1.coordinator = c at hleaves ⊢
  cases hleaves with
  | same | flags | proactive | relay | policy => exact .same _ k _ reply _
  | register amb req bearer observed => exact hregister amb req bearer observed rfl
  | heartbeat amb req observed => exact Coordinator.heartbeatHandler_entry h amb req observed _ k
  | deregister amb hid => exact .erased_or_same _ rfl (s.coordinator.deregister_lookup amb _ _ k)
  | sweep amb => exact .erased_or_same _ rfl (s.coordinator.sweepOnce_lookup amb k)
  | command peerId command id =>
    change EntryStep _ _ _ _ _ ((s.coordinator.roster.modify id _).lookup k)
    rw [AList.lookup_modify]
    split
    · exact .touched _ _ _ (fun e => rfl)
    · exact .same _ k _ _ _
  | uplink =>
    rw [Coordinator.routeUplink_roster]
    exact .same _ k _ _ _
  | reorder hp =>
    change EntryStep _ _ _ _ _ ((s.coordinator.roster.reorder _ hp).lookup k)
    rw [AList.lookup_reorder]
    exact .same _ k _ _ _
  | restart => exact hlive.elim

structure RosterState.Every (P : PeerEntry → Prop) (m : RosterState) : Prop where
  entry : ∀ {id e}, m.roster.lookup id = some e → P e
  saved : ∀ peers ∈ m.rosterStore, ∀ event ∈ peers, ∃ e, P e ∧ event = e.toJoinedEvent

namespace RosterState.Every

variable {P : PeerEntry → Prop} {m m' : RosterState}

theorem of_lookup (h : m.Every P) (hstore : m'.rosterStore = m.rosterStore)
    (hlook : ∀ {k e}, m'.roster.lookup k = some e → P e ∨ m.roster.lookup k = some e) :
    m'.Every P where
  entry := by
    intro k e he
    rcases hlook he with hP | hold
    · exact hP
    · exact h.entry hold
  saved := by
    rw [hstore]
    exact h.saved

theorem set (h : m.Every P) (hstore : m'.rosterStore = m.rosterStore) {id : Uuid} {e : PeerEntry}
    (hP : P e) (hlook : ∀ k, m'.roster.lookup k = if k = id then some e else m.roster.lookup k) :
    m'.Every P := by
  refine h.of_lookup hstore ?_
  intro k x hx
  rw [hlook] at hx
  by_cases hk : k = id
  · rw [if_pos hk] at hx
    exact .inl (Option.some.inj hx ▸ hP)
  · rw [if_neg hk] at hx
    exact .inr hx

theorem without (h : m.Every P) (id : Uuid) : (m.without id).Every P := by
  refine h.of_lookup (rosterStore_without m id) ?_
  intro k e he
  rw [roster_lookup_without] at he
  split at he
  · cases he
  · exact .inr he

theorem persistRoster (h : m.Every P) (saved : Bool) : (m.persistRoster saved).Every P := by
  cases saved with
  | false => exact h
  | true =>
    refine ⟨h.entry, ?_⟩
    intro peers hpeers
    rcases List.mem_cons.mp hpeers with rfl | hpeers
    · intro event hevent
      obtain ⟨e, he, rfl⟩ := List.mem_map.mp hevent
      obtain ⟨id, hid⟩ := AList.mem_values_iff.mp he
      exact ⟨e, h.entry hid, rfl⟩
    · exact h.saved peers hpeers

theorem restart (h : m.Every P) (hinv : m.Inv G) {now : Nat}
    (hrestored : ∀ e id ula, P e → P (joinedEntry e.toJoinedEvent id ula now)) (file : Option Nat) :
    (m.restart now file).Every P where
  entry := by
    intro id e he
    obtain ⟨l, -, -, hload, hfrom⟩ := hinv.restart_restoredFrom now file
    obtain ⟨x, hx, -, rfl⟩ := hfrom.roster.mp he
    have hevent : x.toJoinedEvent ∈ m.load file := by
      rw [hload]
      exact List.mem_map_of_mem hx
    have hsaved : ∃ peers ∈ m.rosterStore, x.toJoinedEvent ∈ peers := by
      unfold load at hevent
      cases hfile : file.bind (fun k => m.rosterStore[k]?) with
      | none => simp [hfile] at hevent
      | some peers =>
        obtain ⟨k, -, hk⟩ := Option.bind_eq_some_iff.mp hfile
        exact ⟨peers, List.mem_of_getElem? hk, by simpa [hfile] using hevent⟩
    obtain ⟨peers, hpeers, hmem⟩ := hsaved
    obtain ⟨old, hP, hold⟩ := h.saved peers hpeers _ hmem
    rw [restoredEntry, hold]
    exact hrestored old x.peerId x.ula hP
  saved := by
    rw [RosterState.restart, rosterStore_restoreEvents]
    exact h.saved

end RosterState.Every

namespace Coordinator

variable {P : PeerEntry → Prop} {c : Coordinator} {amb : Ambient}

theorem evictStaleUlaHolder_every (h : c.toRosterState.Every P) (requestedUla : Option String) :
    (c.evictStaleUlaHolder amb requestedUla).toRosterState.Every P := by
  rcases c.evictStaleUlaHolder_cases amb requestedUla with ⟨-, he⟩ | ⟨id, -, he⟩
  · rw [he]
    exact h
  · rw [he]
    exact (h.without id).persistRoster _

theorem Registers.every {req : RegisterRequest} {bearer : Option String}
    {observed : Option SocketAddr}
    {r : Coordinator × Except CoordinatorError (PeerEntry × RegisterOutcome)}
    (hr : c.Registers amb req bearer observed r) (h : c.toRosterState.Every P)
    (hans : ∀ entry outcome, r.2 = .ok (entry, outcome) → P entry) : r.1.toRosterState.Every P := by
  have modified : ∀ {id : Uuid} {old : PeerEntry} (f : PeerEntry → PeerEntry),
      c.roster.lookup id = some old → ∀ k,
      (c.roster.modify id f).lookup k = if k = id then some (f old) else c.roster.lookup k := by
    intro id old f hold k
    rw [AList.lookup_modify]
    by_cases hk : k = id
    · rw [if_pos hk, if_pos hk, hk, hold]
      rfl
    · rw [if_neg hk, if_neg hk]
  cases hr with
  | refused | exhausted => exact h
  | refreshed hadm hk hold hstay => exact h.set rfl (hans _ _ rfl) (modified _ hold)
  | @moved claims pubkey id old allocator idx ula hadm hk hold hmove ha =>
    have hset : (c.moveAt id allocator (req.moved claims observed amb.now ula idx)
        old).toRosterState.Every P := h.set rfl (hans _ _ rfl) (modified _ hold)
    exact hset.persistRoster _
  | turnedAway => exact evictStaleUlaHolder_every h req.requestedUla
  | @joined claims pubkey ula hadm hk hres =>
    have hset : ((c.evictStaleUlaHolder amb req.requestedUla).seat
        (firstEntry amb req claims pubkey (req.resolved observed) ula)
        (seedReflexive (req.resolved observed) observed)).toRosterState.Every P :=
      (evictStaleUlaHolder_every h req.requestedUla).set rfl (hans _ _ rfl) (lookup_seat _)
    exact hset.persistRoster _

theorem deregister_every (h : c.toRosterState.Every P) (id : Uuid) (reason : String) :
    (c.deregister amb id reason).1.toRosterState.Every P := by
  unfold deregister
  split
  · exact h
  · rw [toRosterState_persistRoster, departPeer, toRosterState_broadcast,
      toRosterState_applyPeerLeft]
    exact (h.without id).persistRoster _

theorem sweepOnce_every (h : c.toRosterState.Every P) : (c.sweepOnce amb).toRosterState.Every P := by
  refine c.sweepOnce_induction amb (P := fun c => c.toRosterState.Every P) h ?_
  intro c' h id _
  exact deregister_every h id _

end Coordinator

theorem Mesh.step_every {P : PeerEntry → Prop} {s : Mesh} (hinv : s.coordinator.toRosterState.Inv G)
    (h : s.coordinator.toRosterState.Every P) {op : Op}
    (hkept : ∀ e e', SameStanding e e' → P e → P e')
    (hwrites : ∀ amb req bearer observed claims e, op = .register amb req bearer observed →
      s.coordinator.Writes amb req bearer observed claims e → P e)
    (hbeaten : ∀ amb req observed id e, op = .heartbeat amb req observed →
      Uuid.parseStr req.peerId = .ok id → s.coordinator.roster.lookup id = some e → P e →
      P (req.beaten amb.now observed e))
    (hrestored : ∀ now e id ula, P e → P (RosterState.joinedEntry e.toJoinedEvent id ula now)) :
    (s.step op).1.coordinator.toRosterState.Every P := by
  by_cases hop : op.savesNothing = true
  · refine h.of_lookup (s.step_seatsKept hop).rosterStore ?_
    intro k e he
    have hentry := s.step_entry hinv (.of_savesNothing hop) k
    rw [he] at hentry
    generalize hbefore : s.coordinator.roster.lookup k = before at hentry
    generalize (s.step op).2 = reply at hentry
    left
    cases hentry with
    | kept _ _ hsame => exact hkept _ _ hsame (h.entry hbefore)
    | beaten amb observed _ hk hsame =>
      exact hkept _ _ hsame (hbeaten _ _ _ _ _ rfl hk hbefore (h.entry hbefore))
    | registered => cases hop
  · cases op with
    | register amb req bearer observed =>
      have hr := Coordinator.registers amb req bearer observed hinv
      have hevery := hr.every h (fun entry outcome hans => by
        obtain ⟨claims, hw⟩ := hr.writes hans
        exact hwrites _ _ _ _ _ _ rfl hw)
      rw [← Coordinator.registerHandler_fst] at hevery
      exact hevery
    | deregister amb peerId =>
      simp only [step, Coordinator.deregisterHandler]
      split
      · exact h
      · exact Coordinator.deregister_every h _ _
    | sweep amb => exact Coordinator.sweepOnce_every h
    | restart cfg now file => exact h.restart hinv (hrestored now) file
    | _ => cases hop rfl

end

end ServiceMesh
