import ServiceMesh.SeatsInvariant

/-! What the pieces of a register can do, one lemma for each: the eviction of a stale holder,
the resolution of an address, a join, a refresh. -/

namespace ServiceMesh

open StdNet (Ipv6Addr SocketAddr)

variable [Crates] {G : Uuid → Ipv6Addr → Prop}

namespace RosterState

def without (m : RosterState) (id : Uuid) : RosterState :=
  match m.roster.lookup id with
  | none => m
  | some e =>
    { m with roster := m.roster.erase id, byPubkey := m.byPubkey.erase e.wgPublicKey }

variable (m : RosterState)

theorem Steps.without (id : Uuid) : Steps m [] (m.without id) := by
  unfold RosterState.without
  cases he : m.roster.lookup id with
  | none => exact .refl m
  | some e => exact .single (.leave he)

theorem Steps.persistRoster (saved : Bool) : Steps m [] (m.persistRoster saved) := by
  cases saved with
  | false => exact .refl m
  | true => exact .single .save

theorem roster_persistRoster (saved : Bool) : (m.persistRoster saved).roster = m.roster := by
  cases saved <;> rfl

theorem byPubkey_persistRoster (saved : Bool) : (m.persistRoster saved).byPubkey = m.byPubkey := by
  cases saved <;> rfl

omit [Crates] in
theorem rosterStore_without (id : Uuid) : (m.without id).rosterStore = m.rosterStore := by
  unfold RosterState.without
  split <;> rfl

omit [Crates] in
theorem roster_lookup_without (id k : Uuid) :
    (m.without id).roster.lookup k = if k = id then none else m.roster.lookup k := by
  unfold RosterState.without
  cases he : m.roster.lookup id with
  | none =>
    by_cases hk : k = id
    · subst hk
      simpa using he
    · simp [hk]
  | some e => exact AList.lookup_erase_eq_ite _ _ _

omit [Crates] in
theorem byPubkey_lookup_without {m : RosterState} (id : Uuid) {k : List UInt8}
    (h : m.byPubkey.lookup k = none) : (m.without id).byPubkey.lookup k = none := by
  unfold RosterState.without
  cases he : m.roster.lookup id with
  | none => exact h
  | some e =>
    change (m.byPubkey.erase e.wgPublicKey).lookup k = none
    rw [AList.lookup_erase_eq_ite, h, ite_self]

omit [Crates] in
theorem NextUla.slotBound {m : RosterState} {network : String} {ula : Ipv6Addr}
    (h : m.NextUla network ula) : SlotBound ula network := by
  obtain ⟨idx, -, rfl⟩ := h.addressFor
  exact fun _ _ => rfl

omit [Crates] in
theorem NextUla.uniqueLocal {m : RosterState} {network : String} {ula : Ipv6Addr}
    (h : m.NextUla network ula) : isUniqueLocal ula = true := by
  obtain ⟨idx, -, rfl⟩ := h.addressFor
  exact isUniqueLocal_addressFor _ _

structure Resolved (m : RosterState) (network : String) (requestedUla : Option String)
    (ula : Ipv6Addr) : Prop where
  free : ∀ x ∈ m.roster.values, x.ula ≠ ula
  uniqueLocal : isUniqueLocal ula = true
  slotBound : SlotBound ula network
  requested : ∀ raw, requestedUla = some raw → Ipv6Addr.parse raw = some ula
  next : requestedUla = none → m.NextUla network ula

theorem Inv.resolved_of_eq_ok {m m' : RosterState} (h : m.Inv G) {network : String}
    {requestedUla : Option String} {idx : UInt16} {ula : Ipv6Addr}
    (hr : m.resolveUla network requestedUla = .ok (m', idx, ula)) :
    m' = { m with allocator := m.allocator.bumpSlotAtLeast ula.seg2 ula.seg3 } ∧
      m.Resolved network requestedUla ula := by
  cases requestedUla with
  | none =>
    simp only [resolveUla] at hr
    cases ha : m.allocator.allocate network with
    | error e => simp [ha] at hr
    | ok r =>
      obtain ⟨allocator, i, addr⟩ := r
      simp only [ha, Except.ok.injEq, Prod.mk.injEq] at hr
      obtain ⟨rfl, rfl, rfl⟩ := hr
      have hn : m.NextUla network addr := ⟨allocator, i, ha⟩
      obtain ⟨-, -, rfl, rfl⟩ := UlaAllocator.allocateInSlot_eq_ok ha
      refine ⟨rfl, ?_, hn.uniqueLocal, hn.slotBound, fun _ hc => by simp at hc, fun _ => hn⟩
      intro x hx
      obtain ⟨k, hk⟩ := AList.mem_values_iff.mp hx
      exact h.nextUla_free hn hk
  | some raw =>
    simp only [resolveUla] at hr
    cases hp : Ipv6Addr.parse raw with
    | none => simp [hp] at hr
    | some addr =>
      simp only [hp] at hr
      by_cases hul : isUniqueLocal addr = true
      case neg => simp [hul] at hr
      by_cases hnet : (addr.seg1 == hostUlaSlot && !isFixedInfraUla addr &&
          addr.seg2 != networkSlot network) = true
      · simp [hul, hnet] at hr
      by_cases hheld : m.roster.values.any (fun e => e.ula == addr) = true
      · simp [hul, hnet, hheld] at hr
      simp only [hul, Bool.not_true, Bool.false_eq_true, if_false, hnet, hheld, Except.ok.injEq,
        Prod.mk.injEq] at hr
      obtain ⟨rfl, rfl, rfl⟩ := hr
      refine ⟨rfl, ?_, hul, ?_, fun r hr => ?_, fun hc => by simp at hc⟩
      · intro x hx hc
        exact hheld (List.any_eq_true.mpr ⟨x, hx, by simp [hc]⟩)
      · intro hhost hfix
        by_contra hne
        exact hnet (by simp [hhost, hfix, hne])
      · rw [← Option.some.inj hr, hp]

omit [Crates] in
theorem insertEntry_bumped (e : PeerEntry) :
    ({ m with allocator := m.allocator.bumpSlotAtLeast e.ula.seg2 e.ula.seg3 } :
      RosterState).insertEntry e = m.insertEntry e := by
  have hb := UlaAllocator.bumpSlotAtLeast_of_le
    (UlaAllocator.le_bumpSlotAtLeast_self m.allocator e.ula.seg2 e.ula.seg3)
  simp only [insertEntry, hb]

end RosterState

abbrev RegisterRequest.resolved (req : RegisterRequest) (observed : Option SocketAddr) :
    ResolvedEndpoint :=
  resolveListenEndpoint req.listenEndpoint observed req.wgListenPort req.relayOnly

def RegisterRequest.refreshed (req : RegisterRequest) (claims : Option ValidatedClaims)
    (observed : Option SocketAddr) (now : Nat) : PeerEntry → PeerEntry :=
  refreshedEntry req (stampIdentity req claims) (req.resolved observed) observed now

def RegisterRequest.moved (req : RegisterRequest) (claims : Option ValidatedClaims)
    (observed : Option SocketAddr) (now : Nat) (ula : Ipv6Addr) (idx : UInt16) (e : PeerEntry) :
    PeerEntry :=
  rehomedEntry (stampIdentity req claims).network ula idx (req.refreshed claims observed now e)

namespace Coordinator

variable (c : Coordinator)

omit [Crates] in
@[simp] theorem toRosterState_broadcast (event : PeerEvent) :
    (c.broadcast event).toRosterState = c.toRosterState := rfl

@[simp] theorem toRosterState_persistRoster (saved : Bool) :
    (c.persistRoster saved).toRosterState = c.toRosterState.persistRoster saved := rfl

@[simp] theorem toRosterState_applyPeerLeft (id : Uuid) (reason : String) (nowMicros : Int) :
    (c.applyPeerLeft ⟨id.toString, reason, nowMicros⟩).toRosterState = c.toRosterState.without id := by
  simp only [applyPeerLeft, Uuid.parseStr_toString, RosterState.without]
  cases c.roster.lookup id <;> rfl

@[simp] theorem toRosterState_evictHolder (nowMicros : Int) (id : Uuid) :
    (c.evictHolder nowMicros id).toRosterState = c.toRosterState.without id :=
  toRosterState_applyPeerLeft _ _ _ _

theorem evictStaleUlaHolder_cases (amb : Ambient) (requestedUla : Option String) :
    (c.staleUlaHolder amb.now requestedUla = none ∧ c.evictStaleUlaHolder amb requestedUla = c) ∨
      ∃ id, c.staleUlaHolder amb.now requestedUla = some id ∧
        (c.evictStaleUlaHolder amb requestedUla).toRosterState =
          (c.toRosterState.without id).persistRoster (amb.saved id) := by
  unfold evictStaleUlaHolder
  cases hs : c.staleUlaHolder amb.now requestedUla with
  | none => exact .inl ⟨rfl, rfl⟩
  | some id => exact .inr ⟨id, rfl, by simp⟩

theorem evictStaleUlaHolder_lookup_none {c : Coordinator} (amb : Ambient)
    (requestedUla : Option String) {id : Uuid} {pubkey : List UInt8}
    (hid : c.roster.lookup id = none) (hk : c.byPubkey.lookup pubkey = none) :
    (c.evictStaleUlaHolder amb requestedUla).roster.lookup id = none ∧
      (c.evictStaleUlaHolder amb requestedUla).byPubkey.lookup pubkey = none := by
  rcases c.evictStaleUlaHolder_cases amb requestedUla with ⟨-, h⟩ | ⟨holder, -, h⟩
  · rw [h]
    exact ⟨hid, hk⟩
  · rw [h, RosterState.roster_persistRoster, RosterState.byPubkey_persistRoster]
    refine ⟨?_, RosterState.byPubkey_lookup_without holder hk⟩
    rw [RosterState.roster_lookup_without, hid, ite_self]

theorem evictStaleUlaHolder_steps (amb : Ambient) (requestedUla : Option String) :
    RosterState.Steps c.toRosterState [] (c.evictStaleUlaHolder amb requestedUla).toRosterState := by
  rcases c.evictStaleUlaHolder_cases amb requestedUla with ⟨-, h⟩ | ⟨id, -, h⟩
  · rw [h]
    exact .refl _
  · rw [h]
    exact (RosterState.Steps.without _ id).trans (RosterState.Steps.persistRoster _ _)

def firstEntry (amb : Ambient) (req : RegisterRequest) (claims : Option ValidatedClaims)
    (pubkey : List UInt8) (resolved : ResolvedEndpoint) (ula : Ipv6Addr) : PeerEntry :=
  RosterState.joinedEntry
    (joinEvent req (stampIdentity req claims) resolved pubkey amb.nowV7 ula amb.nowUnixMicros)
    amb.nowV7 ula amb.now

section Join

variable {c : Coordinator} (amb : Ambient) (req : RegisterRequest) (claims : Option ValidatedClaims)
  (pubkey : List UInt8) (resolved : ResolvedEndpoint) (observed : Option SocketAddr)

theorem joinPeer_cases (h : c.toRosterState.Inv G) :
    (∃ err, c.toRosterState.resolveUla (stampIdentity req claims).network req.requestedUla =
        .error err ∧ c.joinPeer amb req claims pubkey resolved observed = (c, .error err)) ∨
      ∃ ula, c.toRosterState.Resolved (stampIdentity req claims).network req.requestedUla ula ∧
        c.joinPeer amb req claims pubkey resolved observed =
          let first := firstEntry amb req claims pubkey resolved ula
          let m := c.toRosterState.insertEntry first
          ((c.withRosterState
            { m with roster := m.roster.modify amb.nowV7 (seedReflexive resolved observed) }).broadcast
              (.added (seedReflexive resolved observed first).toInfo),
            .ok (seedReflexive resolved observed first)) := by
  cases hr : c.toRosterState.resolveUla (stampIdentity req claims).network req.requestedUla with
  | error err => exact .inl ⟨err, rfl, by simp only [joinPeer, hr]⟩
  | ok r =>
    obtain ⟨m, idx, ula⟩ := r
    obtain ⟨rfl, hres⟩ := h.resolved_of_eq_ok hr
    refine .inr ⟨ula, hres, ?_⟩
    have happ : (RosterState.mk c.roster c.byPubkey
          (c.allocator.bumpSlotAtLeast ula.seg2 ula.seg3) c.rosterStore).applyPeerJoined
        amb.now (joinEvent req (stampIdentity req claims) resolved pubkey amb.nowV7 ula
          amb.nowUnixMicros) =
        .ok (c.toRosterState.insertEntry (firstEntry amb req claims pubkey resolved ula),
          firstEntry amb req claims pubkey resolved ula) := by
      rw [← RosterState.insertEntry_bumped c.toRosterState]
      exact RosterState.applyPeerJoined_of_free rfl rfl hres.free
    simp only [joinPeer, hr, happ]

theorem refreshEntry_cases (h : c.toRosterState.Inv G) {id : Uuid} {old : PeerEntry}
    (hold : c.roster.lookup id = some old) :
    (¬ (claims.isSome ∧ (stampIdentity req claims).network ≠ old.network) ∧
        c.refreshEntry amb id req claims resolved observed =
          let refreshed := refreshedEntry req (stampIdentity req claims) resolved observed amb.now
          (({ c with roster := c.roster.modify id refreshed }).broadcast
            (.updated (refreshed old).toInfo), .ok (refreshed old, false))) ∨
      (∃ err, c.allocator.allocate (stampIdentity req claims).network = .error err ∧
        c.refreshEntry amb id req claims resolved observed = (c, .error (.allocation err))) ∨
      ∃ allocator idx ula,
        (claims.isSome ∧ (stampIdentity req claims).network ≠ old.network) ∧
        c.allocator.allocate (stampIdentity req claims).network = .ok (allocator, idx, ula) ∧
        c.refreshEntry amb id req claims resolved observed =
          let moved := fun e => rehomedEntry (stampIdentity req claims).network ula idx
            (refreshedEntry req (stampIdentity req claims) resolved observed amb.now e)
          ((({ c with
              allocator := allocator
              roster := c.roster.modify id moved }).broadcast (.removed id.toString old.tags)).broadcast
            (.added (moved old).toInfo), .ok (moved old, true)) := by
  unfold refreshEntry
  simp only [hold]
  by_cases hre : claims.isSome ∧ (stampIdentity req claims).network ≠ old.network
  · rw [if_pos hre]
    cases ha : c.allocator.allocate (stampIdentity req claims).network with
    | error err => exact .inr (.inl ⟨err, rfl, rfl⟩)
    | ok r =>
      obtain ⟨allocator, idx, ula⟩ := r
      refine .inr (.inr ⟨allocator, idx, ula, hre, rfl, ?_⟩)
      have hfree : c.roster.values.any (fun e => e.ula == ula && e.peerId != id) = false := by
        rw [List.any_eq_false]
        intro x hx
        obtain ⟨k, hk⟩ := AList.mem_values_iff.mp hx
        simp [h.nextUla_free ⟨allocator, idx, ha⟩ hk]
      simp only [hfree]
      rfl
  · rw [if_neg hre]
    exact .inl ⟨hre, rfl⟩

end Join


def refreshAt (c : Coordinator) (id : Uuid) (f : PeerEntry → PeerEntry) (old : PeerEntry) :
    Coordinator :=
  ({ c with roster := c.roster.modify id f }).broadcast (.updated (f old).toInfo)

def moveAt (c : Coordinator) (id : Uuid) (allocator : UlaAllocator) (f : PeerEntry → PeerEntry)
    (old : PeerEntry) : Coordinator :=
  (({ c with allocator := allocator, roster := c.roster.modify id f }).broadcast
    (.removed id.toString old.tags)).broadcast (.added (f old).toInfo)

def seat (c : Coordinator) (first : PeerEntry) (f : PeerEntry → PeerEntry) : Coordinator :=
  let m := c.toRosterState.insertEntry first
  (c.withRosterState { m with roster := m.roster.modify first.peerId f }).broadcast
    (.added (f first).toInfo)

section Register

variable {c : Coordinator} {amb : Ambient} {req : RegisterRequest} {bearer : Option String}
  {claims : Option ValidatedClaims} {pubkey : List UInt8} (observed : Option SocketAddr)

theorem admission_eq_ok (h : c.admission amb req bearer = .ok (claims, pubkey)) :
    c.authenticate amb bearer ((some (trim req.wgPublicKey)).filter (fun k => k ≠ "")) = .ok claims ∧
      authorizeFixedRequestedUla req.requestedUla claims = .ok () ∧
      decodePubkey req.wgPublicKey = .ok pubkey ∧ pubkey.length = 32 := by
  simp only [admission] at h
  split at h
  · simp at h
  · rename_i claims' hauth
    split at h
    · simp at h
    · rename_i hfix
      split at h
      · simp at h
      · rename_i pubkey' hdec
        split at h
        · simp at h
        · rename_i hlen
          simp only [Except.ok.injEq, Prod.mk.injEq] at h
          obtain ⟨rfl, rfl⟩ := h
          exact ⟨hauth, hfix, hdec, not_not.mp hlen⟩

theorem registerAuthenticated_refused {err : CoordinatorError}
    (h : c.admission amb req bearer = .error err) :
    c.registerAuthenticated amb req bearer observed = (c, .error err) := by
  simp only [registerAuthenticated, h]

theorem registerAuthenticated_known {id : Uuid} (h : c.admission amb req bearer = .ok (claims, pubkey))
    (hk : c.byPubkey.lookup pubkey = some id) :
    c.registerAuthenticated amb req bearer observed =
      let r := c.refreshExisting amb id req claims (req.resolved observed) observed
      (r.1, r.2.map (fun entry => (entry, .existed))) := by
  simp only [registerAuthenticated, h, hk]
  generalize c.refreshExisting amb id req claims (req.resolved observed) observed = r
  obtain ⟨c', _ | entry⟩ := r <;> rfl

theorem registerAuthenticated_new (h : c.admission amb req bearer = .ok (claims, pubkey))
    (hk : c.byPubkey.lookup pubkey = none) :
    c.registerAuthenticated amb req bearer observed =
      let r := (c.evictStaleUlaHolder amb req.requestedUla).joinPeer amb req claims pubkey
        (req.resolved observed) observed
      (if r.2.isOk then r.1.persistRoster (amb.saved amb.nowV7) else r.1,
        r.2.map (fun entry => (entry, .created))) := by
  simp only [registerAuthenticated, h, hk]
  generalize (c.evictStaleUlaHolder amb req.requestedUla).joinPeer amb req claims pubkey
    (req.resolved observed) observed = r
  obtain ⟨c', _ | entry⟩ := r <;> rfl

inductive Registers (c : Coordinator) (amb : Ambient) (req : RegisterRequest)
    (bearer : Option String) (observed : Option SocketAddr) :
    Coordinator × Except CoordinatorError (PeerEntry × RegisterOutcome) → Prop
  | refused {err : CoordinatorError} (hadm : c.admission amb req bearer = .error err) :
      Registers c amb req bearer observed (c, .error err)
  | exhausted {claims : Option ValidatedClaims} {pubkey : List UInt8} {id : Uuid} {err : AllocError}
      (hadm : c.admission amb req bearer = .ok (claims, pubkey))
      (hk : c.byPubkey.lookup pubkey = some id)
      (ha : c.allocator.allocate (stampIdentity req claims).network = .error err) :
      Registers c amb req bearer observed (c, .error (.allocation err))
  | refreshed {claims : Option ValidatedClaims} {pubkey : List UInt8} {id : Uuid} {old : PeerEntry}
      (hadm : c.admission amb req bearer = .ok (claims, pubkey))
      (hk : c.byPubkey.lookup pubkey = some id) (hold : c.roster.lookup id = some old)
      (hstay : ¬ (claims.isSome ∧ (stampIdentity req claims).network ≠ old.network)) :
      Registers c amb req bearer observed
        (c.refreshAt id (req.refreshed claims observed amb.now) old,
          .ok (req.refreshed claims observed amb.now old, .existed))
  | moved {claims : Option ValidatedClaims} {pubkey : List UInt8} {id : Uuid} {old : PeerEntry}
      {allocator : UlaAllocator} {idx : UInt16} {ula : Ipv6Addr}
      (hadm : c.admission amb req bearer = .ok (claims, pubkey))
      (hk : c.byPubkey.lookup pubkey = some id) (hold : c.roster.lookup id = some old)
      (hmove : claims.isSome ∧ (stampIdentity req claims).network ≠ old.network)
      (ha : c.allocator.allocate (stampIdentity req claims).network = .ok (allocator, idx, ula)) :
      Registers c amb req bearer observed
        ((c.moveAt id allocator (req.moved claims observed amb.now ula idx) old).persistRoster
          (amb.saved id), .ok (req.moved claims observed amb.now ula idx old, .existed))
  | turnedAway {claims : Option ValidatedClaims} {pubkey : List UInt8} {err : CoordinatorError}
      (hadm : c.admission amb req bearer = .ok (claims, pubkey))
      (hk : c.byPubkey.lookup pubkey = none) :
      Registers c amb req bearer observed
        (c.evictStaleUlaHolder amb req.requestedUla, .error err)
  | joined {claims : Option ValidatedClaims} {pubkey : List UInt8} {ula : Ipv6Addr}
      (hadm : c.admission amb req bearer = .ok (claims, pubkey))
      (hk : c.byPubkey.lookup pubkey = none)
      (hres : (c.evictStaleUlaHolder amb req.requestedUla).toRosterState.Resolved
        (stampIdentity req claims).network req.requestedUla ula) :
      Registers c amb req bearer observed
        (((c.evictStaleUlaHolder amb req.requestedUla).seat
            (firstEntry amb req claims pubkey (req.resolved observed) ula)
            (seedReflexive (req.resolved observed) observed)).persistRoster (amb.saved amb.nowV7),
          .ok (seedReflexive (req.resolved observed) observed
            (firstEntry amb req claims pubkey (req.resolved observed) ula), .created))

variable (amb req bearer) in
theorem registers (h : c.toRosterState.Inv G) :
    c.Registers amb req bearer observed (c.registerAuthenticated amb req bearer observed) := by
  cases hadm : c.admission amb req bearer with
  | error err =>
    rw [registerAuthenticated_refused observed hadm]
    exact .refused hadm
  | ok a =>
    obtain ⟨claims, pubkey⟩ := a
    cases hk : c.byPubkey.lookup pubkey with
    | some id =>
      rw [registerAuthenticated_known observed hadm hk]
      obtain ⟨old, hold, -⟩ := h.index.mp hk
      simp only [refreshExisting]
      rcases refreshEntry_cases amb req claims (req.resolved observed) observed h hold with
        ⟨hstay, hr⟩ | ⟨err, ha, hr⟩ | ⟨allocator, idx, ula, hmove, ha, hr⟩
      · rw [hr]
        exact .refreshed hadm hk hold hstay
      · rw [hr]
        exact .exhausted hadm hk ha
      · rw [hr]
        exact .moved hadm hk hold hmove ha
    | none =>
      rw [registerAuthenticated_new observed hadm hk]
      have hev := (c.evictStaleUlaHolder_steps amb req.requestedUla).inv_quiet h
      rcases joinPeer_cases amb req claims pubkey (req.resolved observed) observed hev with
        ⟨err, -, hj⟩ | ⟨ula, hres, hj⟩
      · rw [hj]
        exact .turnedAway hadm hk
      · rw [hj]
        exact .joined hadm hk hres

end Register

end Coordinator

end ServiceMesh
