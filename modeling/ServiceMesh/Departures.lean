import ServiceMesh.RelayMoves
import ServiceMesh.Entries
import ServiceMesh.Disclosure

/-! What is left of a peer once it has gone: relay connections, spooled frames and wake
cool-downs under its key, hole-punch pairs, overrides and relay counters under its id. -/

namespace ServiceMesh

open StdNet (Ipv6Addr SocketAddr)

namespace RelayRegistry

structure Within (P : List UInt8 → Prop) (r : RelayRegistry) : Prop where
  conns : ∀ k ∈ r.conns, P k
  spool : ∀ k ∈ r.spool, P k
  wakes : ∀ k ∈ r.wakeCooldown, P k

namespace Within

variable {P Q : List UInt8 → Prop} {r r' : RelayRegistry} {pubkey : List UInt8}

theorem new : RelayRegistry.new.Within P :=
  ⟨fun _ h => absurd h (AList.notMem_empty _), fun _ h => absurd h (AList.notMem_empty _),
    fun _ h => absurd h (AList.notMem_empty _)⟩

theorem of_eq (h : r.Within P) (hconns : r'.conns = r.conns) (hspool : r'.spool = r.spool)
    (hwakes : r'.wakeCooldown = r.wakeCooldown) : r'.Within P :=
  ⟨hconns ▸ h.conns, hspool ▸ h.spool, hwakes ▸ h.wakes⟩

theorem mono (h : r.Within P) (hPQ : ∀ k, P k → Q k) : r.Within Q :=
  ⟨fun k hk => hPQ k (h.conns k hk), fun k hk => hPQ k (h.spool k hk),
    fun k hk => hPQ k (h.wakes k hk)⟩

theorem pushSpool (h : r.Within P) (hkey : P pubkey) (now : Nat) (hiPrio : Bool)
    (frame : List UInt8) : (r.pushSpool now pubkey hiPrio frame).Within P := by
  refine ⟨h.conns, ?_, h.wakes⟩
  intro k hk
  rcases (AList.mem_insert _).mp hk with rfl | hold
  · exact hkey
  · exact h.spool k hold

theorem forward (h : r.Within P) (hkey : P pubkey) (now : Nat) (frame : List UInt8)
    (hiPrio : Bool) : (r.forward now pubkey frame hiPrio).1.Within P := by
  have hf := r.forward_forwarded now pubkey frame hiPrio
  generalize r.forward now pubkey frame hiPrio = out at hf
  cases hf with
  | sent hpick hch => exact h.of_eq rfl rfl rfl
  | full => exact h
  | held => exact h.pushSpool hkey now hiPrio frame

theorem flush (h : r.Within P) (hkey : P pubkey) (now : Nat) (held : List SpooledFrame) :
    (r.flush now pubkey held).Within P := by
  unfold RelayRegistry.flush
  induction held generalizing r with
  | nil => exact h
  | cons sf held ih =>
    rw [List.foldl_cons]
    by_cases hold : now - sf.at_ > spoolTtl
    · rw [if_pos hold]
      exact ih h
    · rw [if_neg hold]
      exact ih (h.forward hkey now sf.frame sf.hiPrio)

theorem register (h : r.Within P) (hkey : P pubkey) (now : Nat) (lane : Lane) (cap : Nat) :
    (r.register now pubkey lane cap).1.Within P := by
  have hconns : ∀ (conns : PeerConns), ∀ k ∈ r.conns.insert pubkey conns, P k := by
    intro conns k hk
    rcases (AList.mem_insert _).mp hk with rfl | hold
    · exact hkey
    · exact h.conns k hold
  have herase : ∀ k ∈ r.spool.erase pubkey, P k :=
    fun k hk => h.spool k (AList.mem_erase.mp hk).2
  unfold RelayRegistry.register
  cases r.spool.lookup pubkey with
  | none => exact ⟨hconns _, h.spool, h.wakes⟩
  | some held =>
    apply flush _ hkey
    exact ⟨hconns _, herase, h.wakes⟩

theorem unregister (h : r.Within P) (lane : Lane) (id : UInt64) :
    (r.unregister pubkey lane id).Within P := by
  unfold RelayRegistry.unregister
  split
  · exact h
  · have hconns : ∀ (c : PeerConns), ∀ k ∈ (if c.isEmpty then r.conns.erase pubkey
        else r.conns.modify pubkey (fun _ => c)), P k := by
      intro c k hk
      by_cases hempty : c.isEmpty = true
      · rw [if_pos hempty] at hk
        exact h.conns k (AList.mem_erase.mp hk).2
      · rw [if_neg hempty] at hk
        exact h.conns k (AList.mem_modify.mp hk)
    exact ⟨hconns _, h.spool, h.wakes⟩

theorem reapClosed (h : r.Within P) : r.reapClosed.Within P := by
  refine ⟨?_, h.spool, h.wakes⟩
  intro k hk
  obtain ⟨c, hc, -⟩ := AList.mem_of_mem_retain hk
  exact h.conns k (AList.mem_foldl_modify.mp (AList.mem_of_lookup hc))

theorem reapExpiredSpool (h : r.Within P) (now : Nat) : (r.reapExpiredSpool now).Within P := by
  refine ⟨h.conns, ?_, h.wakes⟩
  intro k hk
  obtain ⟨q, hq, -⟩ := AList.mem_of_mem_retain hk
  exact h.spool k (AList.mem_foldl_modify.mp (AList.mem_of_lookup hq))

theorem takeWakeSlot (h : r.Within P) (hkey : P pubkey) (now : Nat) :
    (r.takeWakeSlot now pubkey).1.Within P := by
  have hinsert : ∀ k ∈ r.wakeCooldown.insert pubkey now, P k := by
    intro k hk
    rcases (AList.mem_insert _).mp hk with rfl | hold
    · exact hkey
    · exact h.wakes k hold
  unfold RelayRegistry.takeWakeSlot
  split
  · split
    · exact ⟨h.conns, h.spool, hinsert⟩
    · exact h
  · exact ⟨h.conns, h.spool, hinsert⟩

theorem deliver (h : r.Within P) (tx : Nat) : (r.deliver tx).1.Within P := by
  unfold RelayRegistry.deliver
  split <;> exact h.of_eq rfl rfl rfl

theorem close (h : r.Within P) (tx : Nat) : (r.close tx).Within P := by
  unfold RelayRegistry.close
  split
  · exact h.of_eq rfl rfl rfl
  · exact h

theorem dropPubkey (h : r.Within P) (hwake : pubkey ∉ r.wakeCooldown) :
    (r.dropPubkey pubkey).Within (fun k => P k ∧ k ≠ pubkey) := by
  refine ⟨?_, ?_, ?_⟩
  · intro k hk
    obtain ⟨hne, hold⟩ := AList.mem_erase.mp hk
    exact ⟨h.conns k hold, hne⟩
  · intro k hk
    obtain ⟨hne, hold⟩ := AList.mem_erase.mp hk
    exact ⟨h.spool k hold, hne⟩
  · intro k hk
    exact ⟨h.wakes k hk, fun hc => hwake (hc ▸ hk)⟩

end Within

end RelayRegistry

def DashMap.Among {β : Type} (roster : DashMap Uuid PeerEntry) (m : DashMap (Uuid × Uuid) β) :
    Prop :=
  ∀ p ∈ m, p.1 ∈ roster ∧ p.2 ∈ roster

namespace DashMap.Among

variable {β : Type} {roster roster' : DashMap Uuid PeerEntry} {m : DashMap (Uuid × Uuid) β}

theorem empty : DashMap.Among roster (∅ : DashMap (Uuid × Uuid) β) :=
  fun _ h => absurd h (AList.notMem_empty _)

theorem mono (h : DashMap.Among roster m) (hr : ∀ id ∈ roster, id ∈ roster') :
    DashMap.Among roster' m :=
  fun p hp => ⟨hr _ (h p hp).1, hr _ (h p hp).2⟩

theorem insert (h : DashMap.Among roster m) {a b : Uuid} (ha : a ∈ roster) (hb : b ∈ roster)
    (v : β) : DashMap.Among roster (m.insert (a, b) v) := by
  intro p hp
  rcases (AList.mem_insert _).mp hp with rfl | hold
  · exact ⟨ha, hb⟩
  · exact h p hold

theorem insert_canonicalPair (h : DashMap.Among roster m) {a b : Uuid} (ha : a ∈ roster)
    (hb : b ∈ roster) (v : β) : DashMap.Among roster (m.insert (canonicalPair a b) v) := by
  unfold canonicalPair
  split
  · exact h.insert ha hb v
  · exact h.insert hb ha v

theorem erase (h : DashMap.Among roster m) (p : Uuid × Uuid) :
    DashMap.Among roster (m.erase p) :=
  fun q hq => h q (AList.mem_erase.mp hq).2

theorem modify (h : DashMap.Among roster m) (p : Uuid × Uuid) (f : β → β) :
    DashMap.Among roster (m.modify p f) :=
  fun q hq => h q (AList.mem_modify.mp hq)

theorem retain (h : DashMap.Among roster m) (keep : Uuid × Uuid → β → Bool) :
    DashMap.Among roster (m.retain keep) := by
  intro p hp
  obtain ⟨b, hb, -⟩ := AList.mem_of_mem_retain hp
  exact h p (AList.mem_of_lookup hb)

theorem leave (h : DashMap.Among roster m) (id : Uuid) :
    DashMap.Among (roster.erase id) (m.retain (fun p _ => p.1 != id && p.2 != id)) := by
  intro p hp
  obtain ⟨b, hb, hkeep⟩ := AList.mem_of_mem_retain hp
  have hin := h p (AList.mem_of_lookup hb)
  simp only [Bool.and_eq_true, bne_iff_ne] at hkeep
  exact ⟨AList.mem_erase.mpr ⟨hkeep.1, hin.1⟩, AList.mem_erase.mpr ⟨hkeep.2, hin.2⟩⟩

end DashMap.Among

structure Coordinator.Tidy (c : Coordinator) : Prop where
  relay : c.relay.Within (fun k => k ∈ c.byPubkey)
  punches : DashMap.Among c.roster c.punchTracker.pairs
  direct : DashMap.Among c.roster c.directPairFlags.direct
  pins : DashMap.Among c.roster c.directPairFlags.pinnedToRelay
  stats : DashMap.Among c.roster c.relayPairStats

def Coordinator.WakeFree (c : Coordinator) (id : Uuid) : Prop :=
  ∀ e ∈ c.roster.lookup id, c.relay.wakeCooldown.lookup e.wgPublicKey = none

namespace Coordinator.Tidy

variable {c c' : Coordinator}

theorem grow (h : c.Tidy) (hrelay : c'.relay = c.relay) (hpunch : c'.punchTracker = c.punchTracker)
    (hflags : c'.directPairFlags = c.directPairFlags) (hstats : c'.relayPairStats = c.relayPairStats)
    (hids : ∀ id ∈ c.roster, id ∈ c'.roster) (hkeys : ∀ k ∈ c.byPubkey, k ∈ c'.byPubkey) :
    c'.Tidy where
  relay := by
    rw [hrelay]
    exact h.relay.mono hkeys
  punches := by
    rw [hpunch]
    exact h.punches.mono hids
  direct := by
    rw [hflags]
    exact h.direct.mono hids
  pins := by
    rw [hflags]
    exact h.pins.mono hids
  stats := by
    rw [hstats]
    exact h.stats.mono hids

theorem congr (h : c.Tidy) (hrelay : c'.relay = c.relay) (hpunch : c'.punchTracker = c.punchTracker)
    (hflags : c'.directPairFlags = c.directPairFlags) (hstats : c'.relayPairStats = c.relayPairStats)
    (hroster : c'.roster = c.roster) (hkeys : c'.byPubkey = c.byPubkey) : c'.Tidy :=
  h.grow hrelay hpunch hflags hstats (fun _ hid => hroster ▸ hid) (fun _ hk => hkeys ▸ hk)

theorem modify (h : c.Tidy) (id : Uuid) (f : PeerEntry → PeerEntry) :
    ({ c with roster := c.roster.modify id f } : Coordinator).Tidy :=
  h.grow rfl rfl rfl rfl (fun _ hid => AList.mem_modify.mpr hid) (fun _ hk => hk)

theorem withRelay (h : c.Tidy) {relay : RelayRegistry}
    (hr : relay.Within (fun k => k ∈ c.byPubkey)) : ({ c with relay := relay } : Coordinator).Tidy :=
  ⟨hr, h.punches, h.direct, h.pins, h.stats⟩

theorem withTracker (h : c.Tidy) {t : PunchTracker} (ht : DashMap.Among c.roster t.pairs) :
    ({ c with punchTracker := t } : Coordinator).Tidy :=
  ⟨h.relay, ht, h.direct, h.pins, h.stats⟩

theorem broadcast (h : c.Tidy) (event : PeerEvent) : (c.broadcast event).Tidy :=
  h.congr rfl rfl rfl rfl rfl rfl

end Coordinator.Tidy

section

variable [Crates] {G : Uuid → Ipv6Addr → Prop}

namespace Coordinator

variable {c : Coordinator}

theorem Tidy.persistRoster (h : c.Tidy) (saved : Bool) : (c.persistRoster saved).Tidy :=
  h.congr rfl rfl rfl rfl (roster_persistRoster c saved)
    (RosterState.byPubkey_persistRoster c.toRosterState saved)

theorem Tidy.applyPeerLeft (h : c.Tidy) {id : Uuid} (hwake : c.WakeFree id) (reason : String)
    (nowMicros : Int) : (c.applyPeerLeft ⟨id.toString, reason, nowMicros⟩).Tidy := by
  unfold Coordinator.applyPeerLeft
  rw [Uuid.parseStr_toString]
  dsimp only
  cases he : c.roster.lookup id with
  | none => exact h
  | some e =>
    have hgone : e.wgPublicKey ∉ c.relay.wakeCooldown :=
      AList.lookup_eq_none.mp (hwake e he)
    refine ⟨(h.relay.dropPubkey hgone).mono ?_, h.punches.leave id, h.direct.leave id,
      h.pins.leave id, h.stats.leave id⟩
    rintro k ⟨hk, hne⟩
    exact AList.mem_erase.mpr ⟨hne, hk⟩

theorem wakeCooldown_applyPeerLeft (c : Coordinator) (event : PeerLeft) :
    (c.applyPeerLeft event).relay.wakeCooldown = c.relay.wakeCooldown := by
  unfold Coordinator.applyPeerLeft
  split
  · rfl
  · split <;> rfl

theorem Tidy.evictStaleUlaHolder (h : c.Tidy) (amb : Ambient) {requestedUla : Option String}
    (hwake : ∀ id ∈ c.staleUlaHolder amb.now requestedUla, c.WakeFree id) :
    (c.evictStaleUlaHolder amb requestedUla).Tidy := by
  unfold Coordinator.evictStaleUlaHolder
  cases hs : c.staleUlaHolder amb.now requestedUla with
  | none => exact h
  | some id =>
    have hfree : (c.broadcast (.removed id.toString
        (((c.roster.lookup id).map PeerEntry.tags).getD []))).WakeFree id := hwake id hs
    exact ((h.broadcast _).applyPeerLeft hfree _ _).persistRoster _

theorem Tidy.deregister (h : c.Tidy) (amb : Ambient) {id : Uuid} (hwake : c.WakeFree id)
    (reason : String) : (c.deregister amb id reason).1.Tidy := by
  unfold Coordinator.deregister
  split
  · exact h
  · exact ((h.applyPeerLeft hwake _ _).broadcast _).persistRoster _

theorem WakeFree.deregister {k : Uuid} (h : c.WakeFree k) (amb : Ambient) (id : Uuid)
    (reason : String) : (c.deregister amb id reason).1.WakeFree k := by
  have hwakes : (c.deregister amb id reason).1.relay.wakeCooldown = c.relay.wakeCooldown := by
    unfold Coordinator.deregister
    split
    · rfl
    · exact c.wakeCooldown_applyPeerLeft _
  intro e he
  rw [hwakes]
  rcases c.deregister_lookup amb id reason k with hgone | hsame
  · rw [hgone] at he
    cases he
  · exact h e (hsame ▸ he)

theorem Tidy.sweepOnce (h : c.Tidy) (amb : Ambient)
    (hwake : ∀ id ∈ c.stalePeers amb.now, c.WakeFree id) : (c.sweepOnce amb).Tidy := by
  have hreap : (c.reapStaleResources amb.now amb.nowUnixMicros).Tidy :=
    (h.withRelay (h.relay.reapClosed.reapExpiredSpool amb.now)).withTracker (h.punches.retain _)
  refine (c.sweepOnce_induction amb
    (P := fun c' => c'.Tidy ∧ ∀ id ∈ c.stalePeers amb.now, c'.WakeFree id) ⟨hreap, hwake⟩ ?_).1
  rintro c' ⟨h, hwake⟩ id hid
  exact ⟨h.deregister amb (hwake id hid) _, fun k hk => (hwake k hk).deregister amb id _⟩

theorem Tidy.seat (h : c.Tidy) (first : PeerEntry) (f : PeerEntry → PeerEntry) :
    (c.seat first f).Tidy := by
  refine h.grow rfl rfl rfl rfl ?_ ?_
  · intro id hid
    exact AList.mem_modify.mpr ((AList.mem_insert _).mpr (.inr hid))
  · intro k hk
    exact (AList.mem_insert _).mpr (.inr hk)

theorem Tidy.moveAt (h : c.Tidy) (id : Uuid) (allocator : UlaAllocator) (f : PeerEntry → PeerEntry)
    (old : PeerEntry) : (c.moveAt id allocator f old).Tidy :=
  (h.modify id f).congr rfl rfl rfl rfl rfl rfl

theorem Registers.tidy {amb : Ambient} {req : RegisterRequest} {bearer : Option String}
    {observed : Option SocketAddr}
    {r : Coordinator × Except CoordinatorError (PeerEntry × RegisterOutcome)}
    (hr : c.Registers amb req bearer observed r) (h : c.Tidy)
    (hwake : ∀ id ∈ c.staleUlaHolder amb.now req.requestedUla, c.WakeFree id) : r.1.Tidy := by
  cases hr with
  | refused | exhausted => exact h
  | refreshed => exact (h.modify _ _).broadcast _
  | moved => exact (h.moveAt _ _ _ _).persistRoster _
  | turnedAway => exact h.evictStaleUlaHolder amb hwake
  | joined => exact ((h.evictStaleUlaHolder amb hwake).seat _ _).persistRoster _

omit [Crates] in
theorem among_claim {roster : DashMap Uuid PeerEntry} {t : PunchTracker}
    (h : DashMap.Among roster t.pairs) {a b : Uuid} (ha : a ∈ roster) (hb : b ∈ roster)
    (now : Int) : DashMap.Among roster (t.claim (canonicalPair a b) now).1.pairs := by
  have htoken : (t.takeColdStartToken now).1.pairs = t.pairs := by
    unfold PunchTracker.takeColdStartToken
    split <;> rfl
  unfold PunchTracker.claim
  split
  · split
    · exact h.insert_canonicalPair ha hb _
    · exact h
  · dsimp only
    split
    · rw [htoken]
      exact h.insert_canonicalPair ha hb _
    · rw [htoken]
      exact h

theorem among_tryEmitPair {roster : DashMap Uuid PeerEntry} {t : PunchTracker}
    (h : DashMap.Among roster t.pairs) {a b : PunchPeer} (ha : a.peerId ∈ roster)
    (hb : b.peerId ∈ roster) (now : Int) :
    DashMap.Among roster (tryEmitPair t a b now).1.pairs := by
  have hclaim := among_claim h ha hb now
  unfold tryEmitPair
  split
  · exact h
  · split
    · exact h
    · split
      · rename_i hc
        rw [hc] at hclaim
        exact hclaim
      · rename_i hc
        rw [hc] at hclaim
        exact hclaim

theorem Tidy.tryEmitHolepunchPair (h : c.Tidy) {a b : PeerEntry} (ha : a.peerId ∈ c.roster)
    (hb : b.peerId ∈ c.roster) (now : Int) : (tryEmitHolepunchPair now a c b).Tidy := by
  unfold Coordinator.tryEmitHolepunchPair
  split
  · rename_i pa pb hpa hpb
    rw [← punchPeerForPair_eq_some hpa] at ha
    rw [← punchPeerForPair_eq_some hpb] at hb
    have htracker := among_tryEmitPair h.punches ha hb now
    split
    · rename_i hemit
      rw [hemit] at htracker
      exact (h.withTracker htracker).congr rfl rfl rfl rfl rfl rfl
    · rename_i hemit
      rw [hemit] at htracker
      exact h.withTracker htracker
  · exact h

theorem Tidy.tryEmitHolepunchPairs (h : c.Tidy) (hinv : c.toRosterState.Inv G) {a : PeerEntry}
    (ha : a.peerId ∈ c.roster) (now : Int) : (c.tryEmitHolepunchPairs now a).Tidy := by
  have hloop : ∀ (candidates : List PeerEntry) (c' : Coordinator), c'.Tidy →
      a.peerId ∈ c'.roster → (∀ b ∈ candidates, b.peerId ∈ c'.roster) →
      (candidates.foldl (Coordinator.tryEmitHolepunchPair now a) c').Tidy := by
    intro candidates
    induction candidates with
    | nil => exact fun c' h _ _ => h
    | cons b candidates ih =>
      intro c' h' ha' hcands
      have hsame := toRosterState_tryEmitHolepunchPair now a c' b
      refine ih _ (h'.tryEmitHolepunchPair ha' (hcands b List.mem_cons_self) now) ?_ ?_
      · rw [hsame]
        exact ha'
      · intro b' hb'
        rw [hsame]
        exact hcands b' (List.mem_cons_of_mem b hb')
  refine hloop _ c h ha ?_
  intro b hb
  obtain ⟨k, hk⟩ := AList.mem_values_iff.mp (List.mem_filter.mp hb).1
  rw [hinv.keyed hk]
  exact AList.mem_of_lookup hk

theorem Tidy.recordReports (h : c.Tidy) (id : Uuid) (req : HeartbeatRequest) :
    (c.recordReports id req).1.Tidy := by
  have hconfirm : ∀ (paths : List PeerPathDto) (t : PunchTracker),
      DashMap.Among c.roster t.pairs →
      DashMap.Among c.roster (paths.foldl (confirmDirect id) t).pairs := by
    intro paths
    induction paths with
    | nil => exact fun t ht => ht
    | cons p paths ih =>
      intro t ht
      apply ih
      unfold confirmDirect
      split
      · exact ht
      · split
        · exact ht.modify _ _
        · exact ht
  have hpaths : (c.recordPeerPaths id req.peerPaths).Tidy := by
    unfold Coordinator.recordPeerPaths
    split
    · exact h
    · exact (h.withTracker (hconfirm _ _ h.punches)).modify id _
  have hhealth : ((c.recordPeerPaths id req.peerPaths).recordDataplaneHealth id
      req.dataplaneHealthy).Tidy := hpaths.modify id _
  have hacks : (((c.recordPeerPaths id req.peerPaths).recordDataplaneHealth id
      req.dataplaneHealthy).ackCommands id req.executedCommandIds).Tidy := by
    unfold Coordinator.ackCommands
    split
    · exact hhealth
    · exact hhealth.modify id _
  exact hacks.modify id _

theorem Tidy.heartbeatHandler (h : c.Tidy) (hinv : c.toRosterState.Inv G) (amb : Ambient)
    (req : HeartbeatRequest) (observed : Option SocketAddr) :
    (c.heartbeatHandler amb req observed).1.Tidy := by
  rcases c.heartbeatHandler_cases amb req observed with ⟨err, hsame⟩ | ⟨id, e, hid, he⟩
  · rw [hsame]
    exact h
  · rw [heartbeatHandler_eq amb observed hid he]
    have hpid : (req.beaten amb.now observed e).peerId = id :=
      (sameSeat_beatenEntry _ _ _ _ _ _ _ e).peerId.trans (hinv.keyed he)
    have hkept := c.seatsKept_modify id (f := req.beaten amb.now observed)
      (sameSeat_beatenEntry _ _ _ _ _ _ _)
    refine Tidy.recordReports ?_ _ _
    refine ((h.modify id _).broadcast _).tryEmitHolepunchPairs (hkept.steps.inv_quiet hinv) ?_ _
    rw [hpid]
    exact AList.mem_modify.mpr (AList.mem_of_lookup he)

omit [Crates] in
theorem among_set {roster : DashMap Uuid PeerEntry} {m : DashMap PunchPair Bool}
    (h : DashMap.Among roster m) {a b : Uuid} {on : Bool}
    (hon : on = true → a ∈ roster ∧ b ∈ roster) :
    DashMap.Among roster
      (if on then m.insert (canonicalPair a b) true else m.erase (canonicalPair a b)) := by
  cases on with
  | true => exact h.insert_canonicalPair (hon rfl).1 (hon rfl).2 true
  | false => exact h.erase _

omit [Crates] in
theorem Tidy.setDirect (h : c.Tidy) {a b : Uuid} {on : Bool}
    (hon : on = true → a ∈ c.roster ∧ b ∈ c.roster) :
    ({ c with directPairFlags := c.directPairFlags.setDirect a b on } : Coordinator).Tidy :=
  ⟨h.relay, h.punches, among_set h.direct hon, h.pins, h.stats⟩

omit [Crates] in
theorem Tidy.setPinnedToRelay (h : c.Tidy) {a b : Uuid} {on : Bool}
    (hon : on = true → a ∈ c.roster ∧ b ∈ c.roster) :
    ({ c with directPairFlags := c.directPairFlags.setPinnedToRelay a b on } : Coordinator).Tidy :=
  ⟨h.relay, h.punches, h.direct, among_set h.pins hon, h.stats⟩

def BothKnown (c : Coordinator) (a b : String) : Prop :=
  ∀ x ∈ (Uuid.parseStr a).toOption, ∀ y ∈ (Uuid.parseStr b).toOption, x ∈ c.roster ∧ y ∈ c.roster

theorem Tidy.postDirectHandler (h : c.Tidy) {a b : String} {direct pinToRelay : Option Bool}
    (hknown : direct = some true ∨ pinToRelay = some true → c.BothKnown a b) :
    (c.postDirectHandler a b direct pinToRelay).Tidy := by
  unfold Coordinator.postDirectHandler
  split
  · rename_i x y hx hy
    have hmem : direct = some true ∨ pinToRelay = some true → x ∈ c.roster ∧ y ∈ c.roster :=
      fun hset => hknown hset x (by rw [hx]; rfl) y (by rw [hy]; rfl)
    have hdirect : ∀ on, direct = some on → on = true → x ∈ c.roster ∧ y ∈ c.roster :=
      fun on hon htrue => hmem (.inl (htrue ▸ hon))
    have hpin : ∀ on, pinToRelay = some on → on = true → x ∈ c.roster ∧ y ∈ c.roster :=
      fun on hon htrue => hmem (.inr (htrue ▸ hon))
    cases direct with
    | none =>
      cases pinToRelay with
      | none => exact h
      | some pin => exact h.setPinnedToRelay (hpin pin rfl)
    | some on =>
      have hset := h.setDirect (hdirect on rfl)
      cases pinToRelay with
      | none => exact hset
      | some pin => exact hset.setPinnedToRelay (hpin pin rfl)
  · exact h

theorem Tidy.noteRelayPairForwarded (h : c.Tidy) (hinv : c.toRosterState.Inv G)
    (srcPubkey dstPubkey : List UInt8) (bytes : Nat) (hiPrio : Bool) :
    (c.noteRelayPairForwarded srcPubkey dstPubkey bytes hiPrio).Tidy := by
  unfold Coordinator.noteRelayPairForwarded
  split
  · rename_i src dst hsrc hdst
    obtain ⟨e, he, -⟩ := hinv.index.mp hsrc
    obtain ⟨e', he', -⟩ := hinv.index.mp hdst
    have hstats := h.stats.insert (AList.mem_of_lookup he) (AList.mem_of_lookup he')
    exact ⟨h.relay, h.punches, h.direct, h.pins, hstats _⟩
  · exact h

theorem Tidy.wakeDestination (h : c.Tidy) {dst : List UInt8} (hdst : dst ∈ c.byPubkey) (now : Nat)
    (wallMicros : Int) (myPubkey : List UInt8) :
    (c.wakeDestination now wallMicros myPubkey dst).Tidy := by
  have hslot := h.relay.takeWakeSlot hdst now
  unfold Coordinator.wakeDestination
  split
  · split
    · rename_i htaken
      rw [htaken] at hslot
      exact (h.withRelay hslot).congr rfl rfl rfl rfl rfl rfl
    · rename_i htaken
      rw [htaken] at hslot
      exact h.withRelay hslot
  · exact h

theorem Tidy.routeUplink (h : c.Tidy) (hinv : c.toRosterState.Inv G) (now : Nat)
    (wallMicros : Int) (myPubkey buf : List UInt8) :
    (c.routeUplink now wallMicros myPubkey buf).1.Tidy := by
  unfold Coordinator.routeUplink
  split
  · exact h
  · rename_i dst payload _
    split
    · exact h
    · rename_i hcan
      have hcan' : c.canRelay myPubkey dst = true := by simpa using hcan
      obtain ⟨-, -, p, -, hp, -⟩ := canRelay_eq_true hcan'
      have hdst : dst ∈ c.byPubkey := AList.mem_of_lookup hp
      have hforward := h.relay.forward hdst now (encodeRelayFrame myPubkey payload)
        (payload.head?.any (fun t => 1 ≤ t && t ≤ 3))
      dsimp only
      split
      · rename_i hsent
        rw [hsent] at hforward
        refine Tidy.noteRelayPairForwarded (G := G) ?_ ?_ _ _ _ _
        · exact (h.withRelay hforward).congr rfl rfl rfl rfl rfl rfl
        · exact hinv
      · rename_i hsent
        rw [hsent] at hforward
        split
        · exact (h.withRelay hforward).wakeDestination hdst now wallMicros myPubkey
        · exact h.withRelay hforward

end Coordinator

/-- A peer leaves only with no wake on record, and an override is set only between two peers
of the roster. -/
def LeavesClean (s : Mesh) : Op → Prop
  | .register amb req _ _ =>
    ∀ id ∈ s.coordinator.staleUlaHolder amb.now req.requestedUla, s.coordinator.WakeFree id
  | .deregister _ peerId => ∀ id ∈ (Uuid.parseStr peerId).toOption, s.coordinator.WakeFree id
  | .sweep amb => ∀ id ∈ s.coordinator.stalePeers amb.now, s.coordinator.WakeFree id
  | .postDirect a b direct pinToRelay =>
    direct = some true ∨ pinToRelay = some true → s.coordinator.BothKnown a b
  | _ => True

theorem Mesh.step_tidy {s : Mesh} (h : s.coordinator.Tidy)
    (hinv : s.coordinator.toRosterState.Inv G) {op : Op} (hclean : LeavesClean s op) :
    (s.step op).1.coordinator.Tidy := by
  have hleaves := s.leaves op
  generalize (s.step op).1.coordinator = c at hleaves
  cases hleaves with
  | same => exact h
  | register amb req bearer observed =>
    have hr := (Coordinator.registers amb req bearer observed hinv).tidy h hclean
    rw [← Coordinator.registerHandler_fst] at hr
    exact hr
  | heartbeat amb req observed => exact h.heartbeatHandler hinv amb req observed
  | deregister amb hid => exact h.deregister amb (hclean _ (by rw [hid]; rfl)) _
  | sweep amb => exact h.sweepOnce amb hclean
  | policy | proactive => exact h.congr rfl rfl rfl rfl rfl rfl
  | flags flags hflags =>
    rw [← hflags]
    exact h.postDirectHandler hclean
  | command => exact h.modify _ _
  | relay hrelay =>
    refine h.withRelay ?_
    cases hrelay with
    | connect now lane hreg =>
      obtain ⟨id, hid⟩ := Option.isSome_iff_exists.mp hreg
      exact h.relay.register (AList.mem_of_lookup hid) now _ _
    | deliver => exact h.relay.deliver _
    | sendEnd => exact h.relay.close _
    | disconnect => exact (h.relay.unregister _ _).close _
  | uplink now wallMicros handle buf socket => exact h.routeUplink hinv now wallMicros _ buf
  | reorder hperm =>
    refine h.grow rfl rfl rfl rfl ?_ (fun _ hk => hk)
    intro id hid
    exact (AList.mem_reorder (h := hperm)).mpr hid
  | restart => exact ⟨.new, .empty, .empty, .empty, .empty⟩

theorem tidy_of_run {cfg : Config} {tr : List (Op × Reply)} {s : Mesh}
    (h : (mesh cfg).Run LeavesClean tr s) : s.coordinator.Tidy := by
  refine Machine.Run.invariant (I := fun _ s => s.coordinator.Tidy)
    ⟨.new, .empty, .empty, .empty, .empty⟩ ?_ h
  intro tr s op hr hi _ hclean
  exact Mesh.step_tidy hi (inv_of_reach hr.reach) hclean

theorem spooled_le_spoolCap {cfg : Config} {tr : List (Op × Reply)} {s : Mesh}
    (h : (mesh cfg).Reach tr s) (k : List UInt8) :
    (s.coordinator.relay.spooled k).length ≤ spoolCap := by
  refine Machine.Run.invariant
    (I := fun _ s => ∀ k, (s.coordinator.relay.spooled k).length ≤ spoolCap)
    (fun k => Nat.zero_le _) ?_ h k
  intro tr s op hr hi _ _ k
  have hmove := Mesh.step_relay (inv_of_reach hr) op
  show ((s.step op).1.coordinator.relay.spooled k).length ≤ spoolCap
  generalize (s.step op).1 = s' at hmove ⊢
  cases hmove with
  | shed _ _ hsheds => exact (hsheds.spooled k).length_le.trans (hi k)
  | @carried now wallMicros handle buf socket dst payload sent _ _ _ _ _ _ hcarries =>
    by_cases hk : k = dst
    · rw [hk]
      exact hcarries.cap (hi dst)
    · rw [hcarries.others k hk]
      exact hi k
  | @connected now pubkey lane sent _ _ _ _ hcarries =>
    have hbefore : ∀ k, ((s.coordinator.relay.connected pubkey (parseLane lane)
        (laneChannelCap (parseLane lane))).spooled k).length ≤ spoolCap := by
      intro k
      rw [RelayRegistry.spooled_connected]
      split
      · exact Nat.zero_le _
      · exact hi k
    by_cases hk : k = pubkey
    · rw [hk]
      exact hcarries.cap (hbefore pubkey)
    · rw [hcarries.others k hk]
      exact hbefore k
  | disconnected _ _ _ hsheds _ => exact (hsheds.spooled k).length_le.trans (hi k)
  | restarted hrelay _ =>
    rw [hrelay]
    exact Nat.zero_le _

structure Coordinator.Bounded (c : Coordinator) : Prop where
  conns : c.relay.conns.entries.length ≤ c.roster.entries.length
  spool : c.relay.spool.entries.length ≤ c.roster.entries.length
  frames : (c.relay.spool.values.map List.length).sum ≤ c.roster.entries.length * spoolCap
  wakes : c.relay.wakeCooldown.entries.length ≤ c.roster.entries.length
  punches : c.punchTracker.pairs.entries.length ≤ c.roster.entries.length * c.roster.entries.length
  direct : c.directPairFlags.direct.entries.length ≤
    c.roster.entries.length * c.roster.entries.length
  pins : c.directPairFlags.pinnedToRelay.entries.length ≤
    c.roster.entries.length * c.roster.entries.length
  stats : c.relayPairStats.entries.length ≤ c.roster.entries.length * c.roster.entries.length

omit [Crates] in
theorem DashMap.Among.length_le {β : Type} {roster : DashMap Uuid PeerEntry}
    {m : DashMap (Uuid × Uuid) β} (h : DashMap.Among roster m) :
    m.entries.length ≤ roster.entries.length * roster.entries.length := by
  have hle := AList.length_entries_le (l := roster.keys ×ˢ roster.keys)
    (fun p hp => List.mem_product.mpr (h p hp))
  rw [List.length_product, AList.keys, List.keys, List.length_map] at hle
  exact hle

theorem Coordinator.Tidy.bounded {c : Coordinator} (h : c.Tidy) (hinv : c.toRosterState.Inv G)
    (hcap : ∀ k, (c.relay.spooled k).length ≤ spoolCap) : c.Bounded := by
  -- a registered key is the key of an entry
  have hkeys : ∀ {β : Type} {m : DashMap (List UInt8) β}, (∀ k ∈ m, k ∈ c.byPubkey) →
      m.entries.length ≤ c.roster.entries.length := by
    intro β m hm
    have hle := AList.length_entries_le (m := m) (l := c.roster.values.map PeerEntry.wgPublicKey) ?_
    · rw [List.length_map, AList.values, List.length_map] at hle
      exact hle
    · intro k hk
      obtain ⟨id, hid⟩ := AList.exists_lookup_of_mem (hm k hk)
      obtain ⟨e, he, rfl⟩ := hinv.index.mp hid
      exact List.mem_map_of_mem (AList.lookup_mem_values he)
  have hspool := hkeys h.relay.spool
  have hframes : (c.relay.spool.values.map List.length).sum ≤
      c.relay.spool.entries.length * spoolCap := by
    have hsum := List.sum_le_card_nsmul (c.relay.spool.values.map List.length) spoolCap ?_
    · rw [List.length_map, AList.values, List.length_map] at hsum
      exact hsum
    · intro n hn
      obtain ⟨q, hq, rfl⟩ := List.mem_map.mp hn
      obtain ⟨k, hk⟩ := AList.mem_values_iff.mp hq
      have hle := hcap k
      rw [RelayRegistry.spooled, hk] at hle
      exact hle
  exact ⟨hkeys h.relay.conns, hspool, hframes.trans (Nat.mul_le_mul_right _ hspool),
    hkeys h.relay.wakes, h.punches.length_le, h.direct.length_le, h.pins.length_le,
    h.stats.length_le⟩

structure Coordinator.NothingUnderKey (c : Coordinator) (key : List UInt8) : Prop where
  conns : c.relay.conns.lookup key = none
  spool : c.relay.spool.lookup key = none
  wakes : c.relay.wakeCooldown.lookup key = none

structure Coordinator.NothingUnderPair (c : Coordinator) (p : Uuid × Uuid) : Prop where
  punches : c.punchTracker.pairs.lookup p = none
  direct : c.directPairFlags.direct.lookup p = none
  pins : c.directPairFlags.pinnedToRelay.lookup p = none
  stats : c.relayPairStats.lookup p = none

theorem departed_peer_leaves_nothing (cfg : Config) (tr : List (Op × Reply)) (s : Mesh)
    (h : (mesh cfg).Run LeavesClean tr s) :
    (∀ key, (∀ e ∈ s.coordinator.roster.values, e.wgPublicKey ≠ key) →
      s.coordinator.NothingUnderKey key) ∧
    (∀ id, s.coordinator.roster.lookup id = none → ∀ p : Uuid × Uuid, p.1 = id ∨ p.2 = id →
      s.coordinator.NothingUnderPair p) ∧
    s.coordinator.Bounded := by
  have htidy := tidy_of_run h
  have hinv := inv_of_reach h.reach
  refine ⟨?_, ?_, htidy.bounded hinv (spooled_le_spoolCap h.reach)⟩
  · intro key hkey
    have hunknown : key ∉ s.coordinator.byPubkey := by
      intro hmem
      obtain ⟨id, hid⟩ := AList.exists_lookup_of_mem hmem
      obtain ⟨e, he, hek⟩ := hinv.index.mp hid
      exact hkey e (AList.lookup_mem_values he) hek
    have habsent : ∀ {β : Type} {m : DashMap (List UInt8) β},
        (∀ k ∈ m, k ∈ s.coordinator.byPubkey) → m.lookup key = none :=
      fun hm => AList.lookup_eq_none.mpr (fun hk => hunknown (hm key hk))
    exact ⟨habsent htidy.relay.conns, habsent htidy.relay.spool, habsent htidy.relay.wakes⟩
  · intro id hid p hp
    have hgone : id ∉ s.coordinator.roster := AList.lookup_eq_none.mp hid
    have habsent : ∀ {β : Type} {m : DashMap (Uuid × Uuid) β},
        DashMap.Among s.coordinator.roster m → m.lookup p = none := by
      intro β m hm
      refine AList.lookup_eq_none.mpr (fun hmem => ?_)
      rcases hp with rfl | rfl
      · exact hgone (hm p hmem).1
      · exact hgone (hm p hmem).2
    exact ⟨habsent htidy.punches, habsent htidy.direct, habsent htidy.pins, habsent htidy.stats⟩

end

instance (c : Coordinator) (id : Uuid) : Decidable (c.WakeFree id) :=
  Option.decidableForallMem (c.roster.lookup id)

-- the ids are those of an option or a list, and not all there are
instance [Crates] (c : Coordinator) (a b : String) : Decidable (c.BothKnown a b) :=
  have (x : Uuid) : Decidable (∀ y ∈ (Uuid.parseStr b).toOption, x ∈ c.roster ∧ y ∈ c.roster) :=
    Option.decidableForallMem (Uuid.parseStr b).toOption
  Option.decidableForallMem (Uuid.parseStr a).toOption

instance [Crates] (s : Mesh) : (op : Op) → Decidable (LeavesClean s op)
  | .register amb req _ _ =>
    Option.decidableForallMem (s.coordinator.staleUlaHolder amb.now req.requestedUla)
  | .deregister _ peerId => Option.decidableForallMem (Uuid.parseStr peerId).toOption
  | .sweep amb => List.decidableBAll _ (s.coordinator.stalePeers amb.now)
  | .postDirect a b direct pinToRelay =>
    inferInstanceAs (Decidable (direct = some true ∨ pinToRelay = some true →
      s.coordinator.BothKnown a b))
  | .heartbeat .. | .putPolicy .. | .setProactive .. | .postCommand .. | .openStream ..
  | .pollStream .. | .closeStream .. | .relayConnect .. | .relayUplink .. | .relayDeliver ..
  | .relaySendEnd .. | .relayDisconnect .. | .reorderRoster .. | .restart .. => .isTrue trivial

attribute [local instance] referenceCrates

def wakeOps : List Op :=
  pairOps [tagSystem] ++ [.relayConnect 0 (List.replicate 32 1) (some "hi"),
    .relayUplink 0 0 1 (List.replicate 32 2 ++ [1]),
    .deregister (ambientAt 0 0) (Uuid.toString 2),
    .postDirect (Uuid.toString 8) (Uuid.toString 9) (some true) none]

def cleanOps : List Op :=
  pairOps [tagSystem] ++ [.postDirect (Uuid.toString 1) (Uuid.toString 2) (some true) none,
    .deregister (ambientAt 0 0) (Uuid.toString 2)]

theorem departed_peer_leaves_traces :
    (mesh eagerConfig).Reach (traceAfter eagerConfig wakeOps) (stateAfter eagerConfig wakeOps) ∧
      (stateAfter eagerConfig wakeOps).coordinator.roster.keys = [1] ∧
      (stateAfter eagerConfig wakeOps).coordinator.relay.wakeCooldown.lookup
        (List.replicate 32 2) = some 0 ∧
      (stateAfter eagerConfig wakeOps).coordinator.directPairFlags.direct.lookup (8, 9) =
        some true := by
  have hall : (mesh eagerConfig).Admissible (fun _ _ => True) [] (Mesh.init eagerConfig) wakeOps ∧
      (stateAfter eagerConfig wakeOps).coordinator.roster.keys = [1] ∧
      (stateAfter eagerConfig wakeOps).coordinator.relay.wakeCooldown.lookup
        (List.replicate 32 2) = some 0 ∧
      (stateAfter eagerConfig wakeOps).coordinator.directPairFlags.direct.lookup (8, 9) =
        some true := by decide +kernel
  exact ⟨reach_of_admissible hall.1, hall.2⟩

theorem departed_peer_leaves_nothing_override :
    (stateAfter eagerConfig cleanOps).coordinator.roster.keys = [1] ∧
      (stateAfter eagerConfig cleanOps).coordinator.NothingUnderPair (1, 2) ∧
      (stateAfter eagerConfig cleanOps).coordinator.Bounded := by
  have hall : (mesh eagerConfig).Admissible LeavesClean [] (Mesh.init eagerConfig) cleanOps ∧
      (stateAfter eagerConfig cleanOps).coordinator.roster.keys = [1] ∧
      (stateAfter eagerConfig cleanOps).coordinator.roster.lookup 2 = none := by decide +kernel
  obtain ⟨hadm, hkeys, hgone⟩ := hall
  obtain ⟨-, hpairs, hbounded⟩ := departed_peer_leaves_nothing eagerConfig
    (traceAfter eagerConfig cleanOps) (stateAfter eagerConfig cleanOps)
    (Machine.Run.start.exec hadm)
  exact ⟨hkeys, hpairs 2 hgone (1, 2) (.inr rfl), hbounded⟩

end ServiceMesh
