import ServiceMesh.RosterIntegrity

/-! What a refused register leaves behind. Every refusal but one leaves the coordinator as it
was: a stale holder is evicted before the requested address is checked against the network. -/

namespace ServiceMesh

open StdNet (Ipv6Addr SocketAddr)

def Reply.registerError : Reply → Option CoordinatorError
  | .register (.error err) => some err
  | _ => none

theorem Reply.registerError_eq_some {reply : Reply} {err : CoordinatorError}
    (h : reply.registerError = some err) : reply = .register (.error err) := by
  unfold Reply.registerError at h
  split at h
  · rw [Option.some.inj h]
  · simp at h

structure SameEffects (c c' : Coordinator) : Prop where
  roster : c'.roster = c.roster
  byPubkey : c'.byPubkey = c.byPubkey
  allocator : c'.allocator = c.allocator
  relay : c'.relay = c.relay
  punchTracker : c'.punchTracker = c.punchTracker
  directPairFlags : c'.directPairFlags = c.directPairFlags
  broadcaster : c'.broadcaster = c.broadcaster

theorem SameEffects.refl (c : Coordinator) : SameEffects c c := ⟨rfl, rfl, rfl, rfl, rfl, rfl, rfl⟩

section

variable [Crates]

/-- An admitted first-time register for an address outside the caller's network that a stale peer
holds. -/
def Coordinator.EvictsForForeign (c : Coordinator) (amb : Ambient) (req : RegisterRequest)
    (bearer : Option String) : Prop :=
  ∃ claims pubkey raw ula, c.admission amb req bearer = .ok (claims, pubkey) ∧
    c.byPubkey.lookup pubkey = none ∧ req.requestedUla = some raw ∧
    Ipv6Addr.parse raw = some ula ∧ ¬ SlotBound ula (stampIdentity req claims).network ∧
    (c.staleUlaHolder amb.now (some raw)).isSome = true

namespace RosterState

omit [Crates] in
theorem resolveUla_of_free {m : RosterState} {network raw : String} {ula : Ipv6Addr}
    (hparse : Ipv6Addr.parse raw = some ula) (hul : isUniqueLocal ula = true)
    (hslot : SlotBound ula network) (hfree : ∀ x ∈ m.roster.values, x.ula ≠ ula) :
    (m.resolveUla network (some raw)).isOk = true := by
  have hbound : (ula.seg1 == hostUlaSlot && !isFixedInfraUla ula &&
      ula.seg2 != networkSlot network) = false := by
    rw [Bool.eq_false_iff]
    intro h
    simp only [Bool.and_eq_true, beq_iff_eq, Bool.not_eq_true', bne_iff_ne] at h
    exact h.2 (hslot h.1.1 h.1.2)
  have hany : m.roster.values.any (fun e => e.ula == ula) = false := by
    rw [List.any_eq_false]
    intro x hx
    simp [hfree x hx]
  simp only [resolveUla, hparse, hul, hbound, hany]
  rfl

end RosterState

namespace Coordinator

variable {c : Coordinator} {G : Uuid → Ipv6Addr → Prop}

omit [Crates] in
theorem staleUlaHolder_eq_some {now : Nat} {requestedUla : Option String} {id : Uuid}
    (h : c.staleUlaHolder now requestedUla = some id) :
    ∃ raw ula e, requestedUla = some raw ∧ Ipv6Addr.parse raw = some ula ∧
      e ∈ c.roster.values ∧ e.ula = ula ∧ e.peerId = id := by
  unfold staleUlaHolder at h
  split at h
  · simp at h
  · rename_i raw
    split at h
    · simp at h
    · rename_i ula hparse
      split at h
      · simp at h
      · rename_i holder hfind
        split at h
        · refine ⟨raw, ula, holder, rfl, hparse, List.mem_of_find?_eq_some hfind, ?_, Option.some.inj h⟩
          simpa using List.find?_some hfind
        · simp at h

theorem evictStaleUlaHolder_free (h : c.toRosterState.Inv G) {amb : Ambient} {raw : String}
    {ula : Ipv6Addr} (hparse : Ipv6Addr.parse raw = some ula) {id : Uuid}
    (hs : c.staleUlaHolder amb.now (some raw) = some id) :
    isUniqueLocal ula = true ∧ c.roster.lookup id ≠ none ∧
      (c.evictStaleUlaHolder amb (some raw)).roster.lookup id = none ∧
      ∀ x ∈ (c.evictStaleUlaHolder amb (some raw)).roster.values, x.ula ≠ ula := by
  obtain ⟨raw', ula', e, hraw, hparse', he, hula, hid⟩ := staleUlaHolder_eq_some hs
  obtain rfl := Option.some.inj hraw
  obtain rfl := Option.some.inj (hparse.symm.trans hparse')
  obtain ⟨k, hk⟩ := AList.mem_values_iff.mp he
  obtain rfl : k = id := (h.keyed hk).symm.trans hid
  have hlook : ∀ x, (c.evictStaleUlaHolder amb (some raw)).roster.lookup x =
      if x = k then none else c.roster.lookup x := by
    intro x
    rcases c.evictStaleUlaHolder_cases amb (some raw) with ⟨hnone, -⟩ | ⟨id', hs', hev⟩
    · rw [hs] at hnone
      simp at hnone
    · obtain rfl := Option.some.inj (hs.symm.trans hs')
      rw [hev, RosterState.roster_persistRoster, RosterState.roster_lookup_without]
  refine ⟨hula ▸ (h.seated hk).uniqueLocal, by simp [hk], by simp [hlook], ?_⟩
  intro x hx hxula
  obtain ⟨p, hp⟩ := AList.mem_values_iff.mp hx
  rw [hlook] at hp
  split at hp
  · simp at hp
  · rename_i hne
    exact hne (h.ula hp hk (hxula.trans hula.symm))

theorem sameEffects_of_join_refused (h : c.toRosterState.Inv G) {amb : Ambient}
    {req : RegisterRequest} {claims : Option ValidatedClaims} {pubkey : List UInt8}
    {resolved : ResolvedEndpoint} {observed : Option SocketAddr} {err : CoordinatorError}
    (hr : ((c.evictStaleUlaHolder amb req.requestedUla).joinPeer amb req claims pubkey resolved
      observed).2 = .error err) :
    SameEffects c ((c.evictStaleUlaHolder amb req.requestedUla).joinPeer amb req claims pubkey
        resolved observed).1 ↔
      ¬ ∃ raw ula, req.requestedUla = some raw ∧ Ipv6Addr.parse raw = some ula ∧
        ¬ SlotBound ula (stampIdentity req claims).network ∧
        (c.staleUlaHolder amb.now (some raw)).isSome = true := by
  have hev := (c.evictStaleUlaHolder_steps amb req.requestedUla).inv_quiet h
  rcases joinPeer_cases amb req claims pubkey resolved observed hev with
    ⟨err', hres, hj⟩ | ⟨ula, -, hj⟩
  · rw [hj]
    cases hs : c.staleUlaHolder amb.now req.requestedUla with
    | none =>
      have hsame : c.evictStaleUlaHolder amb req.requestedUla = c := by
        rw [evictStaleUlaHolder, hs]
      have hno : ¬ ∃ raw ula, req.requestedUla = some raw ∧ Ipv6Addr.parse raw = some ula ∧
          ¬ SlotBound ula (stampIdentity req claims).network ∧
          (c.staleUlaHolder amb.now (some raw)).isSome = true := by
        rintro ⟨raw, ula, hraw, -, -, hsome⟩
        rw [← hraw, hs] at hsome
        simp at hsome
      rw [hsame]
      exact iff_of_true (.refl c) hno
    | some id =>
      obtain ⟨raw, ula, -, hraw, hparse, -⟩ := staleUlaHolder_eq_some hs
      rw [hraw] at hs hres ⊢
      obtain ⟨hul, hheld, hgone, hfree⟩ := evictStaleUlaHolder_free h hparse hs
      have hforeign : ¬ SlotBound ula (stampIdentity req claims).network := by
        intro hslot
        have hok := RosterState.resolveUla_of_free hparse hul hslot hfree
        rw [hres] at hok
        simp [Except.isOk, Except.toBool] at hok
      have hchanged : ¬ SameEffects c (c.evictStaleUlaHolder amb (some raw)) := by
        intro hsame
        rw [hsame.roster] at hgone
        exact hheld hgone
      refine iff_of_false hchanged (not_not.mpr ?_)
      exact ⟨raw, ula, rfl, hparse, hforeign, by rw [hs]; rfl⟩
  · simp [hj] at hr

theorem sameEffects_of_register_refused (h : c.toRosterState.Inv G) {amb : Ambient}
    {req : RegisterRequest} {bearer : Option String} {observed : Option SocketAddr}
    {err : CoordinatorError} (hr : (c.registerAuthenticated amb req bearer observed).2 = .error err) :
    SameEffects c (c.registerAuthenticated amb req bearer observed).1 ↔
      ¬ c.EvictsForForeign amb req bearer := by
  cases hadm : c.admission amb req bearer with
  | error e =>
    rw [registerAuthenticated_refused observed hadm]
    refine iff_of_true (.refl c) ?_
    rintro ⟨claims, pubkey, raw, ula, hadm', -⟩
    rw [hadm] at hadm'
    simp at hadm'
  | ok a =>
    obtain ⟨claims, pubkey⟩ := a
    have hpub : ∀ {claims' pubkey'}, c.admission amb req bearer = .ok (claims', pubkey') →
        claims' = claims ∧ pubkey' = pubkey := by
      intro claims' pubkey' h'
      rw [hadm] at h'
      obtain ⟨rfl, rfl⟩ := Prod.mk.inj (Except.ok.inj h')
      exact ⟨rfl, rfl⟩
    cases hk : c.byPubkey.lookup pubkey with
    | some id =>
      rw [registerAuthenticated_known observed hadm hk] at hr ⊢
      have hno : ¬ c.EvictsForForeign amb req bearer := by
        rintro ⟨claims', pubkey', raw, ula, hadm', hnone, -⟩
        rw [(hpub hadm').2, hk] at hnone
        simp at hnone
      rcases refreshExisting_steps h id with ⟨err', hc⟩ | ⟨entry, hc, -⟩ | ⟨entry, hc, -⟩
      · rw [hc]
        exact iff_of_true (.refl c) hno
      · simp [hc, Except.map] at hr
      · simp [hc, Except.map] at hr
    | none =>
      rw [registerAuthenticated_new observed hadm hk] at hr ⊢
      simp only at hr ⊢
      cases hres : ((c.evictStaleUlaHolder amb req.requestedUla).joinPeer amb req claims pubkey
          (req.resolved observed) observed).2 with
      | ok entry => simp [hres, Except.map] at hr
      | error err' =>
        have hfail : (Except.error err' : Except CoordinatorError PeerEntry).isOk = false := rfl
        rw [hfail, if_neg Bool.false_ne_true, sameEffects_of_join_refused h hres]
        apply not_congr
        constructor
        · rintro ⟨raw, ula, hrest⟩
          exact ⟨claims, pubkey, raw, ula, hadm, hk, hrest⟩
        · rintro ⟨claims', pubkey', raw, ula, hadm', -, hrest⟩
          obtain ⟨rfl, rfl⟩ := hpub hadm'
          exact ⟨raw, ula, hrest⟩

end Coordinator

/-- A rejected register has no effect, unless it asks for an address outside its network that a
stale peer holds: that peer is gone although the register was refused. -/
theorem rejected_register_effects {cfg : Config} {tr : List (Op × Reply)} {s : Mesh}
    (h : (mesh cfg).Reach tr s) {amb : Ambient} {req : RegisterRequest} {bearer : Option String}
    {observed : Option SocketAddr} {err : CoordinatorError}
    (hr : (s.step (.register amb req bearer observed)).2 = .register (.error err)) :
    SameEffects s.coordinator (s.step (.register amb req bearer observed)).1.coordinator ↔
      ¬ s.coordinator.EvictsForForeign amb req bearer := by
  have hans := Reply.register.inj hr
  have hres := Coordinator.registerHandler_eq_error hans
  have hcoord : (s.step (.register amb req bearer observed)).1.coordinator =
      (s.coordinator.registerAuthenticated amb req bearer observed).1 :=
    Coordinator.registerHandler_fst _ _ _ _ _
  rw [hcoord]
  exact Coordinator.sameEffects_of_register_refused (inv_of_reach h) hres

end

def squatRequest : RegisterRequest := plainRequest keyTwo "bob" (some "fd5a:1f00:2697:1::1")

attribute [local instance] referenceCrates

theorem refused_register_evicts_holder :
    ∃ tr s amb req bearer observed, (mesh openConfig).Reach tr s ∧
      (s.step (.register amb req bearer observed)).2 =
        .register (.error (.ulaNetworkMismatch "fd5a:1f00:2697:1::1" "bob")) ∧
      ∃ p, s.coordinator.roster.lookup p ≠ none ∧
        (s.step (.register amb req bearer observed)).1.coordinator.roster.lookup p = none := by
  have hreply : ((stateAfter openConfig aliceOps).step
      (registerOp (secs 91) 2 squatRequest)).2.registerError = some (.ulaNetworkMismatch "fd5a:1f00:2697:1::1" "bob") := by decide
  have hheld : ((stateAfter openConfig aliceOps).coordinator.roster.lookup 1).isSome = true := by
    decide
  have hgone : (((stateAfter openConfig aliceOps).step
      (registerOp (secs 91) 2 squatRequest)).1.coordinator.roster.lookup 1).isNone = true := by
    decide
  refine ⟨_, _, ambientAt (secs 91) 2, squatRequest, none, none, reach_aliceOps, ?_, 1,
    Option.isSome_iff_ne_none.mp hheld, Option.isNone_iff_eq_none.mp hgone⟩
  exact Reply.registerError_eq_some hreply

theorem rejected_register_effects_live_holder :
    SameEffects (stateAfter openConfig aliceOps).coordinator
      ((stateAfter openConfig aliceOps).step
        (registerOp (secs 10) 2 squatRequest)).1.coordinator := by
  have hreply : ((stateAfter openConfig aliceOps).step
      (registerOp (secs 10) 2 squatRequest)).2.registerError = some (.ulaNetworkMismatch "fd5a:1f00:2697:1::1" "bob") := by decide
  have hlive : (stateAfter openConfig aliceOps).coordinator.staleUlaHolder (secs 10)
      squatRequest.requestedUla = none := by decide
  refine (rejected_register_effects reach_aliceOps (Reply.registerError_eq_some hreply)).mpr ?_
  rintro ⟨claims, pubkey, raw, ula, -, -, hraw, -, -, hstale⟩
  have hnone : (stateAfter openConfig aliceOps).coordinator.staleUlaHolder (secs 10) (some raw) =
      none := by
    rw [← hraw]
    exact hlive
  have hstale' : ((stateAfter openConfig aliceOps).coordinator.staleUlaHolder (secs 10)
      (some raw)).isSome = true := hstale
  rw [hnone] at hstale'
  simp at hstale'

end ServiceMesh
