import ServiceMesh.RosterSync

/-! A roster record that cannot be decoded is skipped when the records are applied, and then it is
missing from the addresses the table is pruned by. -/

namespace ServiceMesh

open StdNet (Ipv6Addr)
open PeerSession (SameSession)

namespace SessionTable

variable {t : SessionTable}

structure Holdings where
  sources : Set Ipv6Addr
  plain : Set Ipv6Addr
  apps : Set Ipv6Addr

structure Carries (ula : Ipv6Addr) (id : SessionId) (s : PeerSession) (kept : Holdings)
    (t : SessionTable) : Prop where
  session : ∃ s', t.sessionAt ula = some (id, s') ∧ SameSession s s' ∧
    ∀ a, a ∈ kept.sources ∨ a ∈ kept.plain → a ∈ s'.allowedIps
  plain : ∀ a ∈ kept.plain, t.appRoutes.lookup a ≠ some ula
  routes : ∀ app ∈ kept.apps, t.appRoutes.lookup app = some ula

/-- What one record may not do if the session is to stay as it is: rotate its key, drop a source
it has, or claim one of its apps for another peer. -/
structure Spares (info : Client.PeerInfo) (ula : Ipv6Addr) (s : PeerSession) (kept : Holdings) :
    Prop where
  key : info.ula = ula → info.wgPublicKey = s.peerPubkey
  sources : info.ula = ula → ∀ a ∈ kept.sources, a ∈ info.hostedAppUlas
  plain : info.ula = ula → ∀ a ∈ kept.plain, a ∉ info.hostedAppUlas
  apps : ∀ app ∈ kept.apps, info.ula = ula ↔ app ∈ info.hostedAppUlas

variable {ula : Ipv6Addr}

theorem heap_upsert_of_ne (h : t.Inv) {info : Client.PeerInfo} {id : SessionId} {s : PeerSession}
    (hat : t.sessionAt ula = some (id, s)) (hne : info.ula ≠ ula) :
    (t.upsert info).heap.lookup id = some s := by
  obtain ⟨hid, hs⟩ := sessionAt_eq_some_iff.mp hat
  have hu := t.upserts info
  generalize t.upsert info = t' at hu
  cases hu with
  | @kept id' old hat' hkey =>
    have hother : id ≠ id' := by
      rintro rfl
      exact hne (h.ula_unique (sessionAt_eq_some_iff.mp hat').1 hid)
    change (t.heap.modify id' _).lookup id = some s
    rw [AList.lookup_modify, if_neg hother]
    exact hs
  | @rotated id' old hat' hkey =>
    exact ((h.addRoute info.ula).unindex old).install_sessions info false hs
  | inserted hat' => exact (h.addRoute info.ula).install_sessions info true hs

theorem heap_upsert_of_key {info : Client.PeerInfo} {id : SessionId} {s : PeerSession}
    (hat : t.sessionAt info.ula = some (id, s)) (hkey : s.peerPubkey = info.wgPublicKey) :
    ∃ s', (t.upsert info).heap.lookup id = some s' ∧ SameSession s s' ∧
      s.allowedIps ⊆ s'.allowedIps := by
  have hs := (sessionAt_eq_some_iff.mp hat).2
  have hup : t.upsert info = (t.addRoute info.ula).updateInPlace id s info := by
    rw [SessionTable.upsert, hat]
    exact if_pos hkey
  refine ⟨_, ?_, (t.addRoute info.ula).sameSession_updated info s, ?_⟩
  · rw [hup]
    change (t.heap.modify id _).lookup id = _
    rw [AList.lookup_modify, if_pos rfl, hs]
    rfl
  · rw [PeerSession.foldl_addAllowedSource]
    simp only [PeerSession.allowedIps_followRoster]
    exact Finset.subset_union_left

section Step

variable {info : Client.PeerInfo} {ula : Ipv6Addr} {id : SessionId} {s : PeerSession}
  {kept : Holdings}

theorem Carries.follow_of_ne (h : t.Inv) (hc : Carries ula id s kept t)
    (hspares : Spares info ula s kept) (hne : info.ula ≠ ula) :
    Carries ula id s kept (t.follow info) := by
  have hf := h.follow_spec info
  obtain ⟨s', hat, hsame, hsources⟩ := hc.session
  have hid := (sessionAt_eq_some_iff.mp hat).1
  constructor
  · refine ⟨s', sessionAt_eq_some_iff.mpr ⟨?_, ?_⟩, hsame, hsources⟩
    · rw [hf.others hne.symm]
      exact hid
    · -- the routes of another address are reconciled at another session
      have hother : (t.upsert info).byUla.lookup info.ula ≠ some id := by
        intro hc
        have hid' : (t.upsert info).byUla.lookup ula = some id := by
          rw [(h.upsert_followed info).1 hne.symm]
          exact hid
        exact hne ((h.upsert info).ula_unique hc hid')
      have hspec := (t.upsert info).reconcileAppRoutes_spec info.ula info.hostedAppUlas
      rw [SessionTable.follow, hspec.heap, lookup_modifyAt, if_neg hother]
      exact heap_upsert_of_ne h hat hne
  · intro a ha
    rw [hf.appRoutes]
    split
    · exact fun hc => hne (Option.some.inj hc)
    · split
      · simp
      · exact hc.plain a ha
  · intro app happ
    have hroute := hc.routes app happ
    have hnot : app ∉ info.hostedAppUlas := fun hmem => hne ((hspares.apps app happ).mpr hmem)
    have hhost : t.appRoutes.lookup app ≠ some info.ula := by
      rw [hroute]
      exact fun hc => hne (Option.some.inj hc).symm
    rw [hf.appRoutes, if_neg hnot, if_neg hhost]
    exact hroute

theorem Carries.follow_of_eq (h : t.Inv) (hc : Carries info.ula id s kept t)
    (hspares : Spares info info.ula s kept) : Carries info.ula id s kept (t.follow info) := by
  have hf := h.follow_spec info
  obtain ⟨s', hat, hsame, hsources⟩ := hc.session
  have hkey : s'.peerPubkey = info.wgPublicKey := hsame.peerPubkey.trans (hspares.key rfl).symm
  have hplain : ∀ a ∈ kept.plain, (t.follow info).appRoutes.lookup a ≠ some info.ula := by
    intro a ha
    rw [hf.appRoutes, if_neg (hspares.plain rfl a ha), if_neg (hc.plain a ha)]
    exact hc.plain a ha
  constructor
  · obtain ⟨s₁, hs₁, hsame₁, hsub⟩ := heap_upsert_of_key hat hkey
    obtain ⟨-, -, hkept, -, -, happs⟩ := h.upsert_followed info
    have hspec := (t.upsert info).reconcileAppRoutes_spec info.ula info.hostedAppUlas
    refine ⟨(t.upsert info).reconciledSources info.ula info.hostedAppUlas s₁,
      sessionAt_eq_some_iff.mpr ⟨hf.kept hat hkey, ?_⟩, SameSession.trans hsame ⟨?_, ?_, ?_⟩, ?_⟩
    · rw [SessionTable.follow, hspec.heap, lookup_modifyAt, if_pos (hkept hat hkey), hs₁]
      rfl
    · exact hsame₁.peerId
    · exact hsame₁.ula
    · exact hsame₁.peerPubkey
    · intro a ha
      -- a source goes only as an app that was routed here and is advertised no more
      simp only [reconciledSources, Finset.mem_sdiff, Finset.mem_union, List.mem_toFinset,
        mem_staleApps, happs]
      refine ⟨.inl (hsub (hsources a ha)), ?_⟩
      rintro ⟨hroute, hnot⟩
      rcases ha with ha | ha
      · exact hnot (hspares.sources rfl a ha)
      · exact hc.plain a ha hroute
  · exact hplain
  · intro app happ
    rw [hf.appRoutes, if_pos ((hspares.apps app happ).mp rfl)]

theorem Carries.follow (h : t.Inv) (hc : Carries ula id s kept t)
    (hspares : Spares info ula s kept) : Carries ula id s kept (t.follow info) := by
  by_cases heq : info.ula = ula
  · subst heq
    exact hc.follow_of_eq h hspares
  · exact hc.follow_of_ne h hspares heq

theorem Carries.foldl_follow (h : t.Inv) (hc : Carries ula id s kept t)
    {infos : List Client.PeerInfo} (hspares : ∀ info ∈ infos, Spares info ula s kept) :
    Carries ula id s kept (infos.foldl SessionTable.follow t) := by
  induction infos generalizing t with
  | nil => exact hc
  | cons info rest ih =>
    have hfirst := hspares info List.mem_cons_self
    have hrest : ∀ other ∈ rest, Spares other ula s kept := fun other hother =>
      hspares other (List.mem_cons_of_mem info hother)
    exact ih (h.follow info) (hc.follow h hfirst) hrest

theorem Carries.prune (h : t.SyncInv) (hc : Carries ula id s kept t) {remoteUlas : List Ipv6Addr}
    (hula : ula ∈ remoteUlas) : Carries ula id s kept (t.prune remoteUlas) := by
  have hp := h.foldl_pruneAt_spec remoteUlas t.ulas
  obtain ⟨s', hat, hsame, hsources⟩ := hc.session
  obtain ⟨hid, hs⟩ := sessionAt_eq_some_iff.mp hat
  constructor
  · refine ⟨s', sessionAt_eq_some_iff.mpr ⟨?_, ?_⟩, hsame, hsources⟩
    · rw [SessionTable.prune, hp.byUla ula (fun hc => hc.2 hula)]
      exact hid
    · rw [SessionTable.prune, hp.heap]
      exact hs
  · intro a ha hroute
    exact hc.plain a ha ((hp.routes a ula).mp hroute).1
  · intro app happ
    exact (hp.routes app ula).mpr ⟨hc.routes app happ, fun hc => hc.2 hula⟩

end Step

theorem foldl_follow_mem (h : t.SyncInv) (infos : List Client.PeerInfo) (hula : ula ∈ t.byUla) :
    ula ∈ (infos.foldl SessionTable.follow t).byUla := by
  induction infos generalizing t with
  | nil => exact hula
  | cons info rest ih =>
    refine ih (h.follow info) ?_
    rw [(h.inv.follow_spec info).mem]
    exact .inr hula

theorem sessionAt_prune_of_notMem (h : t.SyncInv) (hula : ula ∈ t.byUla)
    {remoteUlas : List Ipv6Addr} (hnot : ula ∉ remoteUlas) :
    (t.prune remoteUlas).byUla.lookup ula = none :=
  (h.foldl_pruneAt_spec remoteUlas t.ulas).absent ula ⟨AList.mem_keys.mp hula, hnot⟩

/-- The record at the address gives up a source that is an app of the address, by the table or by
another record. -/
def Withdraws (t : SessionTable) (infos : List Client.PeerInfo) (info : Client.PeerInfo)
    (ula a : Ipv6Addr) : Prop :=
  info.ula = ula ∧ a ∉ info.hostedAppUlas ∧
    (t.appRoutes.lookup a = some ula ∨ ∃ other ∈ infos, other.ula = ula ∧ a ∈ other.hostedAppUlas)

structure InPlace (t : SessionTable) (infos : List Client.PeerInfo) (ula : Ipv6Addr)
    (id : SessionId) (s : PeerSession) (t' : SessionTable) : Prop where
  session : ∃ s', t'.sessionAt ula = some (id, s') ∧ SameSession s s' ∧
    ∀ a ∈ s.allowedIps, (∀ info ∈ infos, ¬ Withdraws t infos info ula a) → a ∈ s'.allowedIps
  hostRoute : ula ∈ t'.sink.allowed
  appRoutes : ∀ app, t.appRoutes.lookup app = some ula →
    (∀ info ∈ infos, info.ula = ula ↔ app ∈ info.hostedAppUlas) →
      t'.appRoutes.lookup app = some ula

def holdingsOf (t : SessionTable) (infos : List Client.PeerInfo) (ula : Ipv6Addr)
    (s : PeerSession) : Holdings where
  sources := { a | a ∈ s.allowedIps ∧ ∀ info ∈ infos, info.ula = ula → a ∈ info.hostedAppUlas }
  plain := { a | a ∈ s.allowedIps ∧ t.appRoutes.lookup a ≠ some ula ∧
    ∀ info ∈ infos, info.ula = ula → a ∉ info.hostedAppUlas }
  apps := { app | t.appRoutes.lookup app = some ula ∧
    ∀ info ∈ infos, info.ula = ula ↔ app ∈ info.hostedAppUlas }

theorem carries_holdingsOf {id : SessionId} {s : PeerSession}
    (hat : t.sessionAt ula = some (id, s)) (infos : List Client.PeerInfo) :
    Carries ula id s (t.holdingsOf infos ula s) t := by
  constructor
  · refine ⟨s, hat, ⟨rfl, rfl, rfl⟩, ?_⟩
    rintro a (ha | ha)
    · exact ha.1
    · exact ha.1
  · exact fun a ha => ha.2.1
  · exact fun app happ => happ.1

theorem mem_holdingsOf {infos : List Client.PeerInfo} {a : Ipv6Addr} {s : PeerSession}
    (ha : a ∈ s.allowedIps) (hkeep : ∀ info ∈ infos, ¬ Withdraws t infos info ula a) :
    a ∈ (t.holdingsOf infos ula s).sources ∨ a ∈ (t.holdingsOf infos ula s).plain := by
  by_cases happ : t.appRoutes.lookup a = some ula ∨
      ∃ other ∈ infos, other.ula = ula ∧ a ∈ other.hostedAppUlas
  · refine .inl ⟨ha, ?_⟩
    intro info hinfo hula
    by_contra hnot
    exact hkeep info hinfo ⟨hula, hnot, happ⟩
  · rw [not_or] at happ
    refine .inr ⟨ha, happ.1, ?_⟩
    intro info hinfo hula hmem
    exact happ.2 ⟨info, hinfo, hula, hmem⟩

variable [Crates]

def Undecoded (lookupHost : LookupHost) (remote : List Client.RemotePeer) (peerId : Uuid) : Prop :=
  ∃ r ∈ remote, r.peerId = peerId ∧ ∃ e, Client.remoteToInfo lookupHost r = .error e

/-- A reconcile that applies the records it can decode, each as far as no later one overrides it,
and leaves alone the sessions of the peers whose records it cannot. Where a decoded record at the
same address rotates the key, withdraws a source or moves an app, it is the decoded record that
is followed. -/
structure LeavesUndecoded (lookupHost : LookupHost) (t : SessionTable)
    (remote : List Client.RemotePeer) (t' : SessionTable) : Prop where
  applied : ∀ earlier info later,
    Client.decodeRoster lookupHost remote = earlier ++ info :: later →
    (∀ other ∈ later, other.ula ≠ info.ula) →
    (∃ id s, t'.sessionAt info.ula = some (id, s) ∧ s.peerPubkey = info.wgPublicKey) ∧
    ∀ app ∈ info.hostedAppUlas, (∀ other ∈ later, app ∉ other.hostedAppUlas) →
      t'.appRoutes.lookup app = some info.ula
  inPlace : ∀ ula id s, t.sessionAt ula = some (id, s) →
    Undecoded lookupHost remote s.peerId →
    (∀ info ∈ Client.decodeRoster lookupHost remote, info.ula = ula →
      info.wgPublicKey = s.peerPubkey) →
    InPlace t (Client.decodeRoster lookupHost remote) ula id s t'

theorem SyncInv.reconcileRoster_applied (h : t.SyncInv) {lookupHost : LookupHost}
    {remote : List Client.RemotePeer} {earlier later : List Client.PeerInfo}
    {info : Client.PeerInfo}
    (hinfos : Client.decodeRoster lookupHost remote = earlier ++ info :: later)
    (hlater : ∀ other ∈ later, other.ula ≠ info.ula) :
    ∃ id s, s.peerPubkey = info.wgPublicKey ∧
      Carries info.ula id s
        ⟨∅, ∅, { app | app ∈ info.hostedAppUlas ∧ ∀ other ∈ later, app ∉ other.hostedAppUlas }⟩
        (t.reconcileRoster lookupHost remote) := by
  have hbefore := h.foldl_follow earlier
  have hf := hbefore.inv.follow_spec info
  obtain ⟨id, s, hat, hkey⟩ := hf.here
  refine ⟨id, s, hkey, ?_⟩
  have hfirst : Carries info.ula id s
      ⟨∅, ∅, { app | app ∈ info.hostedAppUlas ∧ ∀ other ∈ later, app ∉ other.hostedAppUlas }⟩
      ((earlier.foldl SessionTable.follow t).follow info) := by
    refine ⟨⟨s, hat, ⟨rfl, rfl, rfl⟩, by simp⟩, by simp, ?_⟩
    intro app happ
    rw [hf.appRoutes, if_pos happ.1]
  have hspares : ∀ other ∈ later, Spares other info.ula s
      ⟨∅, ∅, { app | app ∈ info.hostedAppUlas ∧ ∀ other ∈ later, app ∉ other.hostedAppUlas }⟩ := by
    intro other hother
    have hne := hlater other hother
    refine ⟨fun hc => absurd hc hne, fun hc => absurd hc hne, fun hc => absurd hc hne, ?_⟩
    intro app happ
    exact iff_of_false hne (happ.2 other hother)
  have hall := hfirst.foldl_follow (hbefore.inv.follow info) hspares
  have hfold : (Client.decodeRoster lookupHost remote).foldl SessionTable.follow t =
      later.foldl SessionTable.follow ((earlier.foldl SessionTable.follow t).follow info) := by
    rw [hinfos, List.foldl_append, List.foldl_cons]
  rw [← hfold] at hall
  refine hall.prune (h.foldl_follow _) ?_
  rw [hinfos]
  simp

theorem SyncInv.reconcileRoster_inPlace (h : t.SyncInv) {lookupHost : LookupHost}
    {remote : List Client.RemotePeer} {id : SessionId} {s : PeerSession}
    (hat : t.sessionAt ula = some (id, s))
    (hkeys : ∀ info ∈ Client.decodeRoster lookupHost remote, info.ula = ula →
      info.wgPublicKey = s.peerPubkey)
    (hula : ula ∈ (Client.decodeRoster lookupHost remote).map Client.PeerInfo.ula) :
    InPlace t (Client.decodeRoster lookupHost remote) ula id s
      (t.reconcileRoster lookupHost remote) := by
  have hspares : ∀ info ∈ Client.decodeRoster lookupHost remote,
      Spares info ula s (t.holdingsOf (Client.decodeRoster lookupHost remote) ula s) := by
    intro info hinfo
    exact ⟨hkeys info hinfo, fun heq a ha => ha.2 info hinfo heq,
      fun heq a ha => ha.2.2 info hinfo heq, fun app happ => happ.2 info hinfo⟩
  have hall := (carries_holdingsOf hat _).foldl_follow h.inv hspares
  have hend := hall.prune (h.foldl_follow _) hula
  have hinv : (t.reconcileRoster lookupHost remote).SyncInv := (h.foldl_follow _).foldl_pruneAt _ _
  obtain ⟨s', hat', hsame, hsources⟩ := hend.session
  constructor
  · refine ⟨s', hat', hsame, ?_⟩
    intro a ha hkeep
    exact hsources a (mem_holdingsOf ha hkeep)
  · rw [hinv.routes]
    exact AList.mem_of_lookup (sessionAt_eq_some_iff.mp hat').1
  · intro app hroute hnamed
    exact hend.routes app ⟨hroute, hnamed⟩

end SessionTable

section Main

variable [Crates]

/-- A reconcile leaves the sessions of undecodable records in place exactly when each of them is at
an address that a record that did decode gives. -/
theorem reconcile_spares_undecoded {tr : List (SyncOp × Unit)} {t : SessionTable}
    (h : sync.Reach tr t) (lookupHost : LookupHost) (remote : List Client.RemotePeer) :
    SessionTable.LeavesUndecoded lookupHost t remote (t.reconcileRoster lookupHost remote) ↔
      ∀ ula id s, t.sessionAt ula = some (id, s) →
        SessionTable.Undecoded lookupHost remote s.peerId →
        ula ∈ (Client.decodeRoster lookupHost remote).map Client.PeerInfo.ula := by
  have hinv := syncInv_of_reach h
  constructor
  · intro hleaves ula id s hat hlisted
    by_contra hnot
    have hkeys : ∀ info ∈ Client.decodeRoster lookupHost remote, info.ula = ula →
        info.wgPublicKey = s.peerPubkey := by
      intro info hinfo heq
      exact absurd (heq ▸ List.mem_map_of_mem hinfo) hnot
    obtain ⟨s', hat', -⟩ := (hleaves.inPlace ula id s hat hlisted hkeys).session
    have hmem : ula ∈ t.byUla := AList.mem_of_lookup (SessionTable.sessionAt_eq_some_iff.mp hat).1
    have hgone : (t.reconcileRoster lookupHost remote).byUla.lookup ula = none :=
      SessionTable.sessionAt_prune_of_notMem (hinv.foldl_follow _)
        (SessionTable.foldl_follow_mem hinv _ hmem) hnot
    rw [(SessionTable.sessionAt_eq_some_iff.mp hat').1] at hgone
    simp at hgone
  · intro hlisted
    constructor
    · intro earlier info later hinfos hlater
      obtain ⟨id, s, hkey, hend⟩ := hinv.reconcileRoster_applied hinfos hlater
      obtain ⟨s', hat, hsame, -⟩ := hend.session
      refine ⟨⟨id, s', hat, hsame.peerPubkey.trans hkey⟩, ?_⟩
      intro app happ hfree
      exact hend.routes app ⟨happ, hfree⟩
    · intro ula id s hat hundecoded hkeys
      exact hinv.reconcileRoster_inPlace hat hkeys (hlisted ula id s hat hundecoded)

end Main

section Example

attribute [local instance] referenceCrates

def cutRecord : Client.RemotePeer := { homeRecord ["fd00::a"] with wgPublicKey := "AAAA" }

theorem reach_homeTable : ∃ tr, sync.Reach tr homeTable :=
  ⟨_, Machine.Run.exec .start
    (Machine.Admissible.of_free (fun _ _ => trivial) [] sync.init _)⟩

theorem homeTable_session :
    (homeTable.sessionAt ⟨0xfd00, 0, 0, 0, 0, 0, 0, 1⟩).map (fun c => (c.1, c.2.peerId)) =
      some (0, 1) := by
  decide +kernel

theorem undecoded_cutRecord : SessionTable.Undecoded (fun _ => none) [cutRecord] 1 :=
  ⟨cutRecord, List.mem_singleton.mpr rfl, rfl, "wg_public_key length 3 != 32", by decide +kernel⟩

/-- The home peer is still in the roster, with a key that does not decode, and its session is
gone. -/
theorem cut_record_costs_session :
    (∃ tr, sync.Reach tr homeTable) ∧
      ¬ SessionTable.LeavesUndecoded (fun _ => none) homeTable [cutRecord]
        (homeTable.reconcileRoster (fun _ => none) [cutRecord]) := by
  refine ⟨reach_homeTable, ?_⟩
  intro hleaves
  obtain ⟨⟨id, s⟩, hat, hids⟩ := Option.map_eq_some_iff.mp homeTable_session
  obtain ⟨-, hpeer⟩ := Prod.mk.inj hids
  have hnone : Client.decodeRoster (fun _ => none) [cutRecord] = [] := by decide +kernel
  have hplace := hleaves.inPlace _ id s hat (hpeer ▸ undecoded_cutRecord) (by simp [hnone])
  obtain ⟨s', hat', -⟩ := hplace.session
  have hgone : (homeTable.reconcileRoster (fun _ => none) [cutRecord]).sessionAt
      ⟨0xfd00, 0, 0, 0, 0, 0, 0, 1⟩ = none := by decide +kernel
  rw [hgone] at hat'
  simp at hat'

theorem reconcile_spares_undecoded_twice :
    SessionTable.LeavesUndecoded (fun _ => none) homeTable [cutRecord, homeRecord ["fd00::a"]]
      (homeTable.reconcileRoster (fun _ => none) [cutRecord, homeRecord ["fd00::a"]]) := by
  obtain ⟨tr, hreach⟩ := reach_homeTable
  apply (reconcile_spares_undecoded hreach _ _).mpr
  intro ula id s hat _
  have hulas : homeTable.byUla.keys = [⟨0xfd00, 0, 0, 0, 0, 0, 0, 1⟩] := by decide +kernel
  have hmem : ula ∈ homeTable.byUla.keys :=
    AList.mem_keys.mp (AList.mem_of_lookup (SessionTable.sessionAt_eq_some_iff.mp hat).1)
  rw [hulas, List.mem_singleton] at hmem
  subst hmem
  decide +kernel

end Example

end ServiceMesh
