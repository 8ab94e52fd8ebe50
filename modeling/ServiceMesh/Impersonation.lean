import ServiceMesh.AllowedSources
import ServiceMesh.DeadSessions

/-! Whether a peer can send packets in the name of another. A packet is checked against the sources
of the session it came through, and an index may still lead to a session that is gone. -/

namespace ServiceMesh

open StdNet (Ipv6Addr SocketAddr)

namespace SessionTable

variable {t : SessionTable}

def LeadsTo (t : SessionTable) (skip : Option SocketAddr) (id : SessionId) : Prop :=
  (∃ ula, t.byUla.lookup ula = some id) ∨
    ∃ addr, skip ≠ some addr ∧ t.byEndpoint.lookup addr = some id

def Sourced (t : SessionTable) (id : SessionId) (source : Ipv6Addr) : Prop :=
  ∃ s, t.heap.lookup id = some s ∧ source ∈ s.allowedIps

variable {id : SessionId}

theorem sourced_iff {s : PeerSession} (hs : t.heap.lookup id = some s) (source : Ipv6Addr) :
    t.Sourced id source ↔ source ∈ s.allowedIps := by
  constructor
  · rintro ⟨s', hs', hin⟩
    rw [Option.some.inj (hs.symm.trans hs')]
    exact hin
  · exact fun hin => ⟨s, hs, hin⟩

/-- A packet that passes the source check of a session, with the address of a live session as its
source, came through that live session. -/
def NoImpersonation (t : SessionTable) : Prop :=
  ∀ id s packet source id', t.LeadsTo none id → t.heap.lookup id = some s →
    s.innerSourceAllowed packet = true → ipv6Source packet = some source →
    t.byUla.lookup source = some id' → id = id'

def Secure (t : SessionTable) : Prop :=
  ∀ id source id', t.LeadsTo none id → t.Sourced id source → t.byUla.lookup source = some id' →
    id = id'

theorem noImpersonation_iff : t.NoImpersonation ↔ t.Secure := by
  constructor
  · rintro h id source id' hlead ⟨s, hs, hin⟩ hlive
    refine h id s (directProbePacket source source) source id' hlead hs ?_
      (ipv6Source_directProbePacket source source) hlive
    simp [PeerSession.innerSourceAllowed, ipv6Source_directProbePacket,
      PeerSession.isAllowedSource, hin]
  · intro h id s packet source id' hlead hs hpass hsource hlive
    refine h id source id' hlead ⟨s, hs, ?_⟩ hlive
    simpa [PeerSession.innerSourceAllowed, hsource, PeerSession.isAllowedSource] using hpass

theorem secure_new : Secure new := by
  rintro id source id' - ⟨s, hs, -⟩
  simp [new] at hs

/-- What a step must not do: give a new session an address that some session may use already; give
a session the address of another one as an app; or replace a session that may use its address
while an old alias still leads to it. -/
def KeepsSecure (t : SessionTable) : TableOp → Prop
  | .upsert info =>
      (t.sessionAt info.ula = none →
        ∀ id, t.LeadsTo info.listenEndpoint id → ¬ t.Sourced id info.ula) ∧
      ∀ id s, t.sessionAt info.ula = some (id, s) →
        (∀ a ∈ t.byUla, t.appRoutes.lookup a = some info.ula → a = info.ula) ∧
        (s.peerPubkey ≠ info.wgPublicKey →
          OnlyCurrentAlias t (.upsert info) id s ∨ info.ula ∉ s.allowedIps)
  | .appRoutes hostUla advertised =>
      hostUla ∈ t.byUla → ∀ a ∈ advertised, a ∈ t.byUla → a = hostUla
  | .remove _ | .datagram _ _ _ | .relayed _ | .downgrade _ => True

theorem Secure.shrink (h : t.Secure) {t' : SessionTable}
    (hlead : ∀ {id}, t'.LeadsTo none id → t.LeadsTo none id)
    (hsourced : ∀ {id source}, t'.Sourced id source → t.Sourced id source)
    (hlive : ∀ {ula id}, t'.byUla.lookup ula = some id → t.byUla.lookup ula = some id) :
    t'.Secure :=
  fun id source id' hl hs hula => h id source id' (hlead hl) (hsourced hs) (hlive hula)

theorem Inv.secure_gain_iff (h : t.Inv) (hsec : t.Secure) {t' : SessionTable} {ula : Ipv6Addr}
    (hid : t.byUla.lookup ula = some id) {gain : Ipv6Addr → Prop} (hulas : t'.byUla = t.byUla)
    (hlead : ∀ {k}, t'.LeadsTo none k → t.LeadsTo none k)
    (hothers : ∀ {k}, k ≠ id → ∀ source, t'.Sourced k source ↔ t.Sourced k source)
    (hupper : ∀ {source}, t'.Sourced id source → t.Sourced id source ∨ gain source)
    (hlower : ∀ {source}, gain source → t'.Sourced id source) :
    t'.Secure ↔ ∀ a ∈ t.byUla, gain a → a = ula := by
  constructor
  · intro hsec' a ha hgain
    obtain ⟨id', hid'⟩ := Option.isSome_iff_exists.mp (AList.lookup_isSome.mpr ha)
    have heq : id = id' := by
      refine hsec' id a id' (.inl ⟨ula, ?_⟩) (hlower hgain) ?_
      · rw [hulas]
        exact hid
      · rw [hulas]
        exact hid'
    exact h.ula_unique (heq ▸ hid') hid
  · intro hgain k source id' hl hs hlive
    rw [hulas] at hlive
    by_cases hk : k = id
    · subst hk
      rcases hupper hs with hold | hnew
      · exact hsec _ _ _ (hlead hl) hold hlive
      · have heq := hgain source (AList.mem_of_lookup hlive) hnew
        rw [heq] at hlive
        exact Option.some.inj (hid.symm.trans hlive)
    · exact hsec _ _ _ (hlead hl) ((hothers hk source).mp hs) hlive

theorem sourced_modifyAt {t' : SessionTable} {ula : Ipv6Addr} {f : PeerSession → PeerSession}
    (hheap : t'.heap = t.modifyAt ula f) (hne : t.byUla.lookup ula ≠ some id) (source : Ipv6Addr) :
    t'.Sourced id source ↔ t.Sourced id source := by
  rw [Sourced, Sourced, hheap, lookup_modifyAt, if_neg hne]

theorem sourced_modifyAt_self {t' : SessionTable} {ula : Ipv6Addr} {f : PeerSession → PeerSession}
    (hheap : t'.heap = t.modifyAt ula f) {s : PeerSession} (hat : t.sessionAt ula = some (id, s))
    (source : Ipv6Addr) : t'.Sourced id source ↔ source ∈ (f s).allowedIps := by
  obtain ⟨hid, hs⟩ := sessionAt_eq_some_iff.mp hat
  refine sourced_iff ?_ source
  rw [hheap, lookup_modifyAt, if_pos hid, hs]
  rfl

theorem Inv.secure_kept_iff (h : t.Inv) (hsec : t.Secure) {info : Client.PeerInfo}
    {old : PeerSession} (hat : t.sessionAt info.ula = some (id, old)) :
    ((t.addRoute info.ula).updateInPlace id old info).Secure ↔
      ∀ a ∈ t.byUla, t.appRoutes.lookup a = some info.ula → a = info.ula := by
  obtain ⟨hid, hs⟩ := sessionAt_eq_some_iff.mp hat
  have hheap : ((t.addRoute info.ula).updateInPlace id old info).heap =
      t.modifyAt info.ula (fun s => (t.appUlasForHost info.ula).foldl
        PeerSession.addAllowedSource (s.followRoster info.listenEndpoint)) := by
    rw [modifyAt_eq hid]
    rfl
  have hself := sourced_modifyAt_self hheap hat
  simp only [PeerSession.foldl_addAllowedSource, PeerSession.allowedIps_followRoster,
    Finset.mem_union, List.mem_toFinset, mem_appUlasForHost] at hself
  refine h.secure_gain_iff hsec hid rfl ?_ ?_ ?_ ?_
  · intro k hl
    rcases hl with hula | ⟨addr, -, halias⟩
    · exact .inl hula
    · by_cases hk : k = id
      · exact .inl ⟨info.ula, hk ▸ hid⟩
      · -- only the session itself can have gained an alias
        refine .inr ⟨addr, by simp, ?_⟩
        simp only [SessionTable.updateInPlace] at halias
        split at halias
        · exact lookup_aliased_of_ne hk halias
        · exact lookup_unaliased_of_some (lookup_aliased_of_ne hk halias)
  · intro k hk
    exact sourced_modifyAt hheap (fun hc => hk (Option.some.inj (hc.symm.trans hid)))
  · intro source hin
    rw [sourced_iff hs]
    exact (hself source).mp hin
  · intro source hroute
    exact (hself source).mpr (.inr hroute)

theorem Inv.secure_appRoutes_iff (h : t.Inv) (hsec : t.Secure) (hostUla : Ipv6Addr)
    (advertised : List Ipv6Addr) :
    (t.reconcileAppRoutes hostUla advertised).Secure ↔
      t.KeepsSecure (.appRoutes hostUla advertised) := by
  have hspec := t.reconcileAppRoutes_spec hostUla advertised
  have hlead : ∀ {k}, (t.reconcileAppRoutes hostUla advertised).LeadsTo none k →
      t.LeadsTo none k := by
    intro k hl
    rw [LeadsTo, hspec.byUla, hspec.byEndpoint] at hl
    exact hl
  cases hid : t.byUla.lookup hostUla with
  | none =>
    have hdead : hostUla ∉ t.byUla := AList.lookup_eq_none.mp hid
    refine iff_of_true (hsec.shrink hlead ?_ ?_) (fun hlive => absurd hlive hdead)
    · intro k source
      exact (sourced_modifyAt hspec.heap (by rw [hid]; simp) source).mp
    · intro ula k hula
      rw [hspec.byUla] at hula
      exact hula
  | some id =>
    obtain ⟨s, hat, -⟩ := h.sessionAt hid
    have hlive : hostUla ∈ t.byUla := AList.mem_of_lookup hid
    have hself := sourced_modifyAt_self hspec.heap hat
    simp only [reconciledSources, Finset.mem_sdiff, Finset.mem_union, List.mem_toFinset,
      mem_staleApps] at hself
    have hgain : (t.reconcileAppRoutes hostUla advertised).Secure ↔
        ∀ a ∈ t.byUla, a ∈ advertised → a = hostUla := by
      refine h.secure_gain_iff hsec hid hspec.byUla hlead ?_ ?_ ?_
      · intro k hk
        exact sourced_modifyAt hspec.heap (fun hc => hk (Option.some.inj (hc.symm.trans hid)))
      · intro source hin
        rw [sourced_iff (sessionAt_eq_some_iff.mp hat).2]
        exact ((hself source).mp hin).1
      · intro source hin
        exact (hself source).mpr ⟨.inr hin, fun hc => hc.2 hin⟩
    rw [hgain, KeepsSecure]
    exact ⟨fun hall _ a ha hula => hall a hula ha, fun hall a hula ha => hall hlive a ha hula⟩

def OldWay (t : SessionTable) (info : Client.PeerInfo) (id : SessionId) : Prop :=
  (∃ ula, ula ≠ info.ula ∧ t.byUla.lookup ula = some id) ∨
    ∃ addr, info.listenEndpoint ≠ some addr ∧ t.byEndpoint.lookup addr = some id

theorem OldWay.leadsTo {info : Client.PeerInfo} (h : t.OldWay info id) : t.LeadsTo none id := by
  rcases h with ⟨ula, -, hula⟩ | ⟨addr, -, halias⟩
  · exact .inl ⟨ula, hula⟩
  · exact .inr ⟨addr, by simp, halias⟩

theorem Inv.ne_nextId (h : t.Inv) (hlead : t.LeadsTo none id) : id ≠ t.nextId := by
  have hheap : ∃ s, t.heap.lookup id = some s := by
    rcases hlead with ⟨ula, hula⟩ | ⟨addr, -, halias⟩
    · obtain ⟨s, hs, -⟩ := h.seated hula
      exact ⟨s, hs⟩
    · exact h.aliases halias
  obtain ⟨s, hs⟩ := hheap
  exact Nat.ne_of_lt (h.issued hs)

theorem leadsTo_install_iff (info : Client.PeerInfo) (isNew : Bool) :
    (t.install info isNew).LeadsTo none id ↔ id = t.nextId ∨ t.OldWay info id := by
  constructor
  · rintro (⟨ula, hula⟩ | ⟨addr, -, halias⟩)
    · simp only [SessionTable.install, AList.lookup_insert_eq_ite] at hula
      split at hula
      · exact .inl (Option.some.inj hula).symm
      · rename_i hne
        exact .inr (.inl ⟨ula, hne, hula⟩)
    · simp only [SessionTable.install, lookup_aliased] at halias
      split at halias
      · exact .inl (Option.some.inj halias).symm
      · rename_i hne
        exact .inr (.inr ⟨addr, hne, halias⟩)
  · rintro (rfl | ⟨ula, hne, hula⟩ | ⟨addr, hne, halias⟩)
    · exact .inl ⟨info.ula, by simp [SessionTable.install]⟩
    · refine .inl ⟨ula, ?_⟩
      simp only [SessionTable.install, AList.lookup_insert_eq_ite, if_neg hne]
      exact hula
    · refine .inr ⟨addr, by simp, ?_⟩
      simp only [SessionTable.install, lookup_aliased, if_neg hne]
      exact halias

theorem sourced_install (info : Client.PeerInfo) (isNew : Bool) (hne : id ≠ t.nextId)
    (source : Ipv6Addr) : (t.install info isNew).Sourced id source ↔ t.Sourced id source := by
  simp only [Sourced, SessionTable.install, AList.lookup_insert_eq_ite, if_neg hne]

theorem sourced_install_self (info : Client.PeerInfo) (isNew : Bool) (source : Ipv6Addr) :
    (t.install info isNew).Sourced t.nextId source ↔
      source = info.ula ∨ (isNew = false ∧ t.appRoutes.lookup source = some info.ula) := by
  rw [sourced_iff (sessionAt_eq_some_iff.mp (t.sessionAt_install info isNew)).2,
    mem_freshSession_allowedIps]

theorem Inv.secure_install_iff (h : t.Inv) (hsec : t.Secure) (info : Client.PeerInfo)
    (isNew : Bool) :
    (t.install info isNew).Secure ↔
      (isNew = false → ∀ a ∈ t.byUla, t.appRoutes.lookup a = some info.ula → a = info.ula) ∧
        ∀ id, t.OldWay info id → ¬ t.Sourced id info.ula := by
  have hhere : (t.install info isNew).byUla.lookup info.ula = some t.nextId := by
    simp [SessionTable.install]
  have helse : ∀ ula, ula ≠ info.ula →
      (t.install info isNew).byUla.lookup ula = t.byUla.lookup ula := by
    intro ula hne
    simp only [SessionTable.install, AList.lookup_insert_eq_ite, if_neg hne]
  constructor
  · intro hsec'
    refine ⟨?_, ?_⟩
    · intro hold a ha hroute
      by_contra hne
      obtain ⟨id', hid'⟩ := Option.isSome_iff_exists.mp (AList.lookup_isSome.mpr ha)
      have hnew := (sourced_install_self info isNew a).mpr (.inr ⟨hold, hroute⟩)
      have heq := hsec' t.nextId a id' (.inl ⟨_, hhere⟩) hnew (by rw [helse a hne]; exact hid')
      exact h.ne_nextId (.inl ⟨a, hid'⟩) heq.symm
    · intro id hway hsourced
      have hne := h.ne_nextId hway.leadsTo
      have hlead := (leadsTo_install_iff info isNew).mpr (.inr hway)
      exact hne (hsec' id info.ula _ hlead ((sourced_install info isNew hne _).mpr hsourced) hhere)
  · rintro ⟨hroutes, hways⟩ id source id' hlead hsourced hlive
    rcases (leadsTo_install_iff info isNew).mp hlead with rfl | hway
    · by_cases hsource : source = info.ula
      · rw [hsource, hhere] at hlive
        exact Option.some.inj hlive
      · rw [helse source hsource] at hlive
        rcases (sourced_install_self info isNew source).mp hsourced with heq | ⟨hold, hroute⟩
        · exact absurd heq hsource
        · exact absurd (hroutes hold source (AList.mem_of_lookup hlive) hroute) hsource
    · have hne := h.ne_nextId hway.leadsTo
      rw [sourced_install info isNew hne] at hsourced
      by_cases hsource : source = info.ula
      · exact absurd (hsource ▸ hsourced) (hways id hway)
      · rw [helse source hsource] at hlive
        exact hsec id source id' hway.leadsTo hsourced hlive

theorem Secure.unindex (h : t.Secure) (ula : Ipv6Addr) (old : PeerSession) :
    ((t.addRoute ula).unindex old).Secure := by
  refine h.shrink ?_ (fun hs => hs) (fun hula => hula)
  rintro id (hula | ⟨addr, hne, halias⟩)
  · exact .inl hula
  · exact .inr ⟨addr, hne, lookup_unaliased_of_some halias⟩

theorem Inv.secure_rotated_iff (h : t.Inv) (hsec : t.Secure) {info : Client.PeerInfo}
    {old : PeerSession} (hat : t.sessionAt info.ula = some (id, old)) :
    (∀ k, ((t.addRoute info.ula).unindex old).OldWay info k → ¬ t.Sourced k info.ula) ↔
      OnlyCurrentAlias t (.upsert info) id old ∨ info.ula ∉ old.allowedIps := by
  obtain ⟨hid, hs⟩ := sessionAt_eq_some_iff.mp hat
  constructor
  · intro hways
    by_contra hnot
    rw [not_or, not_not, OnlyCurrentAlias] at hnot
    obtain ⟨halias, hin⟩ := hnot
    push Not at halias
    obtain ⟨addr, hlook, hcurrent, hadvertised⟩ := halias
    refine hways id (.inr ⟨addr, hadvertised, ?_⟩) ((sourced_iff hs _).mpr hin)
    simp only [SessionTable.unindex, SessionTable.addRoute, lookup_unaliased, if_neg hcurrent]
    exact hlook
  · intro hcond k hway hsourced
    -- nobody but the old session may use its address
    have hlead : t.LeadsTo none k := by
      rcases hway with ⟨ula, -, hula⟩ | ⟨addr, -, halias⟩
      · exact .inl ⟨ula, hula⟩
      · exact .inr ⟨addr, by simp, lookup_unaliased_of_some halias⟩
    obtain rfl := hsec k info.ula id hlead hsourced hid
    rcases hcond with honly | hnot
    · rcases hway with ⟨ula, hne, hula⟩ | ⟨addr, hne, halias⟩
      · exact hne (h.ula_unique hula hid)
      · simp only [SessionTable.unindex, SessionTable.addRoute, lookup_unaliased] at halias
        split at halias
        · simp at halias
        · rename_i hcurrent
          exact (honly addr halias).elim hcurrent hne
    · exact hnot ((sourced_iff hs _).mp hsourced)

theorem Inv.secure_upsert_iff (h : t.Inv) (hsec : t.Secure) (info : Client.PeerInfo) :
    (t.upsert info).Secure ↔ t.KeepsSecure (.upsert info) := by
  have hu := t.upserts info
  generalize t.upsert info = t' at hu
  cases hu with
  | @kept id old hat hkey =>
    rw [h.secure_kept_iff hsec hat, KeepsSecure, hat]
    constructor
    · intro hroutes
      refine ⟨fun hc => absurd hc (by simp), ?_⟩
      intro id' s' heq
      obtain ⟨rfl, rfl⟩ := Prod.mk.inj (Option.some.inj heq)
      exact ⟨hroutes, fun hc => absurd hkey hc⟩
    · intro hkeeps
      exact (hkeeps.2 id old rfl).1
  | @rotated id old hat hkey =>
    rw [((h.addRoute info.ula).unindex old).secure_install_iff (hsec.unindex info.ula old),
      KeepsSecure, hat]
    have hways := h.secure_rotated_iff hsec hat
    constructor
    · rintro ⟨hroutes, hold⟩
      refine ⟨fun hc => absurd hc (by simp), ?_⟩
      intro id' s' heq
      obtain ⟨rfl, rfl⟩ := Prod.mk.inj (Option.some.inj heq)
      exact ⟨hroutes rfl, fun _ => hways.mp hold⟩
    · intro hkeeps
      obtain ⟨hroutes, hold⟩ := hkeeps.2 id old rfl
      exact ⟨fun _ => hroutes, hways.mpr (hold hkey)⟩
  | inserted hat =>
    have hsec' : (t.addRoute info.ula).Secure := hsec
    rw [(h.addRoute info.ula).secure_install_iff hsec', KeepsSecure, hat]
    have hnone := h.sessionAt_eq_none_iff.mp hat
    have hway : ∀ id, (t.addRoute info.ula).OldWay info id ↔ t.LeadsTo info.listenEndpoint id := by
      intro id
      refine or_congr_left ?_
      refine ⟨fun hula => hula.elim (fun ula hc => ⟨ula, hc.2⟩), ?_⟩
      rintro ⟨ula, hula⟩
      refine ⟨ula, ?_, hula⟩
      rintro rfl
      rw [hnone] at hula
      simp at hula
    constructor
    · rintro ⟨-, hways⟩
      refine ⟨fun _ id hlead => hways id ((hway id).mpr hlead), ?_⟩
      intro id s heq
      simp at heq
    · rintro ⟨hways, -⟩
      exact ⟨fun hc => absurd hc (by simp), fun id hold => hways rfl id ((hway id).mp hold)⟩

theorem Secure.remove (hsec : t.Secure) (ula : Ipv6Addr) : (t.remove ula).1.Secure := by
  unfold SessionTable.remove
  split
  · exact hsec
  · rename_i s _
    have hulas : ∀ {k id}, (t.drop ula s).byUla.lookup k = some id →
        t.byUla.lookup k = some id := by
      intro k id hk
      simp only [SessionTable.drop, AList.lookup_erase_eq_ite] at hk
      split at hk
      · simp at hk
      · exact hk
    refine hsec.shrink ?_ (fun hs => hs) hulas
    rintro id (⟨k, hk⟩ | ⟨addr, hne, halias⟩)
    · exact .inl ⟨k, hulas hk⟩
    · exact .inr ⟨addr, hne, lookup_unaliased_of_some halias⟩

variable [Tunnels]

theorem Inv.secure_tableStep_iff (h : t.Inv) (hsec : t.Secure) (op : TableOp) :
    (t.tableStep op).1.Secure ↔ t.KeepsSecure op := by
  cases op with
  | upsert info => exact h.secure_upsert_iff hsec info
  | remove ula => exact iff_of_true (hsec.remove ula) trivial
  | appRoutes hostUla advertised => exact h.secure_appRoutes_iff hsec hostUla advertised
  | datagram order source bytes =>
    refine iff_of_true (udpRecv_induction hsec ?_ order bytes) trivial
    intro ula id s hat
    refine hsec.shrink ?_ ?_ (fun hula => hula)
    · rintro k (hula | ⟨addr, hne, halias⟩)
      · exact .inl hula
      · simp only [SessionTable.learnEndpoint, AList.lookup_insert_eq_ite] at halias
        split at halias
        · exact .inl ⟨ula, Option.some.inj halias ▸ (sessionAt_eq_some_iff.mp hat).1⟩
        · exact .inr ⟨addr, hne, halias⟩
    · rintro k src ⟨s', hs', hin⟩
      simp only [SessionTable.learnEndpoint, AList.lookup_modify] at hs'
      split at hs'
      · obtain ⟨s₀, hs₀, rfl⟩ := Option.map_eq_some_iff.mp hs'
        exact ⟨s₀, hs₀, by rw [PeerSession.allowedIps_learn] at hin; exact hin⟩
      · exact ⟨s', hs', hin⟩
  | relayed buf => exact iff_of_true hsec trivial
  | downgrade ula =>
    refine iff_of_true (hsec.shrink (fun hl => hl) ?_ (fun hula => hula)) trivial
    rintro k src ⟨s', hs', hin⟩
    change (t.modifyAt ula (fun s => { s with endpointLearned := false })).lookup k = some s' at hs'
    rw [lookup_modifyAt] at hs'
    split at hs'
    · obtain ⟨s₀, hs₀, rfl⟩ := Option.map_eq_some_iff.mp hs'
      exact ⟨s₀, hs₀, hin⟩
    · exact ⟨s', hs', hin⟩

end SessionTable

/-- In a run whose steps all let nobody in, no peer can use the address of another in any state;
and any other step would let one in. -/
theorem no_impersonation [Tunnels] {tr : List (TableOp × Option Delivery)} {t : SessionTable}
    (h : dataPlane.Run (fun t op => t.KeepsSecure op) tr t) :
    t.NoImpersonation ∧ ∀ op, (dataPlane.step t op).1.NoImpersonation ↔ t.KeepsSecure op := by
  have hsec : t.Secure := by
    refine h.invariant (I := fun _ t => t.Secure) SessionTable.secure_new ?_
    intro tr t op hr hsec _ hkeeps
    exact ((tableInv_of_run hr).secure_tableStep_iff hsec op).mpr hkeeps
  refine ⟨SessionTable.noImpersonation_iff.mpr hsec, ?_⟩
  intro op
  rw [SessionTable.noImpersonation_iff]
  exact (tableInv_of_run h).secure_tableStep_iff hsec op

section Example

attribute [local instance] referenceCrates referenceTunnels

def attackedTable : SessionTable :=
  (sync.exec [] sync.init
    [.reconcile (fun _ => none) [homeRecord [], awayRecord ["fd00::1"]]]).2

theorem advertised_address_impersonates :
    attackedTable.byUla.lookup ⟨0xfd00, 0, 0, 0, 0, 0, 0, 1⟩ = some 0 ∧
      attackedTable.byUla.lookup ⟨0xfd00, 0, 0, 0, 0, 0, 0, 2⟩ = some 1 ∧
      attackedTable.handleInbound (encodeRelayFrame (4 :: List.replicate 31 0)
        (Tunnels.encapsulate (4 :: List.replicate 31 0)
          (directProbePacket ⟨0xfd00, 0, 0, 0, 0, 0, 0, 1⟩ ⟨0xfd00, 0, 0, 0, 0, 0, 0, 9⟩))) =
        .injected (some ⟨1,
          directProbePacket ⟨0xfd00, 0, 0, 0, 0, 0, 0, 1⟩ ⟨0xfd00, 0, 0, 0, 0, 0, 0, 9⟩⟩) := by
  decide +kernel

theorem no_impersonation_joined :
    (dataPlane.exec [] dataPlane.init
      [.upsert hostA, .appRoutes hostA.ula [movingApp]]).2.NoImpersonation := by
  have hadmissible : dataPlane.Admissible (fun t op => t.KeepsSecure op) [] dataPlane.init
      [.upsert hostA, .appRoutes hostA.ula [movingApp]] := by
    refine ⟨trivial, ⟨?_, ?_⟩, trivial, ?_, trivial⟩
    · rintro _ id - ⟨s, hs, -⟩
      simp [dataPlane, SessionTable.new] at hs
    · intro id s hat
      simp [dataPlane, SessionTable.new, SessionTable.sessionAt] at hat
    · intro _ a ha hlive
      rw [List.mem_singleton.mp ha] at hlive
      have hdead : movingApp ∉ (dataPlane.step dataPlane.init (.upsert hostA)).1.byUla := by
        decide
      exact absurd hlive hdead
  exact (no_impersonation (Machine.Run.exec .start hadmissible)).1

end Example

end ServiceMesh
