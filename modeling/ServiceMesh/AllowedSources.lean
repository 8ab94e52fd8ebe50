import ServiceMesh.DataPlane

/-! The sources a session may use against the app routes. Both say which addresses a host speaks
for, and they are kept by separate edits. -/

namespace ServiceMesh

open StdNet (Ipv6Addr SocketAddr)

namespace SessionTable

variable {t : SessionTable}

theorem Inv.sessionAt_modifyAt (h : t.Inv) {t' : SessionTable} {ula : Ipv6Addr}
    {f : PeerSession → PeerSession} (hulas : t'.byUla = t.byUla)
    (hheap : t'.heap = t.modifyAt ula f) (k : Ipv6Addr) :
    t'.sessionAt k =
      if k = ula then (t.sessionAt ula).map (fun c => (c.1, f c.2)) else t.sessionAt k := by
  cases hid : t.byUla.lookup k with
  | none =>
    have hnone : t'.sessionAt k = none := by
      rw [SessionTable.sessionAt, hulas, hid]
      rfl
    have hnone' := h.sessionAt_eq_none_iff.mpr hid
    rw [hnone]
    split
    · rename_i hk
      rw [← hk, hnone']
      rfl
    · exact hnone'.symm
  | some id =>
    obtain ⟨s, hat, -⟩ := h.sessionAt hid
    have hs := (sessionAt_eq_some_iff.mp hat).2
    split
    · rename_i hk
      rw [← hk, hat]
      refine sessionAt_eq_some_iff.mpr ⟨by rw [hulas]; exact hid, ?_⟩
      rw [hheap, lookup_modifyAt, ← hk, if_pos hid, hs]
      rfl
    · rename_i hk
      have hne : t.byUla.lookup ula ≠ some id := fun hc => hk (h.ula_unique hid hc)
      rw [hat]
      refine sessionAt_eq_some_iff.mpr ⟨by rw [hulas]; exact hid, ?_⟩
      rw [hheap, lookup_modifyAt, if_neg hne]
      exact hs

theorem Inv.sessionAt_install (h : t.Inv) (info : Client.PeerInfo) (isNew : Bool) (k : Ipv6Addr) :
    (t.install info isNew).sessionAt k =
      if k = info.ula then some (t.nextId, t.freshSession info isNew) else t.sessionAt k := by
  split
  · rename_i hk
    rw [hk]
    exact SessionTable.sessionAt_install t info isNew
  · rename_i hk
    have hula : (t.install info isNew).byUla.lookup k = t.byUla.lookup k := by
      simp only [SessionTable.install, AList.lookup_insert_eq_ite, if_neg hk]
    cases hid : t.byUla.lookup k with
    | none => rw [SessionTable.sessionAt, hula, hid, h.sessionAt_eq_none_iff.mpr hid]; rfl
    | some id =>
      obtain ⟨s, hat, -⟩ := h.sessionAt hid
      rw [hat]
      exact sessionAt_eq_some_iff.mpr
        ⟨hula.trans hid, h.install_sessions info isNew (sessionAt_eq_some_iff.mp hat).2⟩

theorem mem_freshSession_allowedIps {info : Client.PeerInfo} {a : Ipv6Addr} (isNew : Bool) :
    a ∈ (t.freshSession info isNew).allowedIps ↔
      a = info.ula ∨ (isNew = false ∧ t.appRoutes.lookup a = some info.ula) := by
  cases isNew with
  | true => simp [freshSession, allowedIpsFor]
  | false =>
    simp [freshSession, allowedIpsFor, PeerSession.foldl_addAllowedSource, mem_appUlasForHost]

def Exact (t : SessionTable) : Prop :=
  ∀ ula id s, t.sessionAt ula = some (id, s) →
    ∀ a, a ∈ s.allowedIps ↔ a = ula ∨ t.appRoutes.lookup a = some ula

theorem exact_new : Exact new := by
  intro ula id s hat
  simp [sessionAt, new] at hat

/-- What a step must not do. Three edits adjust one side only: a session that is new does not take
over routes recorded before it; an app that moves is not taken from its former host; and a host
that drops its own address from what it advertises loses it as a source. -/
def KeepsExact (t : SessionTable) : TableOp → Prop
  | .upsert info => t.sessionAt info.ula = none →
      ∀ a, t.appRoutes.lookup a = some info.ula → a = info.ula
  | .appRoutes hostUla advertised =>
      (hostUla ∈ t.byUla → t.appRoutes.lookup hostUla = some hostUla → hostUla ∈ advertised) ∧
      ∀ ula ∈ t.byUla, ula ≠ hostUla → ∀ a ∈ advertised, t.appRoutes.lookup a = some ula → a = ula
  | .remove _ | .datagram _ _ _ | .relayed _ | .downgrade _ => True

theorem Inv.exact_touched (h : t.Inv) (he : t.Exact) {t' : SessionTable} {ula : Ipv6Addr}
    {f : PeerSession → PeerSession} (hulas : t'.byUla = t.byUla)
    (hheap : t'.heap = t.modifyAt ula f) (hroutes : t'.appRoutes = t.appRoutes)
    (hf : ∀ s a, t.sessionAt ula = some s → (a ∈ (f s.2).allowedIps ↔ a ∈ s.2.allowedIps)) :
    t'.Exact := by
  intro k id s hat a
  rw [h.sessionAt_modifyAt hulas hheap] at hat
  rw [hroutes]
  split at hat
  · rename_i hk
    obtain ⟨c, hc, heq⟩ := Option.map_eq_some_iff.mp hat
    obtain ⟨rfl, rfl⟩ := Prod.mk.inj heq
    rw [hf c a hc, hk]
    exact he ula c.1 c.2 hc a
  · exact he k id s hat a

theorem Inv.exact_upsert_iff (h : t.Inv) (he : t.Exact) (info : Client.PeerInfo) :
    (t.upsert info).Exact ↔ t.KeepsExact (.upsert info) := by
  have hu := t.upserts info
  generalize t.upsert info = t' at hu
  cases hu with
  | @kept id old hat hkey =>
    obtain ⟨hid, -⟩ := sessionAt_eq_some_iff.mp hat
    refine iff_of_true ?_ (fun hnone => absurd (hat.symm.trans hnone) (by simp))
    have hheap : ((t.addRoute info.ula).updateInPlace id old info).heap =
        t.modifyAt info.ula (fun s => (t.appUlasForHost info.ula).foldl
          PeerSession.addAllowedSource (s.followRoster info.listenEndpoint)) := by
      rw [modifyAt_eq hid]
      rfl
    refine h.exact_touched he rfl hheap rfl ?_
    intro c a hc
    obtain rfl := Option.some.inj (hat.symm.trans hc)
    simp only [PeerSession.foldl_addAllowedSource, PeerSession.allowedIps_followRoster,
      Finset.mem_union, List.mem_toFinset, mem_appUlasForHost]
    refine or_iff_left_of_imp (fun hroute => ?_)
    exact (he _ _ _ hat a).mpr (.inr hroute)
  | @rotated id old hat hkey =>
    refine iff_of_true ?_ (fun hnone => absurd (hat.symm.trans hnone) (by simp))
    intro k id' s hat' a
    rw [((h.addRoute info.ula).unindex old).sessionAt_install] at hat'
    split at hat'
    · rename_i hk
      obtain ⟨-, rfl⟩ := Prod.mk.inj (Option.some.inj hat')
      rw [mem_freshSession_allowedIps, hk]
      simp [SessionTable.install]
    · exact he k id' s hat' a
  | inserted hat =>
    constructor
    · intro he' _ a hroute
      have hfresh := he' _ _ _ ((t.addRoute info.ula).sessionAt_install info true) a
      rw [mem_freshSession_allowedIps] at hfresh
      simpa using hfresh.mpr (.inr hroute)
    · intro hkeeps k id' s hat' a
      rw [(h.addRoute info.ula).sessionAt_install] at hat'
      split at hat'
      · rename_i hk
        obtain ⟨-, rfl⟩ := Prod.mk.inj (Option.some.inj hat')
        rw [mem_freshSession_allowedIps, hk]
        simp only [Bool.true_eq_false, false_and, or_false]
        exact (or_iff_left_of_imp (hkeeps hat a)).symm
      · exact he k id' s hat' a

theorem Exact.remove (he : t.Exact) (ula : Ipv6Addr) : (t.remove ula).1.Exact := by
  unfold SessionTable.remove
  split
  · exact he
  · intro k id s hat a
    obtain ⟨hid, hs⟩ := sessionAt_eq_some_iff.mp hat
    simp only [SessionTable.drop, AList.lookup_erase_eq_ite] at hid
    split at hid
    · simp at hid
    · rename_i hne
      rw [he k id s (sessionAt_eq_some_iff.mpr ⟨hid, hs⟩)]
      simp only [SessionTable.drop, AList.lookup_foldl_erase, mem_appUlasForHost]
      -- a route to another host is none of those taken down
      by_cases hroute : t.appRoutes.lookup a = some ula
      · simp [hroute, Ne.symm hne]
      · simp [hroute]

theorem Inv.exact_appRoutes_iff (h : t.Inv) (he : t.Exact) (hostUla : Ipv6Addr)
    (advertised : List Ipv6Addr) :
    (t.reconcileAppRoutes hostUla advertised).Exact ↔
      t.KeepsExact (.appRoutes hostUla advertised) := by
  have hspec := t.reconcileAppRoutes_spec hostUla advertised
  have hat := h.sessionAt_modifyAt hspec.byUla hspec.heap
  generalize t.reconcileAppRoutes hostUla advertised = t' at hspec hat
  have hmem : ∀ s : PeerSession, ∀ a, a ∈ (t.reconciledSources hostUla advertised s).allowedIps ↔
      (a ∈ s.allowedIps ∨ a ∈ advertised) ∧
        ¬ (t.appRoutes.lookup a = some hostUla ∧ a ∉ advertised) := by
    intro s a
    simp only [reconciledSources, Finset.mem_sdiff, Finset.mem_union, List.mem_toFinset,
      mem_staleApps]
  have hroute : ∀ a ula, t'.appRoutes.lookup a = some ula ↔
      (a ∈ advertised ∧ ula = hostUla) ∨
        (a ∉ advertised ∧ ula ≠ hostUla ∧ t.appRoutes.lookup a = some ula) := by
    intro a ula
    rw [hspec.appRoutes]
    by_cases hadv : a ∈ advertised
    · simp [hadv, eq_comm]
    · by_cases hhost : t.appRoutes.lookup a = some hostUla
      · simp [hadv, hhost, eq_comm]
      · rw [if_neg hadv, if_neg hhost]
        constructor
        · intro hula
          exact .inr ⟨hadv, fun hc => hhost (hc ▸ hula), hula⟩
        · rintro (hc | hc)
          · exact absurd hc.1 hadv
          · exact hc.2.2
  constructor
  · intro he'
    refine ⟨?_, ?_⟩
    · intro hlive hself
      obtain ⟨id, hid⟩ := Option.isSome_iff_exists.mp (AList.lookup_isSome.mpr hlive)
      obtain ⟨s, hs, -⟩ := h.sessionAt hid
      have hs' := hat hostUla
      rw [if_pos rfl, hs] at hs'
      have hin := (he' _ _ _ hs' hostUla).mpr (.inl rfl)
      by_contra hnot
      exact ((hmem s hostUla).mp hin).2 ⟨hself, hnot⟩
    · intro ula hlive hne a ha hold
      obtain ⟨id, hid⟩ := Option.isSome_iff_exists.mp (AList.lookup_isSome.mpr hlive)
      obtain ⟨s, hs, -⟩ := h.sessionAt hid
      have hs' := hat ula
      rw [if_neg hne, hs] at hs'
      -- the former host still has the app among its sources
      have hin := (he _ _ _ hs a).mpr (.inr hold)
      rcases (he' _ _ _ hs' a).mp hin with heq | hnew
      · exact heq
      · rcases (hroute a ula).mp hnew with hc | hc
        · exact absurd hc.2 hne
        · exact absurd ha hc.1
  · rintro ⟨hself, hmoved⟩ k id s hats a
    rw [hat] at hats
    rw [hroute]
    split at hats
    · rename_i hk
      obtain ⟨c, hc, heq⟩ := Option.map_eq_some_iff.mp hats
      obtain ⟨rfl, rfl⟩ := Prod.mk.inj heq
      have hlive : hostUla ∈ t.byUla := AList.mem_of_lookup (sessionAt_eq_some_iff.mp hc).1
      rw [hmem, he _ _ _ hc a, hk]
      have hdrops : a = hostUla → t.appRoutes.lookup a = some hostUla → a ∈ advertised := by
        rintro rfl
        exact hself hlive
      by_cases hadv : a ∈ advertised
      · simp [hadv]
      · by_cases hhost : t.appRoutes.lookup a = some hostUla
        · have hne : a ≠ hostUla := fun hc => hadv (hdrops hc hhost)
          simp [hadv, hhost, hne]
        · simp [hadv, hhost]
    · rename_i hk
      have hlive : k ∈ t.byUla := AList.mem_of_lookup (sessionAt_eq_some_iff.mp hats).1
      rw [he _ _ _ hats a]
      have hkeeps : a ∈ advertised → t.appRoutes.lookup a = some k → a = k := hmoved k hlive hk a
      by_cases hadv : a ∈ advertised
      · simp only [hadv, hk, and_false, false_and, not_true_eq_false, or_false]
        exact or_iff_left_of_imp (hkeeps hadv)
      · simp [hadv, hk]

variable [Tunnels]

theorem Inv.exact_tableStep_iff (h : t.Inv) (he : t.Exact) (op : TableOp) :
    (t.tableStep op).1.Exact ↔ t.KeepsExact op := by
  cases op with
  | upsert info => exact h.exact_upsert_iff he info
  | remove ula => exact iff_of_true (he.remove ula) trivial
  | appRoutes hostUla advertised => exact h.exact_appRoutes_iff he hostUla advertised
  | datagram order source bytes =>
    refine iff_of_true (udpRecv_induction he ?_ order bytes) trivial
    intro ula id s hat
    have hheap : (t.learnEndpoint id source).heap = t.modifyAt ula (fun s => s.learn source) := by
      rw [modifyAt_eq (sessionAt_eq_some_iff.mp hat).1]
      rfl
    exact h.exact_touched he rfl hheap rfl (fun c a _ => by rw [PeerSession.allowedIps_learn])
  | relayed buf => exact iff_of_true he trivial
  | downgrade ula =>
    exact iff_of_true (h.exact_touched he rfl rfl rfl (fun _ _ _ => Iff.rfl)) trivial

end SessionTable

/-- In a run whose steps all keep sources and routes together, they agree in every state; and any
other step would part them. -/
theorem sources_exact [Tunnels] {tr : List (TableOp × Option Delivery)} {t : SessionTable}
    (h : dataPlane.Run (fun t op => t.KeepsExact op) tr t) :
    t.Exact ∧ ∀ op, (dataPlane.step t op).1.Exact ↔ t.KeepsExact op := by
  have hexact : t.Exact := by
    refine h.invariant (I := fun _ t => t.Exact) SessionTable.exact_new ?_
    intro tr t op hr he _ hkeeps
    exact ((tableInv_of_run hr).exact_tableStep_iff he op).mpr hkeeps
  exact ⟨hexact, (tableInv_of_run h).exact_tableStep_iff hexact⟩

section Example

attribute [local instance] referenceTunnels

def hostA : Client.PeerInfo := ⟨1, List.replicate 32 1, ⟨0xfd00, 0, 0, 0, 0, 0, 0, 1⟩, none, []⟩

def hostB : Client.PeerInfo := ⟨2, List.replicate 32 2, ⟨0xfd00, 0, 0, 0, 0, 0, 0, 2⟩, none, []⟩

def movingApp : Ipv6Addr := ⟨0xfd00, 0, 0, 0, 0, 0, 0, 10⟩

def sourcesAt (t : SessionTable) (ula : Ipv6Addr) : Option (Finset Ipv6Addr) :=
  (t.sessionAt ula).map (fun c => c.2.allowedIps)

def movedAppTable : SessionTable :=
  (dataPlane.exec [] dataPlane.init [.upsert hostA, .upsert hostB,
    .appRoutes hostA.ula [movingApp], .appRoutes hostB.ula [movingApp]]).2

def selfDroppedTable : SessionTable :=
  (dataPlane.exec [] dataPlane.init [.upsert hostA, .appRoutes hostA.ula [hostA.ula],
    .appRoutes hostA.ula []]).2

def lateHostTable : SessionTable :=
  (dataPlane.exec [] dataPlane.init [.appRoutes hostA.ula [movingApp], .upsert hostA]).2

theorem sources_differ_from_routes :
    (sourcesAt movedAppTable hostA.ula = some {hostA.ula, movingApp} ∧
      movedAppTable.appRoutes.lookup movingApp = some hostB.ula) ∧
    sourcesAt selfDroppedTable hostA.ula = some ∅ ∧
    (sourcesAt lateHostTable hostA.ula = some {hostA.ula} ∧
      lateHostTable.appRoutes.lookup movingApp = some hostA.ula) := by
  decide

theorem sources_exact_hosted :
    (dataPlane.exec [] dataPlane.init [.upsert hostA, .appRoutes hostA.ula [movingApp]]).2.Exact := by
  have hfirst : ∀ a, (dataPlane.step dataPlane.init (.upsert hostA)).1.appRoutes.lookup a = none :=
    fun _ => rfl
  have hadmissible : dataPlane.Admissible (fun t op => t.KeepsExact op) [] dataPlane.init
      [.upsert hostA, .appRoutes hostA.ula [movingApp]] := by
    refine ⟨trivial, ?_, trivial, ⟨?_, ?_⟩, trivial⟩
    · intro _ a hroute
      simp [dataPlane, SessionTable.new] at hroute
    · intro _ hself
      rw [hfirst] at hself
      simp at hself
    · intro ula _ _ a _ hroute
      rw [hfirst] at hroute
      simp at hroute
  exact (sources_exact (Machine.Run.exec .start hadmissible)).1

end Example

end ServiceMesh
