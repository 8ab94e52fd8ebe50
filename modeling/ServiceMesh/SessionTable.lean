import Mathlib.Data.Finset.Basic
import ServiceMesh.Wire

/-! The joiner's session table. A session is an object that several indexes may point to, so the
table has a heap of sessions, and the indexes hold ids into it. -/

namespace ServiceMesh

open StdNet (Ipv6Addr SocketAddr)

structure Client.PeerInfo where
  peerId : Uuid
  wgPublicKey : List UInt8
  ula : Ipv6Addr
  listenEndpoint : Option SocketAddr
  hostedAppUlas : List Ipv6Addr
deriving DecidableEq

abbrev SessionId := Nat

structure PeerSession where
  peerId : Uuid
  ula : Ipv6Addr
  peerPubkey : List UInt8
  allowedIps : Finset Ipv6Addr
  endpoint : Option SocketAddr
  endpointLearned : Bool
deriving DecidableEq

namespace PeerSession

def isAllowedSource (s : PeerSession) (source : Ipv6Addr) : Bool := source ∈ s.allowedIps

def addAllowedSource (s : PeerSession) (addr : Ipv6Addr) : PeerSession :=
  { s with allowedIps := insert addr s.allowedIps }

def removeAllowedSource (s : PeerSession) (addr : Ipv6Addr) : PeerSession :=
  { s with allowedIps := s.allowedIps.erase addr }

def followRoster (s : PeerSession) (listenEndpoint : Option SocketAddr) : PeerSession :=
  if s.endpointLearned then s else { s with endpoint := listenEndpoint }

def learn (s : PeerSession) (source : SocketAddr) : PeerSession :=
  if s.endpoint ≠ some source then { s with endpoint := some source, endpointLearned := true }
  else s

end PeerSession

def allowedIpsFor (info : Client.PeerInfo) : Finset Ipv6Addr := {info.ula}

structure RouteSink where
  allowed : Finset Ipv6Addr
  apps : Finset Ipv6Addr
deriving DecidableEq

structure SessionTable where
  heap : DashMap SessionId PeerSession
  nextId : SessionId
  byUla : DashMap Ipv6Addr SessionId
  byEndpoint : DashMap SocketAddr SessionId
  byPubkey : DashMap (List UInt8) SessionId
  appRoutes : DashMap Ipv6Addr Ipv6Addr
  sink : RouteSink

def aliased (m : DashMap SocketAddr SessionId) (addr : Option SocketAddr) (id : SessionId) :
    DashMap SocketAddr SessionId :=
  addr.elim m (fun addr => m.insert addr id)

def unaliased (m : DashMap SocketAddr SessionId) (addr : Option SocketAddr) :
    DashMap SocketAddr SessionId :=
  addr.elim m m.erase

namespace SessionTable

def new : SessionTable := ⟨∅, 0, ∅, ∅, ∅, ∅, ⟨∅, ∅⟩⟩

def ulas (t : SessionTable) : List Ipv6Addr := t.byUla.keys

def sessionAt (t : SessionTable) (ula : Ipv6Addr) : Option (SessionId × PeerSession) :=
  (t.byUla.lookup ula).bind (fun id => (t.heap.lookup id).map (fun s => (id, s)))

def snapshot (t : SessionTable) : List (SessionId × PeerSession) :=
  t.byUla.values.filterMap (fun id => (t.heap.lookup id).map (fun s => (id, s)))

def carrier (t : SessionTable) (dst : Ipv6Addr) : Option (SessionId × PeerSession) :=
  (t.sessionAt dst).or ((t.appRoutes.lookup dst).bind t.sessionAt)

def appUlasForHost (t : SessionTable) (hostUla : Ipv6Addr) : List Ipv6Addr :=
  t.appRoutes.keysOf hostUla

def modifyAt (t : SessionTable) (ula : Ipv6Addr) (f : PeerSession → PeerSession) :
    DashMap SessionId PeerSession :=
  (t.byUla.lookup ula).elim t.heap (fun id => t.heap.modify id f)

def hostRemoteAppRoute (hostUla : Ipv6Addr) (t : SessionTable) (appUla : Ipv6Addr) : SessionTable :=
  { t with
    appRoutes := t.appRoutes.insert appUla hostUla
    heap := t.modifyAt hostUla (fun s => s.addAllowedSource appUla)
    sink := { t.sink with apps := insert appUla t.sink.apps } }

def unhostRemoteAppRoute (t : SessionTable) (appUla : Ipv6Addr) : SessionTable :=
  { t with
    appRoutes := t.appRoutes.erase appUla
    heap := (t.appRoutes.lookup appUla).elim t.heap
      (fun hostUla => t.modifyAt hostUla (fun s => s.removeAllowedSource appUla))
    sink := { t.sink with apps := t.sink.apps.erase appUla } }

def reconcileAppRoutes (t : SessionTable) (hostUla : Ipv6Addr) (advertised : List Ipv6Addr) :
    SessionTable :=
  let hosted := advertised.foldl (hostRemoteAppRoute hostUla) t
  let stale := (hosted.appUlasForHost hostUla).filter (fun appUla => appUla ∉ advertised)
  stale.foldl unhostRemoteAppRoute hosted

def updateInPlace (t : SessionTable) (id : SessionId) (session : PeerSession)
    (info : Client.PeerInfo) : SessionTable :=
  { t with
    byEndpoint :=
      if session.endpointLearned || session.endpoint = info.listenEndpoint then
        aliased t.byEndpoint info.listenEndpoint id
      else aliased (unaliased t.byEndpoint session.endpoint) info.listenEndpoint id
    heap := t.heap.modify id (fun s =>
      (t.appUlasForHost info.ula).foldl PeerSession.addAllowedSource
        (s.followRoster info.listenEndpoint)) }

def unindex (t : SessionTable) (old : PeerSession) : SessionTable :=
  { t with
    byEndpoint := unaliased t.byEndpoint old.endpoint
    byPubkey := t.byPubkey.erase old.peerPubkey }

def freshSession (t : SessionTable) (info : Client.PeerInfo) (isNew : Bool) : PeerSession :=
  let session : PeerSession :=
    ⟨info.peerId, info.ula, info.wgPublicKey, allowedIpsFor info, info.listenEndpoint, false⟩
  -- only a rotation replays the routes
  if isNew then session
  else (t.appUlasForHost info.ula).foldl PeerSession.addAllowedSource session

def install (t : SessionTable) (info : Client.PeerInfo) (isNew : Bool) : SessionTable :=
  { t with
    heap := t.heap.insert t.nextId (t.freshSession info isNew)
    nextId := t.nextId + 1
    byUla := t.byUla.insert info.ula t.nextId
    byPubkey := t.byPubkey.insert info.wgPublicKey t.nextId
    byEndpoint := aliased t.byEndpoint info.listenEndpoint t.nextId }

def addRoute (t : SessionTable) (ula : Ipv6Addr) : SessionTable :=
  { t with sink := { t.sink with allowed := insert ula t.sink.allowed } }

def upsert (t : SessionTable) (info : Client.PeerInfo) : SessionTable :=
  match t.sessionAt info.ula with
  | some (id, old) =>
    if old.peerPubkey = info.wgPublicKey then (t.addRoute info.ula).updateInPlace id old info
    else ((t.addRoute info.ula).unindex old).install info false
  | none => (t.addRoute info.ula).install info true

def drop (t : SessionTable) (ula : Ipv6Addr) (session : PeerSession) : SessionTable :=
  let orphaned := t.appUlasForHost ula
  { t with
    byUla := t.byUla.erase ula
    byEndpoint := unaliased t.byEndpoint session.endpoint
    byPubkey := t.byPubkey.erase session.peerPubkey
    appRoutes := orphaned.foldl (fun routes appUla => routes.erase appUla) t.appRoutes
    sink := ⟨t.sink.allowed.erase ula,
      orphaned.foldl (fun apps appUla => apps.erase appUla) t.sink.apps⟩ }

def remove (t : SessionTable) (ula : Ipv6Addr) : SessionTable × Bool :=
  match t.sessionAt ula with
  | none => (t, false)
  | some (_, session) => (t.drop ula session, true)

def learnEndpoint (t : SessionTable) (id : SessionId) (source : SocketAddr) : SessionTable :=
  { t with
    byEndpoint := t.byEndpoint.insert source id
    heap := t.heap.modify id (fun s => s.learn source) }

end SessionTable

namespace PeerSession

structure SameSession (s s' : PeerSession) : Prop where
  peerId : s'.peerId = s.peerId
  ula : s'.ula = s.ula
  peerPubkey : s'.peerPubkey = s.peerPubkey

variable (s : PeerSession)

theorem foldl_addAllowedSource (addrs : List Ipv6Addr) :
    addrs.foldl addAllowedSource s = { s with allowedIps := s.allowedIps ∪ addrs.toFinset } := by
  induction addrs generalizing s with
  | nil => simp
  | cons addr addrs ih =>
    rw [List.foldl_cons, ih]
    simp [addAllowedSource, Finset.insert_union, Finset.union_insert]

theorem foldl_removeAllowedSource (addrs : List Ipv6Addr) :
    addrs.foldl removeAllowedSource s = { s with allowedIps := s.allowedIps \ addrs.toFinset } := by
  induction addrs generalizing s with
  | nil => simp
  | cons addr addrs ih =>
    rw [List.foldl_cons, ih]
    congr 1
    ext a
    simp only [removeAllowedSource, Finset.mem_sdiff, Finset.mem_erase, List.mem_toFinset,
      List.mem_cons]
    tauto

@[simp] theorem allowedIps_followRoster (listenEndpoint : Option SocketAddr) :
    (s.followRoster listenEndpoint).allowedIps = s.allowedIps := by
  unfold followRoster
  split <;> rfl

theorem sameSession_followRoster (listenEndpoint : Option SocketAddr) :
    SameSession s (s.followRoster listenEndpoint) := by
  unfold followRoster
  split <;> exact ⟨rfl, rfl, rfl⟩

@[simp] theorem allowedIps_learn (source : SocketAddr) :
    (s.learn source).allowedIps = s.allowedIps := by
  unfold learn
  split <;> rfl

@[simp] theorem endpoint_learn (source : SocketAddr) : (s.learn source).endpoint = some source := by
  unfold learn
  split
  · rfl
  · rename_i hsame
    exact not_not.mp hsame

theorem sameSession_learn (source : SocketAddr) : SameSession s (s.learn source) := by
  unfold learn
  split <;> exact ⟨rfl, rfl, rfl⟩

end PeerSession

open PeerSession (SameSession)

theorem lookup_aliased (m : DashMap SocketAddr SessionId) (addr : Option SocketAddr)
    (id : SessionId) (k : SocketAddr) :
    (aliased m addr id).lookup k = if addr = some k then some id else m.lookup k := by
  cases addr with
  | none => simp [aliased]
  | some addr =>
    simp only [aliased, Option.elim_some, AList.lookup_insert_eq_ite, Option.some.injEq]
    simp only [eq_comm]

theorem lookup_unaliased (m : DashMap SocketAddr SessionId) (addr : Option SocketAddr)
    (k : SocketAddr) :
    (unaliased m addr).lookup k = if addr = some k then none else m.lookup k := by
  cases addr with
  | none => simp [unaliased]
  | some addr =>
    simp only [unaliased, Option.elim_some, AList.lookup_erase_eq_ite, Option.some.injEq]
    simp only [eq_comm]

namespace SessionTable

variable {ula : Ipv6Addr} {id : SessionId}

theorem sessionAt_eq_some_iff {t : SessionTable} {s : PeerSession} :
    t.sessionAt ula = some (id, s) ↔ t.byUla.lookup ula = some id ∧ t.heap.lookup id = some s := by
  simp only [sessionAt, Option.bind_eq_some_iff, Option.map_eq_some_iff, Prod.mk.injEq]
  constructor
  · rintro ⟨id', hid, s', hs, rfl, rfl⟩
    exact ⟨hid, hs⟩
  · rintro ⟨hid, hs⟩
    exact ⟨id, hid, s, hs, rfl, rfl⟩

theorem lookup_modifyAt (t : SessionTable) (ula : Ipv6Addr) (f : PeerSession → PeerSession)
    (id : SessionId) :
    (t.modifyAt ula f).lookup id =
      if t.byUla.lookup ula = some id then (t.heap.lookup id).map f else t.heap.lookup id := by
  unfold modifyAt
  cases hu : t.byUla.lookup ula with
  | none => simp
  | some id' =>
    simp only [Option.elim_some, AList.lookup_modify, Option.some.injEq]
    simp only [eq_comm]

theorem mem_appUlasForHost {t : SessionTable} {hostUla appUla : Ipv6Addr} :
    appUla ∈ t.appUlasForHost hostUla ↔ t.appRoutes.lookup appUla = some hostUla :=
  AList.mem_keysOf

theorem foldl_hostRemoteAppRoute (t : SessionTable) (hostUla : Ipv6Addr)
    (advertised : List Ipv6Addr) :
    advertised.foldl (hostRemoteAppRoute hostUla) t =
      { t with
        appRoutes := advertised.foldl (fun m appUla => m.insert appUla hostUla) t.appRoutes
        heap := t.modifyAt hostUla (fun s => advertised.foldl PeerSession.addAllowedSource s)
        sink := { t.sink with
          apps := advertised.foldl (fun apps appUla => insert appUla apps) t.sink.apps } } := by
  induction advertised generalizing t with
  | nil =>
    have hheap : t.modifyAt hostUla (fun s => s) = t.heap := by
      unfold modifyAt
      cases t.byUla.lookup hostUla <;> simp
    simp [hheap]
  | cons appUla advertised ih =>
    rw [List.foldl_cons, ih]
    simp only [hostRemoteAppRoute, List.foldl_cons, modifyAt]
    cases t.byUla.lookup hostUla with
    | none => rfl
    | some id => simp only [Option.elim_some, AList.modify_modify]

theorem foldl_unhostRemoteAppRoute (t : SessionTable) {hostUla : Ipv6Addr} {stale : List Ipv6Addr}
    (hnodup : stale.Nodup) (hroute : ∀ appUla ∈ stale, t.appRoutes.lookup appUla = some hostUla) :
    stale.foldl unhostRemoteAppRoute t =
      { t with
        appRoutes := stale.foldl (fun m appUla => m.erase appUla) t.appRoutes
        heap := t.modifyAt hostUla (fun s => stale.foldl PeerSession.removeAllowedSource s)
        sink := { t.sink with
          apps := stale.foldl (fun apps appUla => apps.erase appUla) t.sink.apps } } := by
  induction stale generalizing t with
  | nil =>
    have hheap : t.modifyAt hostUla (fun s => s) = t.heap := by
      unfold modifyAt
      cases t.byUla.lookup hostUla <;> simp
    simp [hheap]
  | cons appUla stale ih =>
    obtain ⟨hnew, hnodup⟩ := List.nodup_cons.mp hnodup
    have hhost := hroute appUla List.mem_cons_self
    rw [List.foldl_cons, ih _ hnodup]
    · simp only [unhostRemoteAppRoute, hhost, Option.elim_some, List.foldl_cons, modifyAt]
      cases t.byUla.lookup hostUla with
      | none => rfl
      | some id => simp only [Option.elim_some, AList.modify_modify]
    · intro other hother
      have hne : other ≠ appUla := fun hc => hnew (hc ▸ hother)
      simp only [unhostRemoteAppRoute, AList.lookup_erase_eq_ite, if_neg hne]
      exact hroute other (List.mem_cons_of_mem appUla hother)

def staleApps (t : SessionTable) (hostUla : Ipv6Addr) (advertised : List Ipv6Addr) :
    List Ipv6Addr :=
  ((advertised.foldl (hostRemoteAppRoute hostUla) t).appUlasForHost hostUla).filter
    (fun appUla => appUla ∉ advertised)

theorem mem_staleApps {t : SessionTable} {hostUla : Ipv6Addr} {advertised : List Ipv6Addr}
    {appUla : Ipv6Addr} :
    appUla ∈ t.staleApps hostUla advertised ↔
      t.appRoutes.lookup appUla = some hostUla ∧ appUla ∉ advertised := by
  simp only [staleApps, List.mem_filter, mem_appUlasForHost, decide_eq_true_eq,
    foldl_hostRemoteAppRoute, AList.lookup_foldl_insert]
  constructor
  · rintro ⟨hroute, hnot⟩
    rw [if_neg hnot] at hroute
    exact ⟨hroute, hnot⟩
  · rintro ⟨hroute, hnot⟩
    rw [if_neg hnot]
    exact ⟨hroute, hnot⟩

def reconciledSources (t : SessionTable) (hostUla : Ipv6Addr) (advertised : List Ipv6Addr)
    (s : PeerSession) : PeerSession :=
  { s with
    allowedIps := (s.allowedIps ∪ advertised.toFinset) \ (t.staleApps hostUla advertised).toFinset }

structure RoutesReconciled (t : SessionTable) (hostUla : Ipv6Addr) (advertised : List Ipv6Addr)
    (t' : SessionTable) : Prop where
  byUla : t'.byUla = t.byUla
  byEndpoint : t'.byEndpoint = t.byEndpoint
  byPubkey : t'.byPubkey = t.byPubkey
  nextId : t'.nextId = t.nextId
  allowed : t'.sink.allowed = t.sink.allowed
  heap : t'.heap = t.modifyAt hostUla (t.reconciledSources hostUla advertised)
  appRoutes : ∀ appUla, t'.appRoutes.lookup appUla =
    if appUla ∈ advertised then some hostUla
    else if t.appRoutes.lookup appUla = some hostUla then none
    else t.appRoutes.lookup appUla

theorem reconcileAppRoutes_spec (t : SessionTable) (hostUla : Ipv6Addr)
    (advertised : List Ipv6Addr) :
    RoutesReconciled t hostUla advertised (t.reconcileAppRoutes hostUla advertised) := by
  have hnodup : (t.staleApps hostUla advertised).Nodup := (AList.nodup_keysOf _ _).filter _
  have hroute : ∀ appUla ∈ t.staleApps hostUla advertised,
      (advertised.foldl (hostRemoteAppRoute hostUla) t).appRoutes.lookup appUla = some hostUla := by
    intro appUla happ
    exact mem_appUlasForHost.mp (List.mem_filter.mp happ).1
  have heq : t.reconcileAppRoutes hostUla advertised =
      (t.staleApps hostUla advertised).foldl unhostRemoteAppRoute
        (advertised.foldl (hostRemoteAppRoute hostUla) t) := rfl
  rw [heq, foldl_unhostRemoteAppRoute _ hnodup hroute, foldl_hostRemoteAppRoute]
  refine ⟨rfl, rfl, rfl, rfl, rfl, ?_, ?_⟩
  · simp only [modifyAt]
    cases t.byUla.lookup hostUla with
    | none => rfl
    | some id =>
      simp only [Option.elim_some, AList.modify_modify, PeerSession.foldl_addAllowedSource,
        PeerSession.foldl_removeAllowedSource]
      rfl
  · intro appUla
    simp only [AList.lookup_foldl_erase, AList.lookup_foldl_insert, mem_staleApps]
    by_cases hadv : appUla ∈ advertised
    · simp [hadv]
    · simp [hadv]

structure Inv (t : SessionTable) : Prop where
  seated : ∀ {ula id}, t.byUla.lookup ula = some id → ∃ s, t.heap.lookup id = some s ∧ s.ula = ula
  issued : ∀ {id s}, t.heap.lookup id = some s → id < t.nextId
  aliases : ∀ {addr id}, t.byEndpoint.lookup addr = some id → ∃ s, t.heap.lookup id = some s
  /-- A key leads to a session of that key, and to one that is still in place. -/
  keyed : ∀ {key id}, t.byPubkey.lookup key = some id →
    ∃ s, t.heap.lookup id = some s ∧ s.peerPubkey = key ∧ t.byUla.lookup s.ula = some id

theorem inv_new : Inv new := by
  constructor <;> simp [new]

def Touched (heap heap' : DashMap SessionId PeerSession) : Prop :=
  ∀ id, ∃ f : PeerSession → PeerSession,
    (∀ s, SameSession s (f s)) ∧ heap'.lookup id = (heap.lookup id).map f

theorem touched_modify (heap : DashMap SessionId PeerSession) (id : SessionId)
    {f : PeerSession → PeerSession} (hf : ∀ s, SameSession s (f s)) :
    Touched heap (heap.modify id f) := by
  intro id'
  by_cases hid : id' = id
  · exact ⟨f, hf, by rw [AList.lookup_modify, if_pos hid]⟩
  · refine ⟨fun s => s, fun s => ⟨rfl, rfl, rfl⟩, ?_⟩
    rw [AList.lookup_modify, if_neg hid, Option.map_id']

theorem touched_modifyAt (t : SessionTable) (ula : Ipv6Addr) {f : PeerSession → PeerSession}
    (hf : ∀ s, SameSession s (f s)) : Touched t.heap (t.modifyAt ula f) := by
  intro id
  rw [lookup_modifyAt]
  split
  · exact ⟨f, hf, rfl⟩
  · exact ⟨fun s => s, fun s => ⟨rfl, rfl, rfl⟩, Option.map_id'.symm⟩

theorem Touched.lookup {heap heap' : DashMap SessionId PeerSession} (h : Touched heap heap')
    {s : PeerSession} (hs : heap.lookup id = some s) :
    ∃ s', heap'.lookup id = some s' ∧ SameSession s s' := by
  obtain ⟨f, hf, hlook⟩ := h id
  exact ⟨f s, by rw [hlook, hs]; rfl, hf s⟩

theorem Touched.lookup_back {heap heap' : DashMap SessionId PeerSession} (h : Touched heap heap')
    {s' : PeerSession} (hs : heap'.lookup id = some s') :
    ∃ s, heap.lookup id = some s ∧ SameSession s s' := by
  obtain ⟨f, hf, hlook⟩ := h id
  rw [hlook, Option.map_eq_some_iff] at hs
  obtain ⟨s, hs, rfl⟩ := hs
  exact ⟨s, hs, hf s⟩

variable {t : SessionTable}

theorem Inv.touched (h : t.Inv) {t' : SessionTable} (hulas : t'.byUla = t.byUla)
    (hkeys : t'.byPubkey = t.byPubkey) (hnext : t'.nextId = t.nextId)
    (hheap : Touched t.heap t'.heap)
    (haliases : ∀ {addr id}, t'.byEndpoint.lookup addr = some id → ∃ s, t.heap.lookup id = some s) :
    t'.Inv where
  seated := by
    intro ula id hid
    rw [hulas] at hid
    obtain ⟨s, hs, hula⟩ := h.seated hid
    obtain ⟨s', hs', hsame⟩ := hheap.lookup hs
    exact ⟨s', hs', hsame.ula.trans hula⟩
  issued := by
    intro id s' hs'
    obtain ⟨s, hs, -⟩ := hheap.lookup_back hs'
    rw [hnext]
    exact h.issued hs
  aliases := by
    intro addr id hid
    obtain ⟨s, hs⟩ := haliases hid
    obtain ⟨s', hs', -⟩ := hheap.lookup hs
    exact ⟨s', hs'⟩
  keyed := by
    intro key id hid
    rw [hkeys] at hid
    obtain ⟨s, hs, hkey, hula⟩ := h.keyed hid
    obtain ⟨s', hs', hsame⟩ := hheap.lookup hs
    exact ⟨s', hs', hsame.peerPubkey.trans hkey, by rw [hulas, hsame.ula]; exact hula⟩

theorem Inv.sessionAt (h : t.Inv) (hid : t.byUla.lookup ula = some id) :
    ∃ s, t.sessionAt ula = some (id, s) ∧ s.ula = ula := by
  obtain ⟨s, hs, hula⟩ := h.seated hid
  exact ⟨s, sessionAt_eq_some_iff.mpr ⟨hid, hs⟩, hula⟩

theorem Inv.sessionAt_eq_none_iff (h : t.Inv) :
    t.sessionAt ula = none ↔ t.byUla.lookup ula = none := by
  constructor
  · intro hnone
    by_contra hsome
    obtain ⟨id, hid⟩ := Option.ne_none_iff_exists'.mp hsome
    obtain ⟨s, hs, -⟩ := h.sessionAt hid
    rw [hnone] at hs
    simp at hs
  · intro hnone
    simp [SessionTable.sessionAt, hnone]

theorem Inv.ula_unique (h : t.Inv) {ula' : Ipv6Addr} (hid : t.byUla.lookup ula = some id)
    (hid' : t.byUla.lookup ula' = some id) : ula = ula' := by
  obtain ⟨s, hs, hula⟩ := h.seated hid
  obtain ⟨s', hs', hula'⟩ := h.seated hid'
  rw [← hula, ← hula', Option.some.inj (hs.symm.trans hs')]

theorem modifyAt_eq (hid : t.byUla.lookup ula = some id) (f : PeerSession → PeerSession) :
    t.modifyAt ula f = t.heap.modify id f := by
  rw [modifyAt, hid, Option.elim_some]

theorem Inv.addRoute (h : t.Inv) (ula : Ipv6Addr) : (t.addRoute ula).Inv :=
  ⟨h.seated, h.issued, h.aliases, h.keyed⟩

theorem lookup_unaliased_of_some {m : DashMap SocketAddr SessionId} {addr : Option SocketAddr}
    {k : SocketAddr} (h : (unaliased m addr).lookup k = some id) : m.lookup k = some id := by
  rw [lookup_unaliased] at h
  split at h
  · simp at h
  · exact h

theorem Inv.unindex (h : t.Inv) (old : PeerSession) : (t.unindex old).Inv where
  seated := h.seated
  issued := h.issued
  aliases := fun hid => h.aliases (lookup_unaliased_of_some hid)
  keyed := by
    intro key id hid
    simp only [SessionTable.unindex, AList.lookup_erase_eq_ite] at hid
    split at hid
    · simp at hid
    · exact h.keyed hid

theorem freshSession_same (t : SessionTable) (info : Client.PeerInfo) (isNew : Bool) :
    (t.freshSession info isNew).ula = info.ula ∧
      (t.freshSession info isNew).peerPubkey = info.wgPublicKey := by
  cases isNew <;> simp [freshSession, PeerSession.foldl_addAllowedSource]

theorem sessionAt_install (t : SessionTable) (info : Client.PeerInfo) (isNew : Bool) :
    (t.install info isNew).sessionAt info.ula = some (t.nextId, t.freshSession info isNew) :=
  sessionAt_eq_some_iff.mpr ⟨by simp [install], by simp [install]⟩

theorem Inv.install_sessions (h : t.Inv) (info : Client.PeerInfo) (isNew : Bool) {s : PeerSession}
    (hs : t.heap.lookup id = some s) : (t.install info isNew).heap.lookup id = some s := by
  have hne : id ≠ t.nextId := Nat.ne_of_lt (h.issued hs)
  simp only [SessionTable.install, AList.lookup_insert_eq_ite, if_neg hne]
  exact hs

theorem Inv.install (h : t.Inv) {info : Client.PeerInfo}
    (hfree : ∀ {key id s}, t.byPubkey.lookup key = some id → t.heap.lookup id = some s →
      s.ula ≠ info.ula) (isNew : Bool) : (t.install info isNew).Inv := by
  have hnew := (sessionAt_eq_some_iff.mp (t.sessionAt_install info isNew)).2
  have hfresh := t.freshSession_same info isNew
  refine ⟨?_, ?_, ?_, ?_⟩
  · intro ula id hid
    simp only [SessionTable.install, AList.lookup_insert_eq_ite] at hid
    split at hid
    · rename_i hula
      obtain rfl := Option.some.inj hid
      exact ⟨_, hnew, hfresh.1.trans hula.symm⟩
    · obtain ⟨s, hs, hula⟩ := h.seated hid
      exact ⟨s, h.install_sessions info isNew hs, hula⟩
  · intro id s hs
    simp only [SessionTable.install, AList.lookup_insert_eq_ite] at hs ⊢
    split at hs
    · rename_i hid
      rw [hid]
      exact Nat.lt_succ_self _
    · exact Nat.lt_succ_of_lt (h.issued hs)
  · intro addr id hid
    simp only [SessionTable.install, lookup_aliased] at hid
    split at hid
    · obtain rfl := Option.some.inj hid
      exact ⟨_, hnew⟩
    · obtain ⟨s, hs⟩ := h.aliases hid
      exact ⟨s, h.install_sessions info isNew hs⟩
  · intro key id hid
    simp only [SessionTable.install, AList.lookup_insert_eq_ite] at hid
    split at hid
    · rename_i hkey
      obtain rfl := Option.some.inj hid
      refine ⟨_, hnew, hfresh.2.trans hkey.symm, ?_⟩
      rw [hfresh.1]
      simp [SessionTable.install]
    · obtain ⟨s, hs, hkey, hula⟩ := h.keyed hid
      refine ⟨s, h.install_sessions info isNew hs, hkey, ?_⟩
      simp only [SessionTable.install, AList.lookup_insert_eq_ite, if_neg (hfree hid hs)]
      exact hula

theorem sameSession_updated (t : SessionTable) (info : Client.PeerInfo) (s : PeerSession) :
    SameSession s ((t.appUlasForHost info.ula).foldl PeerSession.addAllowedSource
      (s.followRoster info.listenEndpoint)) := by
  have h := s.sameSession_followRoster info.listenEndpoint
  rw [PeerSession.foldl_addAllowedSource]
  exact ⟨h.peerId, h.ula, h.peerPubkey⟩

theorem Inv.updateInPlace (h : t.Inv) {old : PeerSession} (hold : t.heap.lookup id = some old)
    (info : Client.PeerInfo) : (t.updateInPlace id old info).Inv := by
  refine h.touched rfl rfl rfl (touched_modify _ _ (t.sameSession_updated info)) ?_
  intro addr id' hid
  simp only [SessionTable.updateInPlace] at hid
  split at hid <;> rw [lookup_aliased] at hid <;> split at hid
  · exact ⟨old, Option.some.inj hid ▸ hold⟩
  · exact h.aliases hid
  · exact ⟨old, Option.some.inj hid ▸ hold⟩
  · exact h.aliases (lookup_unaliased_of_some hid)

inductive Upserts (t : SessionTable) (info : Client.PeerInfo) : SessionTable → Prop
  | kept {id : SessionId} {old : PeerSession} (hat : t.sessionAt info.ula = some (id, old))
      (hkey : old.peerPubkey = info.wgPublicKey) :
      Upserts t info ((t.addRoute info.ula).updateInPlace id old info)
  | rotated {id : SessionId} {old : PeerSession} (hat : t.sessionAt info.ula = some (id, old))
      (hkey : old.peerPubkey ≠ info.wgPublicKey) :
      Upserts t info (((t.addRoute info.ula).unindex old).install info false)
  | inserted (hat : t.sessionAt info.ula = none) :
      Upserts t info ((t.addRoute info.ula).install info true)

theorem upserts (t : SessionTable) (info : Client.PeerInfo) : Upserts t info (t.upsert info) := by
  unfold upsert
  split
  · rename_i id old hat
    split
    · rename_i hkey
      exact .kept hat hkey
    · rename_i hkey
      exact .rotated hat hkey
  · rename_i hat
    exact .inserted hat

theorem Inv.upsert (h : t.Inv) (info : Client.PeerInfo) : (t.upsert info).Inv := by
  have hu := t.upserts info
  generalize t.upsert info = t' at hu
  cases hu with
  | @kept id old hat hkey =>
    exact (h.addRoute info.ula).updateInPlace (sessionAt_eq_some_iff.mp hat).2 info
  | @rotated id old hat hkey =>
    obtain ⟨hid, hs⟩ := sessionAt_eq_some_iff.mp hat
    refine ((h.addRoute info.ula).unindex old).install ?_ false
    intro key id' s' hid' hs' hula
    -- only the old session sits at this address, and its key was just taken out
    simp only [SessionTable.unindex, SessionTable.addRoute, AList.lookup_erase_eq_ite] at hid'
    split at hid'
    · simp at hid'
    · rename_i hne
      obtain ⟨s'', hs'', hkey'', hula''⟩ := h.keyed hid'
      obtain rfl := Option.some.inj (hs''.symm.trans hs')
      rw [hula] at hula''
      obtain rfl := Option.some.inj (hula''.symm.trans hid)
      obtain rfl := Option.some.inj (hs''.symm.trans hs)
      exact hne hkey''.symm
  | inserted hat =>
    rw [h.sessionAt_eq_none_iff] at hat
    refine (h.addRoute info.ula).install ?_ true
    intro key id' s' hid' hs' hula
    obtain ⟨s'', hs'', -, hula''⟩ := h.keyed hid'
    obtain rfl := Option.some.inj (hs''.symm.trans hs')
    rw [hula, hat] at hula''
    simp at hula''

theorem Inv.drop (h : t.Inv) {s : PeerSession} (hat : t.sessionAt ula = some (id, s)) :
    (t.drop ula s).Inv := by
  obtain ⟨hid, hs⟩ := sessionAt_eq_some_iff.mp hat
  refine ⟨?_, h.issued, fun hid => h.aliases (lookup_unaliased_of_some hid), ?_⟩
  · intro ula' id' hid'
    simp only [SessionTable.drop, AList.lookup_erase_eq_ite] at hid'
    split at hid'
    · simp at hid'
    · exact h.seated hid'
  · intro key id' hid'
    simp only [SessionTable.drop, AList.lookup_erase_eq_ite] at hid'
    split at hid'
    · simp at hid'
    · rename_i hne
      obtain ⟨s', hs', hkey', hula'⟩ := h.keyed hid'
      refine ⟨s', hs', hkey', ?_⟩
      have hother : s'.ula ≠ ula := by
        rintro rfl
        obtain rfl := Option.some.inj (hula'.symm.trans hid)
        obtain rfl := Option.some.inj (hs'.symm.trans hs)
        exact hne hkey'.symm
      simp only [SessionTable.drop, AList.lookup_erase_eq_ite, if_neg hother]
      exact hula'

theorem Inv.remove (h : t.Inv) (ula : Ipv6Addr) : (t.remove ula).1.Inv := by
  unfold SessionTable.remove
  split
  · exact h
  · rename_i hat
    exact h.drop hat

theorem Inv.reconcileAppRoutes (h : t.Inv) (hostUla : Ipv6Addr) (advertised : List Ipv6Addr) :
    (t.reconcileAppRoutes hostUla advertised).Inv := by
  have hspec := t.reconcileAppRoutes_spec hostUla advertised
  refine h.touched hspec.byUla hspec.byPubkey hspec.nextId ?_ ?_
  · rw [hspec.heap]
    exact touched_modifyAt t hostUla (fun s => ⟨rfl, rfl, rfl⟩)
  · intro addr id hid
    rw [hspec.byEndpoint] at hid
    exact h.aliases hid

theorem Inv.learnEndpoint (h : t.Inv) {s : PeerSession} (hs : t.heap.lookup id = some s)
    (source : SocketAddr) : (t.learnEndpoint id source).Inv := by
  refine h.touched rfl rfl rfl (touched_modify _ _ (fun s => s.sameSession_learn source)) ?_
  intro addr id' hid
  simp only [SessionTable.learnEndpoint, AList.lookup_insert_eq_ite] at hid
  split at hid
  · exact ⟨s, Option.some.inj hid ▸ hs⟩
  · exact h.aliases hid

end SessionTable

end ServiceMesh
