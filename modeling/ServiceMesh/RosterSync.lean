import ServiceMesh.Machine
import ServiceMesh.SessionTable

/-! How the roster reaches the session table: single events from the stream, and the reconcile
that follows a heartbeat. A reconcile makes the table match the roster, whatever it held before. -/

namespace ServiceMesh

open StdNet (Ipv6Addr SocketAddr)

structure Client.RemotePeer where
  peerId : Uuid
  wgPublicKey : String
  ula : String
  listenEndpoint : Option String
  hostedAppUlas : List String
deriving DecidableEq, Repr

abbrev LookupHost := String → Option SocketAddr

namespace Client

variable [Crates]

def decodePubkey (s : String) : Except String (List UInt8) :=
  match Crates.base64Decode s with
  | .error e => .error ("wg_public_key base64: " ++ e)
  | .ok bytes =>
    if bytes.length ≠ 32 then
      .error ("wg_public_key length " ++ bytes.length.repr ++ " != 32")
    else .ok bytes

def resolveEndpoint (lookupHost : LookupHost) (listenEndpoint : Option String) :
    Option SocketAddr :=
  (listenEndpoint.filter (fun s => s ≠ "")).bind
    (fun s => (SocketAddr.parse s).or (lookupHost s))

def remoteToInfo (lookupHost : LookupHost) (r : RemotePeer) : Except String PeerInfo :=
  match decodePubkey r.wgPublicKey with
  | .error e => .error e
  | .ok wgPublicKey =>
    match Ipv6Addr.parse r.ula with
    | none => .error ("ula " ++ r.ula.quote ++ ": invalid IPv6 address syntax")
    | some ula =>
      .ok ⟨r.peerId, wgPublicKey, ula, resolveEndpoint lookupHost r.listenEndpoint,
        r.hostedAppUlas.filterMap Ipv6Addr.parse⟩

def decodeRoster (lookupHost : LookupHost) (roster : List RemotePeer) : List PeerInfo :=
  roster.filterMap (fun r => (remoteToInfo lookupHost r).toOption)

end Client

inductive RosterEvent
  | added (r : Client.RemotePeer)
  | updated (r : Client.RemotePeer)
  | removed (peerId : Uuid)
deriving DecidableEq, Repr

namespace SessionTable

def follow (t : SessionTable) (info : Client.PeerInfo) : SessionTable :=
  (t.upsert info).reconcileAppRoutes info.ula info.hostedAppUlas

def removeStale (peerId : Uuid) (t : SessionTable) (candidate : SessionId × PeerSession) :
    SessionTable :=
  match t.carrier candidate.2.ula with
  | some (_, live) => if live.peerId = peerId then (t.remove candidate.2.ula).1 else t
  | none => t

def removePeer (t : SessionTable) (peerId : Uuid) : SessionTable :=
  (t.snapshot.filter (fun s => s.2.peerId = peerId)).foldl (removeStale peerId) t

def pruneAt (remoteUlas : List Ipv6Addr) (t : SessionTable) (ula : Ipv6Addr) : SessionTable :=
  if ula ∈ remoteUlas then t else (t.remove ula).1

def prune (t : SessionTable) (remoteUlas : List Ipv6Addr) : SessionTable :=
  t.ulas.foldl (pruneAt remoteUlas) t

variable [Crates]

def applyEvent (lookupHost : LookupHost) (t : SessionTable) : RosterEvent → SessionTable
  | .added r | .updated r =>
    match Client.remoteToInfo lookupHost r with
    | .error _ => t
    | .ok info => t.follow info
  | .removed peerId => t.removePeer peerId

def reconcileRoster (lookupHost : LookupHost) (t : SessionTable) (remote : List Client.RemotePeer) :
    SessionTable :=
  let infos := Client.decodeRoster lookupHost remote
  (infos.foldl follow t).prune (infos.map Client.PeerInfo.ula)

end SessionTable

/-- What happens to the table of a node. An endpoint is learned for a session in place, and a
path that went silent gives its learned endpoint up. -/
inductive SyncOp
  | event (lookupHost : LookupHost) (e : RosterEvent)
  | reconcile (lookupHost : LookupHost) (remote : List Client.RemotePeer)
  | learn (ula : Ipv6Addr) (source : SocketAddr)
  | downgrade (ula : Ipv6Addr)

namespace SessionTable

def downgrade (t : SessionTable) (ula : Ipv6Addr) : SessionTable :=
  { t with heap := t.modifyAt ula (fun s => { s with endpointLearned := false }) }

variable [Crates]

def syncStep (t : SessionTable) : SyncOp → SessionTable × Unit
  | .event lookupHost e => (t.applyEvent lookupHost e, ())
  | .reconcile lookupHost remote => (t.reconcileRoster lookupHost remote, ())
  | .learn ula source =>
    ((t.byUla.lookup ula).elim t (fun id => t.learnEndpoint id source), ())
  | .downgrade ula => (t.downgrade ula, ())

end SessionTable

def sync [Crates] : Machine SessionTable SyncOp Unit where
  init := .new
  step := SessionTable.syncStep
  admits _ _ := True

namespace SessionTable

open PeerSession (SameSession)

variable {t : SessionTable}

structure SyncInv (t : SessionTable) : Prop where
  inv : t.Inv
  routes : ∀ ula, ula ∈ t.sink.allowed ↔ ula ∈ t.byUla
  hosts : ∀ {appUla hostUla}, t.appRoutes.lookup appUla = some hostUla → hostUla ∈ t.byUla

structure Followed (t : SessionTable) (info : Client.PeerInfo) (t' : SessionTable) : Prop where
  others : ∀ {ula}, ula ≠ info.ula → t'.byUla.lookup ula = t.byUla.lookup ula
  here : ∃ id s, t'.sessionAt info.ula = some (id, s) ∧ s.peerPubkey = info.wgPublicKey
  kept : ∀ {id s}, t.sessionAt info.ula = some (id, s) → s.peerPubkey = info.wgPublicKey →
    t'.byUla.lookup info.ula = some id
  sessions : ∀ {id s}, t.heap.lookup id = some s → ∃ s', t'.heap.lookup id = some s' ∧
    SameSession s s'
  allowed : t'.sink.allowed = insert info.ula t.sink.allowed
  appRoutes : ∀ appUla, t'.appRoutes.lookup appUla =
    if appUla ∈ info.hostedAppUlas then some info.ula
    else if t.appRoutes.lookup appUla = some info.ula then none
    else t.appRoutes.lookup appUla

theorem Inv.upsert_followed (h : t.Inv) (info : Client.PeerInfo) :
    (∀ {ula}, ula ≠ info.ula → (t.upsert info).byUla.lookup ula = t.byUla.lookup ula) ∧
    (∃ id s, (t.upsert info).sessionAt info.ula = some (id, s) ∧
      s.peerPubkey = info.wgPublicKey) ∧
    (∀ {id s}, t.sessionAt info.ula = some (id, s) → s.peerPubkey = info.wgPublicKey →
      (t.upsert info).byUla.lookup info.ula = some id) ∧
    (∀ {id s}, t.heap.lookup id = some s → ∃ s', (t.upsert info).heap.lookup id = some s' ∧
      SameSession s s') ∧
    (t.upsert info).sink.allowed = insert info.ula t.sink.allowed ∧
    (t.upsert info).appRoutes = t.appRoutes := by
  have hu := t.upserts info
  generalize t.upsert info = t' at hu
  cases hu with
  | @kept id old hat hkey =>
    obtain ⟨hid, hold⟩ := sessionAt_eq_some_iff.mp hat
    have htouched : Touched t.heap ((t.addRoute info.ula).updateInPlace id old info).heap :=
      touched_modify _ _ ((t.addRoute info.ula).sameSession_updated info)
    obtain ⟨s', hs', hsame⟩ := htouched.lookup hold
    refine ⟨fun _ => rfl, ⟨id, s', sessionAt_eq_some_iff.mpr ⟨hid, hs'⟩, ?_⟩, ?_, ?_, rfl, rfl⟩
    · exact hsame.peerPubkey.trans hkey
    · intro id' s hat' _
      exact (sessionAt_eq_some_iff.mp hat').1
    · intro id' s hs
      exact htouched.lookup hs
  | @rotated id old hat hkey =>
    refine ⟨?_, ⟨_, _, sessionAt_install _ _ _, (freshSession_same _ _ _).2⟩, ?_, ?_, rfl, rfl⟩
    · intro ula hne
      simp only [SessionTable.install, AList.lookup_insert_eq_ite, if_neg hne]
      rfl
    · intro id' s hat' hkey'
      obtain ⟨rfl, rfl⟩ := Prod.mk.inj (Option.some.inj (hat.symm.trans hat'))
      exact absurd hkey' hkey
    · intro id' s hs
      have hinv := (h.addRoute info.ula).unindex old
      exact ⟨s, hinv.install_sessions info false hs, rfl, rfl, rfl⟩
  | inserted hat =>
    refine ⟨?_, ⟨_, _, sessionAt_install _ _ _, (freshSession_same _ _ _).2⟩, ?_, ?_, rfl, rfl⟩
    · intro ula hne
      simp only [SessionTable.install, AList.lookup_insert_eq_ite, if_neg hne]
      rfl
    · intro id' s hat' _
      rw [hat] at hat'
      simp at hat'
    · intro id' s hs
      exact ⟨s, (h.addRoute info.ula).install_sessions info true hs, rfl, rfl, rfl⟩

theorem Inv.follow_spec (h : t.Inv) (info : Client.PeerInfo) : Followed t info (t.follow info) := by
  obtain ⟨hothers, ⟨id, s, hat, hkey⟩, hkept, hsessions, hallowed, happs⟩ := h.upsert_followed info
  have hspec := (t.upsert info).reconcileAppRoutes_spec info.ula info.hostedAppUlas
  have htouched : Touched (t.upsert info).heap (t.follow info).heap := by
    rw [SessionTable.follow, hspec.heap]
    exact touched_modifyAt _ _ (fun s => ⟨rfl, rfl, rfl⟩)
  have hulas : (t.follow info).byUla = (t.upsert info).byUla := hspec.byUla
  obtain ⟨hid, hs⟩ := sessionAt_eq_some_iff.mp hat
  refine ⟨?_, ?_, ?_, ?_, ?_, ?_⟩
  · intro ula hne
    rw [hulas, hothers hne]
  · obtain ⟨s', hs', hsame⟩ := htouched.lookup hs
    refine ⟨id, s', sessionAt_eq_some_iff.mpr ⟨by rw [hulas]; exact hid, hs'⟩, ?_⟩
    exact hsame.peerPubkey.trans hkey
  · intro id' s' hat' hkey'
    rw [hulas]
    exact hkept hat' hkey'
  · intro id' s' hs'
    obtain ⟨s₁, hs₁, hsame₁⟩ := hsessions hs'
    obtain ⟨s₂, hs₂, hsame₂⟩ := htouched.lookup hs₁
    exact ⟨s₂, hs₂, hsame₂.peerId.trans hsame₁.peerId, hsame₂.ula.trans hsame₁.ula,
      hsame₂.peerPubkey.trans hsame₁.peerPubkey⟩
  · rw [← hallowed]
    exact hspec.allowed
  · intro appUla
    rw [← happs]
    exact hspec.appRoutes appUla

theorem Followed.mem {info : Client.PeerInfo} {t' : SessionTable} (h : Followed t info t')
    {ula : Ipv6Addr} : ula ∈ t'.byUla ↔ ula = info.ula ∨ ula ∈ t.byUla := by
  obtain ⟨id, s, hat, -⟩ := h.here
  have hhere := AList.mem_of_lookup (sessionAt_eq_some_iff.mp hat).1
  by_cases hula : ula = info.ula
  · subst hula
    exact iff_of_true hhere (.inl rfl)
  · rw [← AList.lookup_isSome, h.others hula, AList.lookup_isSome]
    simp [hula]

theorem syncInv_new : SyncInv new :=
  ⟨inv_new, by simp [new], by simp [new]⟩

theorem SyncInv.follow (h : t.SyncInv) (info : Client.PeerInfo) : (t.follow info).SyncInv := by
  have hf := h.inv.follow_spec info
  refine ⟨(h.inv.upsert info).reconcileAppRoutes _ _, ?_, ?_⟩
  · intro ula
    rw [hf.allowed, hf.mem, Finset.mem_insert, h.routes]
  · intro appUla hostUla hroute
    rw [hf.appRoutes] at hroute
    rw [hf.mem]
    split at hroute
    · exact .inl (Option.some.inj hroute).symm
    · split at hroute
      · simp at hroute
      · exact .inr (h.hosts hroute)

structure Removed (t : SessionTable) (ula : Ipv6Addr) (t' : SessionTable) : Prop where
  heap : t'.heap = t.heap
  byUla : ∀ k, t'.byUla.lookup k = if k = ula then none else t.byUla.lookup k
  allowed : ∀ k, k ∈ t'.sink.allowed ↔ k ≠ ula ∧ k ∈ t.sink.allowed
  appRoutes : ∀ appUla, t'.appRoutes.lookup appUla =
    if t.appRoutes.lookup appUla = some ula then none else t.appRoutes.lookup appUla

theorem SyncInv.removed (h : t.SyncInv) (ula : Ipv6Addr) : Removed t ula (t.remove ula).1 := by
  unfold SessionTable.remove
  split
  · rename_i hat
    have hnone := h.inv.sessionAt_eq_none_iff.mp hat
    have hnot : ula ∉ t.byUla := by
      rw [← AList.lookup_isSome, hnone]
      simp
    refine ⟨rfl, ?_, ?_, ?_⟩
    · intro k
      split
      · rename_i hk
        rw [hk, hnone]
      · rfl
    · intro k
      constructor
      · intro hk
        refine ⟨?_, hk⟩
        rintro rfl
        exact hnot ((h.routes k).mp hk)
      · exact And.right
    · intro appUla
      split
      · rename_i hroute
        exact absurd (h.hosts hroute) hnot
      · rfl
  · refine ⟨rfl, fun k => AList.lookup_erase_eq_ite _ _ _, fun k => Finset.mem_erase, ?_⟩
    intro appUla
    simp only [SessionTable.drop, AList.lookup_foldl_erase, mem_appUlasForHost]

theorem Removed.mem {ula : Ipv6Addr} {t' : SessionTable} (h : Removed t ula t') {k : Ipv6Addr} :
    k ∈ t'.byUla ↔ k ≠ ula ∧ k ∈ t.byUla := by
  rw [← AList.lookup_isSome, h.byUla, ← AList.lookup_isSome]
  by_cases hk : k = ula
  · simp [hk]
  · simp [hk]

theorem SyncInv.remove (h : t.SyncInv) (ula : Ipv6Addr) : (t.remove ula).1.SyncInv := by
  have hr := h.removed ula
  refine ⟨h.inv.remove ula, ?_, ?_⟩
  · intro k
    rw [hr.allowed, hr.mem, h.routes]
  · intro appUla hostUla hroute
    rw [hr.appRoutes] at hroute
    split at hroute
    · simp at hroute
    · rename_i hne
      rw [hr.mem]
      refine ⟨?_, h.hosts hroute⟩
      rintro rfl
      exact hne hroute

theorem SyncInv.foldl_follow (h : t.SyncInv) (infos : List Client.PeerInfo) :
    (infos.foldl SessionTable.follow t).SyncInv := by
  induction infos generalizing t with
  | nil => exact h
  | cons info infos ih => exact ih (h.follow info)

theorem SyncInv.pruneAt (h : t.SyncInv) (remoteUlas : List Ipv6Addr) (ula : Ipv6Addr) :
    (SessionTable.pruneAt remoteUlas t ula).SyncInv := by
  unfold SessionTable.pruneAt
  split
  · exact h
  · exact h.remove ula

theorem SyncInv.foldl_pruneAt (h : t.SyncInv) (remoteUlas ulas : List Ipv6Addr) :
    (ulas.foldl (SessionTable.pruneAt remoteUlas) t).SyncInv := by
  induction ulas generalizing t with
  | nil => exact h
  | cons ula ulas ih => exact ih (h.pruneAt remoteUlas ula)

theorem SyncInv.removeStale (h : t.SyncInv) (peerId : Uuid) (candidate : SessionId × PeerSession) :
    (SessionTable.removeStale peerId t candidate).SyncInv := by
  unfold SessionTable.removeStale
  split
  · split
    · exact h.remove _
    · exact h
  · exact h

theorem SyncInv.removePeer (h : t.SyncInv) (peerId : Uuid) : (t.removePeer peerId).SyncInv := by
  unfold SessionTable.removePeer
  generalize t.snapshot.filter (fun s => s.2.peerId = peerId) = candidates
  induction candidates generalizing t with
  | nil => exact h
  | cons candidate candidates ih => exact ih (h.removeStale peerId candidate)

theorem SyncInv.learnEndpoint (h : t.SyncInv) {id : SessionId} {s : PeerSession}
    (hs : t.heap.lookup id = some s) (source : SocketAddr) : (t.learnEndpoint id source).SyncInv :=
  ⟨h.inv.learnEndpoint hs source, h.routes, h.hosts⟩

theorem Inv.downgrade (h : t.Inv) (ula : Ipv6Addr) : (t.downgrade ula).Inv :=
  h.touched rfl rfl rfl (touched_modifyAt t ula (fun _ => ⟨rfl, rfl, rfl⟩)) h.aliases

theorem SyncInv.step [Crates] (h : t.SyncInv) (op : SyncOp) : (t.syncStep op).1.SyncInv := by
  cases op with
  | event lookupHost e =>
    cases e with
    | added r | updated r =>
      simp only [syncStep, applyEvent]
      split
      · exact h
      · exact h.follow _
    | removed peerId => exact h.removePeer peerId
  | reconcile lookupHost remote => exact (h.foldl_follow _).foldl_pruneAt _ _
  | learn ula source =>
    simp only [syncStep]
    cases hid : t.byUla.lookup ula with
    | none => exact h
    | some id =>
      obtain ⟨s, hs, -⟩ := h.inv.seated hid
      exact h.learnEndpoint hs source
  | downgrade ula => exact ⟨h.inv.downgrade ula, h.routes, h.hosts⟩

end SessionTable

open SessionTable (SyncInv)

theorem syncInv_of_reach [Crates] {tr : List (SyncOp × Unit)} {t : SessionTable}
    (h : sync.Reach tr t) : t.SyncInv :=
  h.invariant (I := fun _ t => t.SyncInv) SessionTable.syncInv_new
    (fun _ _ op _ ih _ _ => ih.step op)

def routedTo : List Client.PeerInfo → Ipv6Addr → Option Ipv6Addr
  | [], _ => none
  | info :: rest, appUla =>
    (routedTo rest appUla).or (if appUla ∈ info.hostedAppUlas then some info.ula else none)

theorem routedTo_eq_some {infos : List Client.PeerInfo} {appUla hostUla : Ipv6Addr}
    (h : routedTo infos appUla = some hostUla) :
    ∃ info ∈ infos, info.ula = hostUla ∧ appUla ∈ info.hostedAppUlas := by
  induction infos with
  | nil => simp [routedTo] at h
  | cons info rest ih =>
    rw [routedTo, Option.or_eq_some_iff] at h
    rcases h with h | ⟨-, h⟩
    · obtain ⟨other, hother, hhost⟩ := ih h
      exact ⟨other, List.mem_cons_of_mem info hother, hhost⟩
    · split at h
      · rename_i happ
        exact ⟨info, List.mem_cons_self, Option.some.inj h, happ⟩
      · simp at h

theorem exists_routedTo {infos : List Client.PeerInfo} {info : Client.PeerInfo}
    (hinfo : info ∈ infos) {appUla : Ipv6Addr} (happ : appUla ∈ info.hostedAppUlas) :
    ∃ hostUla, routedTo infos appUla = some hostUla := by
  induction infos with
  | nil => simp at hinfo
  | cons first rest ih =>
    rw [routedTo]
    cases hrest : routedTo rest appUla with
    | some hostUla => exact ⟨hostUla, rfl⟩
    | none =>
      rcases List.mem_cons.mp hinfo with rfl | hinfo
      · exact ⟨info.ula, by simp [happ]⟩
      · obtain ⟨hostUla, hhost⟩ := ih hinfo
        rw [hrest] at hhost
        simp at hhost

namespace SessionTable

open PeerSession (SameSession)

variable {t : SessionTable}

structure FollowedAll (t : SessionTable) (infos : List Client.PeerInfo) (t' : SessionTable) :
    Prop where
  others : ∀ {ula}, ula ∉ infos.map Client.PeerInfo.ula → t'.byUla.lookup ula = t.byUla.lookup ula
  here : ∀ info ∈ infos, ∃ id s, t'.sessionAt info.ula = some (id, s) ∧
    s.peerPubkey = info.wgPublicKey
  kept : ∀ info ∈ infos, ∀ {id s}, t.sessionAt info.ula = some (id, s) →
    s.peerPubkey = info.wgPublicKey → t'.byUla.lookup info.ula = some id
  sessions : ∀ {id s}, t.heap.lookup id = some s → ∃ s', t'.heap.lookup id = some s' ∧
    SameSession s s'
  appRoutes : ∀ appUla, t'.appRoutes.lookup appUla =
    (routedTo infos appUla).or
      ((t.appRoutes.lookup appUla).filter (fun h => h ∉ infos.map Client.PeerInfo.ula))

theorem SameSession.trans {a b c : PeerSession} (hab : SameSession a b) (hbc : SameSession b c) :
    SameSession a c :=
  ⟨hbc.peerId.trans hab.peerId, hbc.ula.trans hab.ula, hbc.peerPubkey.trans hab.peerPubkey⟩

theorem Inv.follow (h : t.Inv) (info : Client.PeerInfo) : (t.follow info).Inv :=
  (h.upsert info).reconcileAppRoutes _ _

theorem Inv.foldl_follow_spec (h : t.Inv) {infos : List Client.PeerInfo}
    (hdistinct : (infos.map Client.PeerInfo.ula).Nodup) :
    FollowedAll t infos (infos.foldl SessionTable.follow t) := by
  induction infos generalizing t with
  | nil =>
    refine ⟨fun _ => rfl, by simp, by simp, fun hs => ⟨_, hs, rfl, rfl, rfl⟩, ?_⟩
    intro appUla
    cases hroute : t.appRoutes.lookup appUla with
    | none => simp [routedTo, hroute]
    | some hostUla => simp [routedTo, hroute, Option.filter]
  | cons info rest ih =>
    rw [List.map_cons, List.nodup_cons] at hdistinct
    obtain ⟨hfirst, hdistinct⟩ := hdistinct
    have hf := h.follow_spec info
    have hrest := ih (h.follow info) hdistinct
    rw [List.foldl_cons]
    refine ⟨?_, ?_, ?_, ?_, ?_⟩
    · intro ula hula
      rw [List.map_cons, List.mem_cons, not_or] at hula
      rw [hrest.others hula.2, hf.others hula.1]
    · intro other hother
      rcases List.mem_cons.mp hother with rfl | hother
      · -- the later records are for other addresses
        obtain ⟨id, s, hat, hkey⟩ := hf.here
        obtain ⟨hid, hs⟩ := sessionAt_eq_some_iff.mp hat
        obtain ⟨s', hs', hsame⟩ := hrest.sessions hs
        refine ⟨id, s', sessionAt_eq_some_iff.mpr ⟨?_, hs'⟩, hsame.peerPubkey.trans hkey⟩
        rw [hrest.others hfirst]
        exact hid
      · exact hrest.here other hother
    · intro other hother id s hat hkey
      rcases List.mem_cons.mp hother with rfl | hother
      · rw [hrest.others hfirst]
        exact hf.kept hat hkey
      · have hne : other.ula ≠ info.ula := by
          intro hc
          exact hfirst (hc ▸ List.mem_map_of_mem hother)
        obtain ⟨hid, hs⟩ := sessionAt_eq_some_iff.mp hat
        obtain ⟨s', hs', hsame⟩ := hf.sessions hs
        have hat' : (t.follow info).sessionAt other.ula = some (id, s') :=
          sessionAt_eq_some_iff.mpr ⟨by rw [hf.others hne]; exact hid, hs'⟩
        exact hrest.kept other hother hat' (hsame.peerPubkey.trans hkey)
    · intro id s hs
      obtain ⟨s₁, hs₁, hsame₁⟩ := hf.sessions hs
      obtain ⟨s₂, hs₂, hsame₂⟩ := hrest.sessions hs₁
      exact ⟨s₂, hs₂, SameSession.trans hsame₁ hsame₂⟩
    · intro appUla
      rw [hrest.appRoutes, hf.appRoutes, routedTo]
      cases routedTo rest appUla with
      | some hostUla => rfl
      | none =>
        simp only [Option.none_or]
        by_cases happ : appUla ∈ info.hostedAppUlas
        · simp only [happ, if_true, Option.some_or]
          exact Option.filter_some_pos (by simpa using hfirst)
        · simp only [happ, if_false, Option.none_or]
          by_cases hhost : t.appRoutes.lookup appUla = some info.ula
          · simp [hhost, Option.filter]
          · rw [if_neg hhost]
            cases hold : t.appRoutes.lookup appUla with
            | none => rfl
            | some hostUla =>
              have hne : hostUla ≠ info.ula := fun hc => hhost (by rw [hold, hc])
              simp [Option.filter, hne]

structure PrunedAll (t : SessionTable) (gone : Ipv6Addr → Prop) (t' : SessionTable) : Prop where
  heap : t'.heap = t.heap
  byUla : ∀ ula, ¬ gone ula → t'.byUla.lookup ula = t.byUla.lookup ula
  absent : ∀ ula, gone ula → t'.byUla.lookup ula = none
  routes : ∀ appUla hostUla, t'.appRoutes.lookup appUla = some hostUla ↔
    t.appRoutes.lookup appUla = some hostUla ∧ ¬ gone hostUla

theorem SyncInv.foldl_pruneAt_spec (h : t.SyncInv) (remoteUlas ulas : List Ipv6Addr) :
    PrunedAll t (fun ula => ula ∈ ulas ∧ ula ∉ remoteUlas)
      (ulas.foldl (SessionTable.pruneAt remoteUlas) t) := by
  induction ulas generalizing t with
  | nil => exact ⟨rfl, fun _ _ => rfl, by simp, by simp⟩
  | cons ula ulas ih =>
    have hrest := ih (h.pruneAt remoteUlas ula)
    rw [List.foldl_cons]
    by_cases hremote : ula ∈ remoteUlas
    · have hsame : SessionTable.pruneAt remoteUlas t ula = t := if_pos hremote
      rw [hsame] at hrest ⊢
      -- an address of the roster is passed over
      have hgone : ∀ k, (k ∈ ula :: ulas ∧ k ∉ remoteUlas) ↔ (k ∈ ulas ∧ k ∉ remoteUlas) := by
        intro k
        rw [List.mem_cons]
        constructor
        · rintro ⟨rfl | hk, hnot⟩
          · exact absurd hremote hnot
          · exact ⟨hk, hnot⟩
        · rintro ⟨hk, hnot⟩
          exact ⟨.inr hk, hnot⟩
      refine ⟨hrest.heap, ?_, ?_, ?_⟩
      · intro k hk
        exact hrest.byUla k (fun hc => hk ((hgone k).mpr hc))
      · intro k hk
        exact hrest.absent k ((hgone k).mp hk)
      · intro appUla hostUla
        rw [hrest.routes, hgone]
    · have hremoved : SessionTable.pruneAt remoteUlas t ula = (t.remove ula).1 := if_neg hremote
      have hr := h.removed ula
      rw [hremoved] at hrest ⊢
      refine ⟨hrest.heap.trans hr.heap, ?_, ?_, ?_⟩
      · intro k hk
        have hne : k ≠ ula := by
          rintro rfl
          exact hk ⟨List.mem_cons_self, hremote⟩
        rw [hrest.byUla k (fun hc => hk ⟨List.mem_cons_of_mem ula hc.1, hc.2⟩), hr.byUla,
          if_neg hne]
      · rintro k ⟨hk, hnot⟩
        by_cases hmem : k ∈ ulas
        · exact hrest.absent k ⟨hmem, hnot⟩
        · have heq : k = ula := (List.mem_cons.mp hk).resolve_right hmem
          rw [hrest.byUla k (fun hc => hmem hc.1), hr.byUla, if_pos heq]
      · intro appUla hostUla
        rw [hrest.routes, hr.appRoutes, List.mem_cons]
        constructor
        · rintro ⟨hroute, hkeep⟩
          split at hroute
          · simp at hroute
          · rename_i hne
            refine ⟨hroute, ?_⟩
            rintro ⟨rfl | hmem, hnot⟩
            · exact hne hroute
            · exact hkeep ⟨hmem, hnot⟩
        · rintro ⟨hroute, hkeep⟩
          have hne : hostUla ≠ ula := fun hc => hkeep ⟨.inl hc, hc ▸ hremote⟩
          rw [if_neg (by rw [hroute]; simpa using hne)]
          exact ⟨hroute, fun hc => hkeep ⟨.inr hc.1, hc.2⟩⟩

structure Reconciled (t : SessionTable) (infos : List Client.PeerInfo) (t' : SessionTable) :
    Prop where
  syncInv : t'.SyncInv
  ulas : ∀ ula, ula ∈ t'.byUla ↔ ula ∈ infos.map Client.PeerInfo.ula
  here : ∀ info ∈ infos, ∃ id s, t'.sessionAt info.ula = some (id, s) ∧
    s.peerPubkey = info.wgPublicKey
  kept : ∀ info ∈ infos, ∀ {id s}, t.sessionAt info.ula = some (id, s) →
    s.peerPubkey = info.wgPublicKey → t'.byUla.lookup info.ula = some id
  appRoutes : ∀ appUla, t'.appRoutes.lookup appUla = routedTo infos appUla

theorem SyncInv.reconciled (h : t.SyncInv) {infos : List Client.PeerInfo}
    (hdistinct : (infos.map Client.PeerInfo.ula).Nodup) :
    Reconciled t infos
      ((infos.foldl SessionTable.follow t).prune (infos.map Client.PeerInfo.ula)) := by
  have hf := h.inv.foldl_follow_spec hdistinct
  have hinv := h.foldl_follow infos
  generalize infos.foldl SessionTable.follow t = t₁ at hf hinv
  have hp := hinv.foldl_pruneAt_spec (infos.map Client.PeerInfo.ula) t₁.ulas
  have hstays : ∀ {ula}, ula ∈ infos.map Client.PeerInfo.ula →
      (t₁.prune (infos.map Client.PeerInfo.ula)).byUla.lookup ula = t₁.byUla.lookup ula := by
    intro ula hula
    exact hp.byUla ula (fun hc => hc.2 hula)
  refine ⟨hinv.foldl_pruneAt _ _, ?_, ?_, ?_, ?_⟩
  · intro ula
    by_cases hula : ula ∈ infos.map Client.PeerInfo.ula
    · obtain ⟨info, hinfo, rfl⟩ := List.mem_map.mp hula
      obtain ⟨id, s, hat, -⟩ := hf.here info hinfo
      refine iff_of_true (AList.mem_of_lookup (b := id) ?_) hula
      rw [hstays hula]
      exact (sessionAt_eq_some_iff.mp hat).1
    · refine iff_of_false ?_ hula
      rw [← AList.lookup_isSome, SessionTable.prune]
      by_cases hmem : ula ∈ t₁.byUla
      · rw [hp.absent ula ⟨AList.mem_keys.mp hmem, hula⟩]
        simp
      · have hnot : ula ∉ t₁.ulas := fun hc => hmem (AList.mem_keys.mpr hc)
        rw [hp.byUla ula (fun hc => hnot hc.1), AList.lookup_isSome]
        exact hmem
  · intro info hinfo
    obtain ⟨id, s, hat, hkey⟩ := hf.here info hinfo
    obtain ⟨hid, hs⟩ := sessionAt_eq_some_iff.mp hat
    refine ⟨id, s, sessionAt_eq_some_iff.mpr ⟨?_, ?_⟩, hkey⟩
    · rw [hstays (List.mem_map_of_mem hinfo)]
      exact hid
    · rw [SessionTable.prune, hp.heap]
      exact hs
  · intro info hinfo id s hat hkey
    rw [hstays (List.mem_map_of_mem hinfo)]
    exact hf.kept info hinfo hat hkey
  · intro appUla
    apply Option.ext
    intro hostUla
    rw [SessionTable.prune, hp.routes, hf.appRoutes]
    constructor
    · rintro ⟨hroute, hkeep⟩
      rcases Option.or_eq_some_iff.mp hroute with hroute | ⟨-, hold⟩
      · exact hroute
      · -- a route that no record touched leads to a host outside the roster
        obtain ⟨hold, hnot⟩ := Option.filter_eq_some_iff.mp hold
        have hnot : hostUla ∉ infos.map Client.PeerInfo.ula := by simpa using hnot
        have hmem : hostUla ∈ t₁.byUla := by
          rw [← AList.lookup_isSome, hf.others hnot, AList.lookup_isSome]
          exact h.hosts hold
        exact absurd ⟨AList.mem_keys.mp hmem, hnot⟩ hkeep
    · intro hroute
      refine ⟨by rw [hroute]; rfl, ?_⟩
      obtain ⟨info, hinfo, rfl, -⟩ := routedTo_eq_some hroute
      exact fun hc => hc.2 (List.mem_map_of_mem hinfo)

/-- The table has the sessions, the host routes and the app routes of the roster, and has kept
the sessions it could keep. -/
structure MatchesRoster (infos : List Client.PeerInfo) (before after : SessionTable) : Prop where
  ulas : ∀ ula, ula ∈ after.byUla ↔ ula ∈ infos.map Client.PeerInfo.ula
  keys : ∀ info ∈ infos, ∃ id s, after.sessionAt info.ula = some (id, s) ∧
    s.peerPubkey = info.wgPublicKey
  hostRoutes : ∀ ula, ula ∈ after.sink.allowed ↔ ula ∈ after.byUla
  routed : ∀ info ∈ infos, ∀ appUla ∈ info.hostedAppUlas,
    (∀ other ∈ infos, appUla ∈ other.hostedAppUlas → other = info) →
      after.appRoutes.lookup appUla = some info.ula
  advertised : ∀ appUla hostUla, after.appRoutes.lookup appUla = some hostUla →
    hostUla ∈ after.byUla ∧ ∃ info ∈ infos, info.ula = hostUla ∧ appUla ∈ info.hostedAppUlas
  kept : ∀ info ∈ infos, ∀ id s, before.sessionAt info.ula = some (id, s) →
    s.peerPubkey = info.wgPublicKey → after.byUla.lookup info.ula = some id

structure SameView (t t' : SessionTable) : Prop where
  byUla : ∀ ula, t'.byUla.lookup ula = t.byUla.lookup ula
  keys : ∀ ula id s, t.sessionAt ula = some (id, s) →
    ∃ s', t'.sessionAt ula = some (id, s') ∧ s'.peerPubkey = s.peerPubkey
  hostRoutes : ∀ ula, ula ∈ t'.sink.allowed ↔ ula ∈ t.sink.allowed
  appRoutes : ∀ appUla, t'.appRoutes.lookup appUla = t.appRoutes.lookup appUla

theorem Reconciled.matches {infos : List Client.PeerInfo} {t' : SessionTable}
    (h : Reconciled t infos t') : MatchesRoster infos t t' where
  ulas := h.ulas
  keys := h.here
  hostRoutes := h.syncInv.routes
  routed := by
    intro info hinfo appUla happ honly
    obtain ⟨hostUla, hhost⟩ := exists_routedTo hinfo happ
    obtain ⟨other, hother, rfl, happ'⟩ := routedTo_eq_some hhost
    rw [h.appRoutes, hhost, honly other hother happ']
  advertised := by
    intro appUla hostUla hroute
    refine ⟨h.syncInv.hosts hroute, ?_⟩
    rw [h.appRoutes] at hroute
    exact routedTo_eq_some hroute
  kept := fun info hinfo _ _ hat hkey => h.kept info hinfo hat hkey

end SessionTable

def Client.PeerInfo.gist (info : Client.PeerInfo) : Ipv6Addr × List UInt8 × List Ipv6Addr :=
  (info.ula, info.wgPublicKey, info.hostedAppUlas)

theorem routedTo_congr {infos infos' : List Client.PeerInfo}
    (h : infos'.map Client.PeerInfo.gist = infos.map Client.PeerInfo.gist) (appUla : Ipv6Addr) :
    routedTo infos' appUla = routedTo infos appUla := by
  induction infos generalizing infos' with
  | nil =>
    rw [List.map_nil, List.map_eq_nil_iff] at h
    rw [h]
  | cons info rest ih =>
    obtain ⟨info', rest', rfl, hgist, hrest⟩ := List.map_eq_cons_iff.mp h
    simp only [Client.PeerInfo.gist, Prod.mk.injEq] at hgist
    rw [routedTo, routedTo, ih hrest, hgist.1, hgist.2.2]

theorem Client.decodeRoster_gist [Crates] (lookupHost lookupHost' : LookupHost)
    (remote : List Client.RemotePeer) :
    (Client.decodeRoster lookupHost' remote).map Client.PeerInfo.gist =
      (Client.decodeRoster lookupHost remote).map Client.PeerInfo.gist := by
  induction remote with
  | nil => rfl
  | cons r remote ih =>
    simp only [Client.decodeRoster, List.filterMap_cons] at ih ⊢
    unfold Client.remoteToInfo
    cases Client.decodePubkey r.wgPublicKey with
    | error e => exact ih
    | ok key =>
      cases Ipv6Addr.parse r.ula with
      | none => exact ih
      | some ula =>
        simp only [Except.toOption, List.map_cons]
        exact congrArg₂ _ rfl ih

namespace SessionTable

theorem Reconciled.again {t t₁ t₂ : SessionTable} {infos infos' : List Client.PeerInfo}
    (h₁ : Reconciled t infos t₁) (h₂ : Reconciled t₁ infos' t₂)
    (hgist : infos'.map Client.PeerInfo.gist = infos.map Client.PeerInfo.gist) :
    SameView t₁ t₂ := by
  have hulas : infos'.map Client.PeerInfo.ula = infos.map Client.PeerInfo.ula := by
    have h := congrArg (List.map Prod.fst) hgist
    simpa [Function.comp_def, Client.PeerInfo.gist] using h
  have hmem : ∀ ula, ula ∈ t₂.byUla ↔ ula ∈ t₁.byUla := by
    intro ula
    rw [h₁.ulas, h₂.ulas, hulas]
  -- every session of the first reconcile has the key of its record, so the second one keeps it
  have hkept : ∀ {ula id s}, t₁.sessionAt ula = some (id, s) →
      ∃ s', t₂.sessionAt ula = some (id, s') ∧ s'.peerPubkey = s.peerPubkey := by
    intro ula id s hat
    have hin := (h₁.ulas ula).mp (AList.mem_of_lookup (sessionAt_eq_some_iff.mp hat).1)
    obtain ⟨info, hinfo, rfl⟩ := List.mem_map.mp hin
    have hin' : info.gist ∈ infos'.map Client.PeerInfo.gist := by
      rw [hgist]
      exact List.mem_map_of_mem hinfo
    obtain ⟨info', hinfo', heq⟩ := List.mem_map.mp hin'
    simp only [Client.PeerInfo.gist, Prod.mk.injEq] at heq
    obtain ⟨id₁, s₁, hat₁, hkey₁⟩ := h₁.here info hinfo
    obtain ⟨rfl, rfl⟩ := Prod.mk.inj (Option.some.inj (hat.symm.trans hat₁))
    obtain ⟨id₂, s₂, hat₂, hkey₂⟩ := h₂.here info' hinfo'
    rw [heq.1] at hat₂
    have hid := h₂.kept info' hinfo' (by rw [heq.1]; exact hat) (by rw [heq.2.1]; exact hkey₁)
    rw [heq.1, (sessionAt_eq_some_iff.mp hat₂).1] at hid
    obtain rfl := Option.some.inj hid
    exact ⟨s₂, hat₂, by rw [hkey₂, heq.2.1, hkey₁]⟩
  refine ⟨?_, fun ula id s hat => hkept hat, ?_, ?_⟩
  · intro ula
    cases hid : t₁.byUla.lookup ula with
    | none =>
      rw [AList.lookup_eq_none] at hid ⊢
      rwa [hmem]
    | some id =>
      obtain ⟨s, hat, -⟩ := h₁.syncInv.inv.sessionAt hid
      obtain ⟨s', hat', -⟩ := hkept hat
      exact (sessionAt_eq_some_iff.mp hat').1
  · intro ula
    rw [h₂.syncInv.routes, h₁.syncInv.routes, hmem]
  · intro appUla
    rw [h₂.appRoutes, h₁.appRoutes, routedTo_congr hgist]

end SessionTable

/-- Whatever stream events and reconciles led to the table: reconciling with a roster of distinct
addresses makes it match that roster, and doing so once more changes nothing. -/
theorem reconcile_matches_roster [Crates] {tr : List (SyncOp × Unit)} {t : SessionTable}
    (h : sync.Reach tr t) (lookupHost lookupHost' : LookupHost) (remote : List Client.RemotePeer)
    (hdistinct : ((Client.decodeRoster lookupHost remote).map Client.PeerInfo.ula).Nodup) :
    SessionTable.MatchesRoster (Client.decodeRoster lookupHost remote) t
        (t.reconcileRoster lookupHost remote) ∧
      SessionTable.SameView (t.reconcileRoster lookupHost remote)
        ((t.reconcileRoster lookupHost remote).reconcileRoster lookupHost' remote) := by
  have hgist := Client.decodeRoster_gist lookupHost lookupHost' remote
  have hdistinct' : ((Client.decodeRoster lookupHost' remote).map Client.PeerInfo.ula).Nodup := by
    have hulas := congrArg (List.map Prod.fst) hgist
    simp only [List.map_map] at hulas
    exact hulas ▸ hdistinct
  have h₁ := (syncInv_of_reach h).reconciled hdistinct
  have h₂ := h₁.syncInv.reconciled hdistinct'
  exact ⟨h₁.matches, h₁.again h₂ hgist⟩

section Example

attribute [local instance] referenceCrates

def homeRecord (apps : List String) : Client.RemotePeer :=
  ⟨1, "AAAAAAAAAAAAAAAAAAAAAAAAAAAAAAAAAAAAAAAAAAA=", "fd00::1", some "192.0.2.1:7", apps⟩

def awayRecord (apps : List String) : Client.RemotePeer :=
  ⟨2, "BAAAAAAAAAAAAAAAAAAAAAAAAAAAAAAAAAAAAAAAAAA=", "fd00::2", none, apps⟩

def homeTable : SessionTable :=
  (sync.exec [] sync.init [.reconcile (fun _ => none) [homeRecord ["fd00::a"]]]).2

theorem reconcile_matches_roster_moved :
    SessionTable.MatchesRoster
        (Client.decodeRoster (fun _ => none) [homeRecord [], awayRecord ["fd00::a"]]) homeTable
        (homeTable.reconcileRoster (fun _ => none) [homeRecord [], awayRecord ["fd00::a"]]) ∧
      SessionTable.SameView
        (homeTable.reconcileRoster (fun _ => none) [homeRecord [], awayRecord ["fd00::a"]])
        ((homeTable.reconcileRoster (fun _ => none)
          [homeRecord [], awayRecord ["fd00::a"]]).reconcileRoster (fun _ => none)
            [homeRecord [], awayRecord ["fd00::a"]]) :=
  reconcile_matches_roster
    (Machine.Run.exec .start (Machine.Admissible.of_free (fun _ _ => trivial) [] sync.init _)) _ _ _
    (by decide +kernel)

end Example

end ServiceMesh
