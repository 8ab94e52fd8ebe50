import ServiceMesh.DataPlane

/-! Sessions that were removed or replaced. The table keeps an alias for every address that a
peer was heard from, and takes out only the current one when the session goes. -/

namespace ServiceMesh

open StdNet (Ipv6Addr SocketAddr)

namespace SessionTable

variable {t : SessionTable} {id : SessionId}

structure Retired (t : SessionTable) (id : SessionId) : Prop where
  issued : id < t.nextId
  unseated : ∀ ula, t.byUla.lookup ula ≠ some id

structure Bypassed (t : SessionTable) (id : SessionId) (t' : SessionTable) : Prop where
  retired : t'.Retired id
  heap : t'.heap.lookup id = t.heap.lookup id
  aliases : ∀ {addr}, t'.byEndpoint.lookup addr = some id → t.byEndpoint.lookup addr = some id

def Mute (t : SessionTable) (id : SessionId) : Prop :=
  ∀ addr s, t.byEndpoint.lookup addr = some id → t.heap.lookup id = some s → s.allowedIps = ∅

theorem Bypassed.mute {t' : SessionTable} (hb : t.Bypassed id t') (h : t.Mute id) : t'.Mute id := by
  intro addr s halias hs
  rw [hb.heap] at hs
  exact h addr s (hb.aliases halias) hs

theorem Retired.refl (h : t.Retired id) : t.Bypassed id t := ⟨h, rfl, fun halias => halias⟩

theorem Retired.ne_of_sessionAt (h : t.Retired id) {ula : Ipv6Addr} {id' : SessionId}
    {s : PeerSession} (hat : t.sessionAt ula = some (id', s)) : id ≠ id' := by
  rintro rfl
  exact h.unseated ula (sessionAt_eq_some_iff.mp hat).1

theorem Retired.modifyAt (h : t.Retired id) (ula : Ipv6Addr) (f : PeerSession → PeerSession) :
    (t.modifyAt ula f).lookup id = t.heap.lookup id := by
  rw [lookup_modifyAt, if_neg (h.unseated ula)]

theorem lookup_aliased_of_ne {m : DashMap SocketAddr SessionId} {addr : Option SocketAddr}
    {id' : SessionId} {k : SocketAddr} (hne : id ≠ id')
    (h : (aliased m addr id').lookup k = some id) : m.lookup k = some id := by
  rw [lookup_aliased] at h
  split at h
  · exact absurd (Option.some.inj h).symm hne
  · exact h

theorem Retired.updateInPlace (h : t.Retired id) {id' : SessionId} (hne : id ≠ id')
    (session : PeerSession) (info : Client.PeerInfo) :
    t.Bypassed id (t.updateInPlace id' session info) := by
  refine ⟨⟨h.issued, h.unseated⟩, ?_, ?_⟩
  · simp only [SessionTable.updateInPlace, AList.lookup_modify, if_neg hne]
  · intro addr halias
    simp only [SessionTable.updateInPlace] at halias
    split at halias
    · exact lookup_aliased_of_ne hne halias
    · exact lookup_unaliased_of_some (lookup_aliased_of_ne hne halias)

theorem Retired.install (h : t.Retired id) (info : Client.PeerInfo) (isNew : Bool) :
    t.Bypassed id (t.install info isNew) := by
  have hne : id ≠ t.nextId := Nat.ne_of_lt h.issued
  refine ⟨⟨Nat.lt_succ_of_lt h.issued, ?_⟩, ?_, ?_⟩
  · intro ula hid
    simp only [SessionTable.install, AList.lookup_insert_eq_ite] at hid
    split at hid
    · exact hne (Option.some.inj hid).symm
    · exact h.unseated ula hid
  · simp only [SessionTable.install, AList.lookup_insert_eq_ite, if_neg hne]
  · intro addr halias
    exact lookup_aliased_of_ne hne halias

theorem Retired.upsert (h : t.Retired id) (info : Client.PeerInfo) :
    t.Bypassed id (t.upsert info) := by
  have hu := t.upserts info
  generalize t.upsert info = t' at hu
  have hroute : (t.addRoute info.ula).Retired id := ⟨h.issued, h.unseated⟩
  cases hu with
  | @kept id' old hat hkey =>
    have hb := hroute.updateInPlace (h.ne_of_sessionAt hat) old info
    exact ⟨hb.retired, hb.heap, hb.aliases⟩
  | @rotated id' old hat hkey =>
    have hunindexed : ((t.addRoute info.ula).unindex old).Retired id := ⟨h.issued, h.unseated⟩
    have hb := hunindexed.install info false
    exact ⟨hb.retired, hb.heap, fun halias => lookup_unaliased_of_some (hb.aliases halias)⟩
  | inserted hat =>
    have hb := hroute.install info true
    exact ⟨hb.retired, hb.heap, hb.aliases⟩

theorem Retired.remove (h : t.Retired id) (ula : Ipv6Addr) : t.Bypassed id (t.remove ula).1 := by
  unfold SessionTable.remove
  split
  · exact h.refl
  · refine ⟨⟨h.issued, ?_⟩, rfl, fun halias => lookup_unaliased_of_some halias⟩
    intro k hid
    simp only [SessionTable.drop, AList.lookup_erase_eq_ite] at hid
    split at hid
    · simp at hid
    · exact h.unseated k hid

theorem Retired.reconcileAppRoutes (h : t.Retired id) (hostUla : Ipv6Addr)
    (advertised : List Ipv6Addr) : t.Bypassed id (t.reconcileAppRoutes hostUla advertised) := by
  have hspec := t.reconcileAppRoutes_spec hostUla advertised
  refine ⟨⟨?_, ?_⟩, ?_, ?_⟩
  · rw [hspec.nextId]
    exact h.issued
  · rw [hspec.byUla]
    exact h.unseated
  · rw [hspec.heap]
    exact h.modifyAt _ _
  · intro addr halias
    rw [hspec.byEndpoint] at halias
    exact halias

theorem Retired.learnEndpoint (h : t.Retired id) {id' : SessionId} (hne : id ≠ id')
    (source : SocketAddr) : t.Bypassed id (t.learnEndpoint id' source) := by
  refine ⟨⟨h.issued, h.unseated⟩, ?_, ?_⟩
  · simp only [SessionTable.learnEndpoint, AList.lookup_modify, if_neg hne]
  · intro addr halias
    simp only [SessionTable.learnEndpoint, AList.lookup_insert_eq_ite] at halias
    split at halias
    · exact absurd (Option.some.inj halias).symm hne
    · exact halias

theorem Retired.downgrade (h : t.Retired id) (ula : Ipv6Addr) :
    t.Bypassed id (t.downgrade ula) :=
  ⟨⟨h.issued, h.unseated⟩, h.modifyAt _ _, fun halias => halias⟩

variable [Tunnels]

theorem Retired.tableStep (h : t.Retired id) (op : TableOp) :
    t.Bypassed id (t.tableStep op).1 := by
  cases op with
  | upsert info => exact h.upsert info
  | remove ula => exact h.remove ula
  | appRoutes hostUla advertised => exact h.reconcileAppRoutes hostUla advertised
  | datagram order source bytes =>
    refine udpRecv_induction (P := t.Bypassed id) h.refl ?_ order bytes
    exact fun hat => h.learnEndpoint (h.ne_of_sessionAt hat) source
  | relayed buf => exact h.refl
  | downgrade ula => exact h.downgrade ula

theorem processInboundDatagram_eq_some {s : PeerSession} {datagram : List UInt8} {d : Delivery}
    {id' : SessionId} (h : processInboundDatagram id' s datagram = some d) :
    d.session = id' ∧ s.allowedIps ≠ ∅ := by
  obtain ⟨hid, source, -, hallowed⟩ := applyWgAction_eq_some h
  exact ⟨hid, Finset.ne_empty_of_mem hallowed⟩

theorem Retired.delivery (h : t.Retired id) (hinv : t.Inv) {op : TableOp} {d : Delivery}
    (hout : (t.tableStep op).2 = some d) (hid : d.session = id) :
    ∃ addr s, t.byEndpoint.lookup addr = some id ∧ t.heap.lookup id = some s ∧
      s.allowedIps ≠ ∅ := by
  cases op with
  | datagram order source bytes =>
    have hr := t.received order source bytes
    change (t.udpRecv order source bytes).2 = some d at hout
    generalize t.udpRecv order source bytes = out at hr hout
    cases hr with
    | @known id' s hlook hs =>
      obtain ⟨rfl, hallowed⟩ := processInboundDatagram_eq_some hout
      exact ⟨source, s, hid ▸ hlook, hid ▸ hs, hallowed⟩
    | @learned ula id' s hat =>
      obtain ⟨rfl, -⟩ := processInboundDatagram_eq_some hout
      exact absurd hid.symm (h.ne_of_sessionAt hat)
    | unclaimed => simp at hout
  | relayed buf =>
    obtain ⟨key, id', s, payload, hlook, hs, hin⟩ := handleInbound_eq_some hout
    obtain ⟨rfl, -⟩ := processInboundDatagram_eq_some hin
    obtain ⟨s', -, -, hseat⟩ := hinv.keyed hlook
    exact absurd (hid ▸ hseat) (h.unseated _)
  | _ => simp [SessionTable.tableStep] at hout

theorem Retired.silent_exec (h : t.Retired id) (hinv : t.Inv) (hmute : t.Mute id)
    (ops : List TableOp) {tr : List (TableOp × Option Delivery)}
    (htr : ∀ x ∈ tr, ∀ d, x.2 = some d → d.session ≠ id) :
    ∀ x ∈ (dataPlane.exec tr t ops).1, ∀ d, x.2 = some d → d.session ≠ id := by
  induction ops generalizing t tr with
  | nil => exact htr
  | cons op ops ih =>
    have hb := h.tableStep op
    refine ih hb.retired (hinv.tableStep op) (hb.mute hmute) ?_
    intro x hx d hd
    rcases List.mem_cons.mp hx with rfl | hx
    · intro hid
      obtain ⟨addr, s, halias, hs, hne⟩ := h.delivery hinv hd hid
      exact hne (hmute addr s halias hs)
    · exact htr x hx d hd

end SessionTable

def TableOp.drops (t : SessionTable) (id : SessionId) (s : PeerSession) : TableOp → Prop
  | .remove ula => t.sessionAt ula = some (id, s)
  | .upsert info => t.sessionAt info.ula = some (id, s) ∧ s.peerPubkey ≠ info.wgPublicKey
  | .appRoutes _ _ | .datagram _ _ _ | .relayed _ | .downgrade _ => False

def TableOp.advertised : TableOp → Option SocketAddr
  | .upsert info => info.listenEndpoint
  | .remove _ | .appRoutes _ _ | .datagram _ _ _ | .relayed _ | .downgrade _ => none

def TableOp.inserts (key : List UInt8) : TableOp → Prop
  | .upsert info => info.wgPublicKey = key
  | .remove _ | .appRoutes _ _ | .datagram _ _ _ | .relayed _ | .downgrade _ => False

/-- The only addresses that lead to the session are those the step takes away. -/
def OnlyCurrentAlias (t : SessionTable) (op : TableOp) (id : SessionId) (s : PeerSession) : Prop :=
  ∀ addr, t.byEndpoint.lookup addr = some id →
    s.endpoint = some addr ∨ op.advertised = some addr

namespace SessionTable

variable {t : SessionTable} {id : SessionId} {s : PeerSession} {op : TableOp}

structure Dropped (t : SessionTable) (op : TableOp) (id : SessionId) (s : PeerSession)
    (t' : SessionTable) : Prop where
  retired : t'.Retired id
  heap : t'.heap.lookup id = some s
  aliases : ∀ addr, t'.byEndpoint.lookup addr = some id ↔
    t.byEndpoint.lookup addr = some id ∧ s.endpoint ≠ some addr ∧ op.advertised ≠ some addr

theorem Inv.dropped [Tunnels] (h : t.Inv) (hdrop : op.drops t id s) :
    Dropped t op id s (t.tableStep op).1 := by
  cases op with
  | remove ula =>
    have hat : t.sessionAt ula = some (id, s) := hdrop
    obtain ⟨hid, hs⟩ := sessionAt_eq_some_iff.mp hat
    have hstep : (t.tableStep (.remove ula)).1 = t.drop ula s := by
      simp only [SessionTable.tableStep, SessionTable.remove, hat]
    rw [hstep]
    refine ⟨⟨h.issued hs, ?_⟩, hs, ?_⟩
    · intro k hk
      simp only [SessionTable.drop, AList.lookup_erase_eq_ite] at hk
      split at hk
      · simp at hk
      · rename_i hne
        exact hne (h.ula_unique hk hid)
    · intro addr
      simp only [SessionTable.drop, lookup_unaliased, TableOp.advertised]
      by_cases haddr : s.endpoint = some addr
      · simp [haddr]
      · simp [haddr]
  | upsert info =>
    obtain ⟨hat, hkey⟩ : t.sessionAt info.ula = some (id, s) ∧ s.peerPubkey ≠ info.wgPublicKey :=
      hdrop
    obtain ⟨hid, hs⟩ := sessionAt_eq_some_iff.mp hat
    have hstep : (t.tableStep (.upsert info)).1 =
        ((t.addRoute info.ula).unindex s).install info false := by
      simp only [SessionTable.tableStep, SessionTable.upsert, hat, if_neg hkey]
    have hne : id ≠ t.nextId := Nat.ne_of_lt (h.issued hs)
    rw [hstep]
    refine ⟨⟨Nat.lt_succ_of_lt (h.issued hs), ?_⟩, ?_, ?_⟩
    · intro k hk
      simp only [SessionTable.install, AList.lookup_insert_eq_ite] at hk
      split at hk
      · exact hne (Option.some.inj hk).symm
      · rename_i hk'
        exact hk' (h.ula_unique hk hid)
    · exact ((h.addRoute info.ula).unindex s).install_sessions info false hs
    · intro addr
      simp only [SessionTable.install, SessionTable.unindex, SessionTable.addRoute, lookup_aliased,
        lookup_unaliased, TableOp.advertised]
      by_cases hnew : info.listenEndpoint = some addr
      · simp [hnew, Ne.symm hne]
      · by_cases haddr : s.endpoint = some addr
        · simp [hnew, haddr]
        · simp [hnew, haddr]
  | _ => exact hdrop.elim

end SessionTable

/-- Until the key is inserted again, no packet is written on behalf of the session. -/
def Silenced [Tunnels] (t : SessionTable) (id : SessionId) (key : List UInt8) : Prop :=
  ∀ ops : List TableOp, (∀ op ∈ ops, ¬ op.inserts key) →
    ∀ x ∈ (dataPlane.exec [] t ops).1, ∀ d, x.2 = some d → d.session ≠ id

/-- A session that goes is silenced exactly if no other alias of it is left, or nothing could have
come through it anyway. -/
theorem dropped_silenced_iff [Tunnels] {tr : List (TableOp × Option Delivery)} {t : SessionTable}
    (h : dataPlane.Reach tr t) {op : TableOp} {id : SessionId} {s : PeerSession}
    (hdrop : op.drops t id s) :
    Silenced (dataPlane.step t op).1 id s.peerPubkey ↔
      OnlyCurrentAlias t op id s ∨ s.allowedIps = ∅ := by
  have hinv := tableInv_of_run h
  have hd := hinv.dropped hdrop
  constructor
  · intro hsilent
    by_contra hnot
    rw [not_or, OnlyCurrentAlias] at hnot
    obtain ⟨halias, hallowed⟩ := hnot
    push Not at halias
    obtain ⟨addr, hlook, hcurrent, hadvertised⟩ := halias
    obtain ⟨source, hsource⟩ := Finset.nonempty_iff_ne_empty.mpr hallowed
    -- the peer sends one more packet from the forgotten address
    obtain ⟨datagram, packet, hpacket⟩ := SessionTable.exists_delivered hsource id
    have hlead := (hd.aliases addr).mpr ⟨hlook, hcurrent, hadvertised⟩
    have hout : ((t.tableStep op).1.udpRecv (fun _ => 0) addr datagram).2 = some ⟨id, packet⟩ := by
      have hderef := SessionTable.deref_eq_some_iff.mpr ⟨hlead, hd.heap⟩
      simp only [SessionTable.udpRecv, hderef, hpacket]
    have hquiet := hsilent [.datagram (fun _ => 0) addr datagram] (by simp [TableOp.inserts])
    exact hquiet _ (List.mem_singleton.mpr rfl) _ hout rfl
  · intro hcond ops _
    refine hd.retired.silent_exec (hinv.tableStep op) ?_ ops (by simp)
    intro addr s' hlook hs'
    obtain rfl := Option.some.inj (hd.heap.symm.trans hs')
    obtain ⟨halias, hcurrent, hadvertised⟩ := (hd.aliases addr).mp hlook
    rcases hcond with honly | hempty
    · exact (honly addr halias).elim (fun hc => absurd hc hcurrent) (fun hc => absurd hc hadvertised)
    · exact hempty

section Example

attribute [local instance] referenceTunnels

def roamerUla : Ipv6Addr := ⟨0xfd00, 0, 0, 0, 0, 0, 0, 1⟩

def advertisedAddr : SocketAddr := .v4 ⟨192, 0, 2, 1⟩ 7

def roamer : Client.PeerInfo :=
  ⟨1, List.replicate 32 1, roamerUla, some advertisedAddr, []⟩

def roamerDatagram : List UInt8 :=
  Tunnels.encapsulate roamer.wgPublicKey (directProbePacket roamerUla roamerUla)

def seatedTable : SessionTable := (dataPlane.exec [] dataPlane.init [.upsert roamer]).2

def roamedTable : SessionTable :=
  (dataPlane.exec [] dataPlane.init [.upsert roamer,
    .datagram (fun _ => 0) (.v4 ⟨198, 51, 100, 1⟩ 7) roamerDatagram]).2

/-- The removal takes out the learned address, and the advertised one still leads to the removed
session. -/
theorem removed_peer_delivers :
    (roamedTable.remove roamerUla).2 = true ∧
      (roamedTable.remove roamerUla).1.snapshot = [] ∧
      (dataPlane.step (roamedTable.remove roamerUla).1
        (.datagram (fun _ => 0) advertisedAddr roamerDatagram)).2 =
          some ⟨0, directProbePacket roamerUla roamerUla⟩ := by
  refine ⟨by decide +kernel, by decide +kernel, by decide +kernel⟩

theorem dropped_silenced_iff_seated :
    Silenced (dataPlane.step seatedTable (.remove roamerUla)).1 0 roamer.wgPublicKey := by
  have hat : seatedTable.sessionAt roamerUla = some (0,
      ⟨1, roamerUla, roamer.wgPublicKey, {roamerUla}, some advertisedAddr, false⟩) := by
    decide +kernel
  have hdrop : (TableOp.remove roamerUla).drops seatedTable 0
      ⟨1, roamerUla, roamer.wgPublicKey, {roamerUla}, some advertisedAddr, false⟩ := hat
  refine (dropped_silenced_iff (Machine.Run.exec .start
    (Machine.Admissible.of_free (fun _ _ => trivial) [] dataPlane.init _)) hdrop).mpr (.inl ?_)
  have hentries : seatedTable.byEndpoint.entries = [⟨advertisedAddr, 0⟩] := by decide +kernel
  intro addr hlook
  change seatedTable.byEndpoint.lookup addr = some 0 at hlook
  rw [AList.lookup_eq_some_iff, hentries, List.mem_singleton] at hlook
  have haddr : addr = advertisedAddr := by simpa using hlook
  exact .inl (congrArg some haddr.symm)

end Example

end ServiceMesh
