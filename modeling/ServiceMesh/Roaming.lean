import ServiceMesh.SessionPath
import ServiceMesh.RelayFloor

/-! The address that a session sends to: the roster advertises it, and datagrams from an address
that is not known yet move it. A datagram from an address that some index already knows moves
nothing, whatever the session sends to. -/

namespace ServiceMesh

open StdNet (Ipv6Addr SocketAddr)

theorem SessionTable.Inv.endpoint_upsert {t : SessionTable} (h : t.Inv) (info : Client.PeerInfo)
    {w : SessionId} {s : PeerSession} (hs : t.heap.lookup w = some s) :
    ∃ s', (t.upsert info).heap.lookup w = some s' ∧ s'.endpointLearned = s.endpointLearned ∧
      (s'.endpoint = s.endpoint ∨
        s.endpointLearned = false ∧ t.byUla.lookup info.ula = some w) := by
  have hissued : w ≠ t.nextId := Nat.ne_of_lt (h.issued hs)
  have hu := t.upserts info
  generalize t.upsert info = t' at hu
  cases hu with
  | @kept id old hat hkey =>
    obtain ⟨hid, -⟩ := sessionAt_eq_some_iff.mp hat
    by_cases hw : w = id
    · subst hw
      have hnew : ((t.addRoute info.ula).updateInPlace w old info).heap.lookup w =
          some (((t.addRoute info.ula).appUlasForHost info.ula).foldl PeerSession.addAllowedSource
            (s.followRoster info.listenEndpoint)) := by
        rw [SessionTable.updateInPlace, AList.lookup_modify, if_pos rfl]
        exact congrArg (Option.map _) hs
      refine ⟨_, hnew, ?_⟩
      rw [PeerSession.foldl_addAllowedSource, PeerSession.followRoster]
      cases hlearned : s.endpointLearned with
      | true => exact ⟨hlearned, .inl rfl⟩
      | false => exact ⟨rfl, .inr ⟨rfl, hid⟩⟩
    · refine ⟨s, ?_, rfl, .inl rfl⟩
      rw [SessionTable.updateInPlace, AList.lookup_modify, if_neg hw]
      exact hs
  | rotated | inserted =>
    refine ⟨s, ?_, rfl, .inl rfl⟩
    show (t.heap.insert t.nextId _).lookup w = some s
    rw [AList.lookup_insert_ne hissued]
    exact hs

theorem SessionTable.heap_remove (t : SessionTable) (ula : Ipv6Addr) :
    (t.remove ula).1.heap = t.heap := by
  unfold SessionTable.remove
  split <;> rfl

theorem SessionTable.endpoint_reconcileAppRoutes (t : SessionTable) (hostUla : Ipv6Addr)
    (advertised : List Ipv6Addr) {w : SessionId} {s : PeerSession} (hs : t.heap.lookup w = some s) :
    ∃ s', (t.reconcileAppRoutes hostUla advertised).heap.lookup w = some s' ∧
      s'.endpoint = s.endpoint := by
  rw [(t.reconcileAppRoutes_spec hostUla advertised).heap, SessionTable.lookup_modifyAt, hs]
  split <;> exact ⟨_, rfl, rfl⟩

namespace WireNode

variable {cfg : WireConfig} {now : Int} {id w : SessionId} {n : WireNode} {s : PeerSession}

theorem table_act (source : Option SocketAddr) (action : WgAction) :
    (n.act cfg now id source action).table = n.table := by
  rcases act_cases cfg now id source n action with ⟨-, hsends⟩ | ⟨s, packet, -, -, -, hsends⟩
  · exact hsends.table
  · have hdelivered : (n.deliver now id source packet).table = n.table := by
      cases source <;> rfl
    exact hsends.table.trans hdelivered

variable [Tunnels]

def takes (n : WireNode) (order : SessionId → Nat) (source : SocketAddr) (datagram : List UInt8)
    (w : SessionId) : Bool :=
  match n.table.deref (n.table.byEndpoint.lookup source) with
  | some (id, _) => id = w && !(n.decapsulate id datagram).2.passedOver
  | none =>
    ((n.table.visited order).find? (fun c => !(n.decapsulate c.1 datagram).2.passedOver)).any
      (fun c => c.1 = w)

theorem table_processInboundDatagram (source : Option SocketAddr) (datagram : List UInt8) :
    (n.processInboundDatagram cfg now id source datagram).table = n.table := by
  unfold processInboundDatagram
  simp only
  rw [table_act]
  split
  · exact (decapsulate_frame n id datagram id).2.2
  · exact (decapsulate_frame n id datagram id).2.2

theorem session_udpRecv (order : SessionId → Nat) (source : SocketAddr) (datagram : List UInt8)
    (w : SessionId) :
    (n.udpRecv cfg now order source datagram).table.heap.lookup w =
      (n.table.heap.lookup w).map (fun s =>
        if n.table.deref (n.table.byEndpoint.lookup source) = none ∧
          n.takes order source datagram w = true then s.learn source else s) := by
  unfold udpRecv takes
  cases hfast : n.table.deref (n.table.byEndpoint.lookup source) with
  | some c =>
    simp only [reduceCtorEq, false_and, if_false, Option.map_id']
    rw [table_processInboundDatagram]
  | none =>
    simp only [true_and]
    cases hslow : (n.table.visited order).find?
        (fun c => !(n.decapsulate c.1 datagram).2.passedOver) with
    | none => simp
    | some c =>
      have htable := (decapsulate_frame n c.1 datagram w).2.2
      simp only [table_act]
      show ((n.decapsulate c.1 datagram).1.table.heap.modify c.1 _).lookup w = _
      rw [htable, AList.lookup_modify]
      by_cases hw : w = c.1
      · simp [hw]
      · have hne : c.1 ≠ w := fun h => hw h.symm
        simp [hw, hne]

def sources (w : SessionId) (n : WireNode) : Int × WireOp → List (Option SocketAddr)
  | (_, .datagram order source bytes) =>
    if n.takes order source bytes w = true then [some source] else []
  | (_, .upsert info) => if n.table.byUla.lookup info.ula = some w then [none] else []
  | (now, .tick order _ _) =>
    if w ∈ (n.table.visited order).map Prod.fst ∧ (n.paths w).broken now = true then [none] else []
  | _ => []

/-- A datagram that the session takes comes from an address that nobody is known by, or from the
one that the session sends to. -/
def Adopts (w : SessionId) (n : WireNode) : Int × WireOp → Prop
  | (_, .datagram order source bytes) => n.takes order source bytes w = true →
      n.table.deref (n.table.byEndpoint.lookup source) = none ∨
        (n.table.heap.lookup w).bind PeerSession.endpoint = some source
  | _ => True

end WireNode

def latestSource (log : List (Option SocketAddr)) : Option SocketAddr := log.getLast?.join

namespace WireNode

variable [Tunnels] {cfg : WireConfig} {now : Int} {w : SessionId} {n : WireNode}

theorem takes_session {order : SessionId → Nat} {source : SocketAddr} {datagram : List UInt8}
    (h : n.takes order source datagram w = true) : ∃ s, n.table.heap.lookup w = some s := by
  unfold takes at h
  cases hfast : n.table.deref (n.table.byEndpoint.lookup source) with
  | some c =>
    obtain ⟨-, hs⟩ := SessionTable.deref_eq_some_iff.mp hfast
    simp only [hfast, Bool.and_eq_true, decide_eq_true_eq] at h
    exact ⟨c.2, h.1 ▸ hs⟩
  | none =>
    simp only [hfast] at h
    cases hslow : (n.table.visited order).find?
        (fun c => !(n.decapsulate c.1 datagram).2.passedOver) with
    | none => simp [hslow] at h
    | some c =>
      have hmem := List.mem_of_find?_eq_some hslow
      rw [SessionTable.visited, List.mem_mergeSort] at hmem
      obtain ⟨ula, hat⟩ := SessionTable.mem_snapshot_iff.mp hmem
      simp only [hslow, Option.any_some, decide_eq_true_eq] at h
      exact ⟨c.2, h ▸ (SessionTable.sessionAt_eq_some_iff.mp hat).2⟩

theorem endpoint_udpRecv {order : SessionId → Nat} {source : SocketAddr} {datagram : List UInt8}
    (h : n.takes order source datagram w = true) :
    ((n.udpRecv cfg now order source datagram).table.heap.lookup w).bind PeerSession.endpoint =
        some source ↔
      n.table.deref (n.table.byEndpoint.lookup source) = none ∨
        (n.table.heap.lookup w).bind PeerSession.endpoint = some source := by
  obtain ⟨s, hs⟩ := takes_session h
  rw [session_udpRecv, hs]
  by_cases hunknown : n.table.deref (n.table.byEndpoint.lookup source) = none
  · simp [hunknown, h]
  · simp [hunknown]

def Tracks (w : SessionId) (n : WireNode) (log : List (Option SocketAddr)) : Prop :=
  ∀ source, latestSource log = some source →
    ∃ s, n.table.heap.lookup w = some s ∧ s.endpoint = some source

omit [Tunnels] in
theorem Tracks.kept {log : List (Option SocketAddr)} (h : Tracks w n log) {n' : WireNode}
    (hkeep : ∀ s, n.table.heap.lookup w = some s →
      ∃ s', n'.table.heap.lookup w = some s' ∧ s'.endpoint = s.endpoint) : Tracks w n' log := by
  intro source hsource
  obtain ⟨s, hs, hendpoint⟩ := h source hsource
  obtain ⟨s', hs', hsame⟩ := hkeep s hs
  exact ⟨s', hs', hsame.trans hendpoint⟩

omit [Tunnels] in
theorem Tracks.kept_of_eq {log : List (Option SocketAddr)} (h : Tracks w n log) {n' : WireNode}
    (htable : n'.table.heap = n.table.heap) : Tracks w n' (log ++ []) := by
  rw [List.append_nil]
  exact h.kept (fun s hs => ⟨s, by rw [htable]; exact hs, rfl⟩)

omit [Tunnels] in
theorem tracks_none (n : WireNode) (log : List (Option SocketAddr)) :
    Tracks w n (log ++ [none]) := by
  intro source hsource
  simp [latestSource] at hsource

theorem tracks_step [Crates] (hinv : n.table.Inv) {log : List (Option SocketAddr)}
    (h : Tracks w n log) {op : WireOp} (hadopts : n.Adopts w (now, op)) :
    Tracks w (n.step cfg now op) (log ++ n.sources w (now, op)) := by
  cases op with
  | upsert info =>
    simp only [sources]
    by_cases hown : n.table.byUla.lookup info.ula = some w
    · rw [if_pos hown]
      exact tracks_none _ log
    · rw [if_neg hown, List.append_nil]
      refine h.kept ?_
      intro s hs
      obtain ⟨s', hs', -, hendpoint⟩ := hinv.endpoint_upsert info hs
      exact ⟨s', hs', hendpoint.resolve_right (fun hmoved => hown hmoved.2)⟩
  | datagram order source bytes =>
    simp only [sources]
    by_cases htakes : n.takes order source bytes w = true
    · rw [if_pos htakes]
      intro source' hsource'
      obtain rfl : source = source' := by simpa [latestSource] using hsource'
      exact Option.bind_eq_some_iff.mp ((endpoint_udpRecv htakes).mpr (hadopts htakes))
    · rw [if_neg htakes, List.append_nil]
      refine h.kept ?_
      intro s hs
      refine ⟨s, ?_, rfl⟩
      show (n.udpRecv cfg now order source bytes).table.heap.lookup w = some s
      rw [session_udpRecv, hs, Option.map_some, if_neg (fun hboth => htakes hboth.2)]
  | tick order answers idle =>
    simp only [sources]
    by_cases hdown : w ∈ (n.table.visited order).map Prod.fst ∧ (n.paths w).broken now = true
    · rw [if_pos hdown]
      exact tracks_none _ log
    · rw [if_neg hdown, List.append_nil]
      refine h.kept ?_
      intro s hs
      have hsession := (shows_tick hinv cfg now order answers idle w).2
      rw [hs, Option.map_some, if_neg hdown] at hsession
      exact ⟨s, hsession, rfl⟩
  | remove ula =>
    exact h.kept_of_eq (n.table.heap_remove ula)
  | appRoutes hostUla advertised =>
    show Tracks w _ (log ++ [])
    rw [List.append_nil]
    exact h.kept (fun s hs => n.table.endpoint_reconcileAppRoutes hostUla advertised hs)
  | relayWake ula => exact h.kept_of_eq rfl
  | relayed buf =>
    have htable : (n.handleInbound cfg now buf).table = n.table := table_handleInbound buf
    exact h.kept_of_eq (congrArg SessionTable.heap htable)
  | tun packet answer held =>
    have hsends : Sends cfg n (n.tunRead cfg now packet answer held) := sends_tunRead ..
    exact h.kept_of_eq (congrArg SessionTable.heap hsends.table)
  | converge answer =>
    have hsends : Sends cfg n (n.converge cfg now answer) := sends_converge ..
    exact h.kept_of_eq (congrArg SessionTable.heap hsends.table)
  | punch order myPeerId event inits =>
    obtain ⟨sent, heq, -⟩ := punch_cases cfg n now order myPeerId event inits
    exact h.kept_of_eq (by rw [heq])

end WireNode

/-- A datagram moves the session that takes it if nobody is known by its source; where every
datagram does, the session sends to the source of the last one until the roster or a downgrade
touches it. -/
theorem roaming_follows_source [Crates] [Tunnels] (cfg : WireConfig) (w : SessionId) :
    (∀ (n : WireNode) now order source datagram, n.takes order source datagram w = true →
      (((n.udpRecv cfg now order source datagram).table.heap.lookup w).bind PeerSession.endpoint =
          some source ↔
        n.table.deref (n.table.byEndpoint.lookup source) = none ∨
          (n.table.heap.lookup w).bind PeerSession.endpoint = some source)) ∧
    ∀ tr x, ((wireNode cfg).observed (WireNode.sources w)).Run (fun x op => x.1.Adopts w op) tr x →
      ∀ source, latestSource x.2 = some source →
        ∃ s, x.1.table.heap.lookup w = some s ∧ s.endpoint = some source := by
  refine ⟨fun n now order source datagram htakes => WireNode.endpoint_udpRecv htakes, ?_⟩
  intro tr x hrun
  have htracks : x.1.table.Inv ∧ WireNode.Tracks w x.1 x.2 := by
    refine hrun.invariant (I := fun _ x => x.1.table.Inv ∧ WireNode.Tracks w x.1 x.2) ?_ ?_
    · exact ⟨SessionTable.inv_new, fun source hsource => nomatch hsource⟩
    · intro _ x op _ ih _ hadopts
      exact ⟨WireNode.inv_step ih.1 op.2, WireNode.tracks_step ih.1 ih.2 hadopts⟩
  exact htracks.2

section Example

attribute [local instance] referenceCrates referenceTunnels

def roamingRun (ops : List (Int × WireOp)) :
    List ((Int × WireOp) × Bool) × WireNode × List (Option SocketAddr) :=
  ((wireNode flooredConfig).observed (WireNode.sources 0)).exec []
    ((wireNode flooredConfig).observed (WireNode.sources 0)).init ops

def roamedOps : List (Int × WireOp) :=
  [(1, .upsert wirePeer), (2, .datagram (fun _ => 0) movedAddr wireDatagram)]

theorem roaming_follows_source_roamed :
    ((upsertedNode.udpRecv flooredConfig 2 (fun _ => 0) movedAddr wireDatagram).table.heap.lookup
      0).bind PeerSession.endpoint = some movedAddr ∧
    ∃ s, (roamingRun roamedOps).2.1.table.heap.lookup 0 = some s ∧ s.endpoint = some movedAddr := by
  have hrun : ((wireNode flooredConfig).observed (WireNode.sources 0)).Run
      (fun x op => x.1.Adopts 0 op) (roamingRun roamedOps).1 (roamingRun roamedOps).2 := by
    refine Machine.Run.exec .start ⟨trivial, trivial, trivial, ?_, trivial⟩
    intro _
    exact .inl (by decide)
  have hclaim := roaming_follows_source flooredConfig 0
  refine ⟨?_, hclaim.2 _ _ hrun movedAddr (by decide +kernel)⟩
  exact (hclaim.1 _ _ _ _ _ (by decide +kernel)).mpr (.inl (by decide +kernel))

def returnedOps : List (Int × WireOp) :=
  roamedOps ++ [(3, .datagram (fun _ => 0) wireAddr wireDatagram)]

theorem returned_peer_not_followed :
    latestSource (roamingRun returnedOps).2.2 = some wireAddr ∧
      ((roamingRun returnedOps).2.1.table.heap.lookup 0).bind PeerSession.endpoint =
        some movedAddr := by
  decide +kernel

end Example

end ServiceMesh
