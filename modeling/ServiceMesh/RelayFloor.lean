import ServiceMesh.Transmit

/-! The relay as the floor under every path. A frame leaves the floor only for an address that is
known to work, which is what a data packet from that very address shows. -/

namespace ServiceMesh

open StdNet (Ipv6Addr SocketAddr)

namespace WireNode

def Heard (log : List WireEvent) (id : SessionId) (addr : SocketAddr) : Prop :=
  ∃ now packet, WireEvent.delivered now id (some addr) packet ∈ log

/-- Every frame of `send_wire` was queued on the relay once, or went to an address that the
session had been heard from by then and nowhere else. -/
def RelayFloored : List WireEvent → Prop
  | [] => True
  | .sent f :: log =>
    (f.site = .wire → (∃ key, f.relayed = [key]) ∨
      ∃ addr, f.udp = some addr ∧ f.relayed = [] ∧ Heard log f.session addr) ∧ RelayFloored log
  | .delivered .. :: log => RelayFloored log

structure Proven (n : WireNode) : Prop where
  table : n.table.Inv
  issued : ∀ {id}, (n.paths id).directConfirmed = true → id < n.table.nextId
  heard : ∀ {id s addr}, (n.paths id).directConfirmed = true → n.table.heap.lookup id = some s →
    s.endpoint = some addr → Heard n.log id addr
  floored : RelayFloored n.log

variable {cfg : WireConfig} {now : Int} {n n' : WireNode}

theorem Heard.mono {log log' : List WireEvent} (hlog : log ⊆ log') {id : SessionId}
    {addr : SocketAddr} (h : Heard log id addr) : Heard log' id addr := by
  obtain ⟨now, packet, hmem⟩ := h
  exact ⟨now, packet, hlog hmem⟩

theorem proven_init : Proven init := by
  refine ⟨SessionTable.inv_new, ?_, ?_, trivial⟩
  · intro id hconfirmed
    simp [init, PathState.fresh] at hconfirmed
  · intro id s addr hconfirmed
    simp [init, PathState.fresh] at hconfirmed

variable {relay : RelayHandle}

theorem Proven.floored_sent (h : Proven n) (hrelay : cfg.relay = some relay) {sent : List Sending}
    (hsent : ∀ f ∈ sent, Follows cfg n f) : RelayFloored (sent.map WireEvent.sent ++ n.log) := by
  induction sent with
  | nil => exact h.floored
  | cons f sent ih =>
    refine ⟨?_, ih (fun g hg => hsent g (List.mem_cons_of_mem f hg))⟩
    intro hsite
    obtain ⟨s, hs, hfollows⟩ := hsent f List.mem_cons_self
    rw [hsite] at hfollows
    rcases hfollows with ⟨hconfirmed, hudp, hsome, hnone⟩ | ⟨-, _, -, hqueued, -⟩ | ⟨hno, -⟩
    · right
      obtain ⟨addr, haddr⟩ := Option.isSome_iff_exists.mp hsome
      have hheard := h.heard hconfirmed hs (hudp ▸ haddr)
      exact ⟨addr, haddr, hnone, hheard.mono (List.subset_append_right _ _)⟩
    · exact .inl ⟨_, hqueued⟩
    · rw [hrelay] at hno
      simp at hno

theorem Proven.sends (h : Proven n) (hrelay : cfg.relay = some relay) (hs : Sends cfg n n') :
    Proven n' := by
  obtain ⟨sent, hlog, hsent⟩ := hs.log
  refine ⟨hs.table ▸ h.table, ?_, ?_, ?_⟩
  · intro id hconfirmed
    rw [hs.confirmed] at hconfirmed
    rw [hs.table]
    exact h.issued hconfirmed
  · intro id s addr hconfirmed hlook hendpoint
    rw [hs.confirmed] at hconfirmed
    rw [hs.table] at hlook
    rw [hlog]
    exact (h.heard hconfirmed hlook hendpoint).mono (List.subset_append_right _ _)
  · rw [hlog]
    exact h.floored_sent hrelay hsent

theorem Proven.punched (h : Proven n) {sent : List Sending} (hsent : ∀ f ∈ sent, f.site = .punch) :
    Proven { n with log := sent.map WireEvent.sent ++ n.log } := by
  have hfloored : RelayFloored (sent.map WireEvent.sent ++ n.log) := by
    induction sent with
    | nil => exact h.floored
    | cons f sent ih =>
      refine ⟨?_, ih (fun g hg => hsent g (List.mem_cons_of_mem f hg))⟩
      rw [hsent f List.mem_cons_self]
      simp
  exact ⟨h.table, h.issued, fun hconfirmed hs haddr =>
    (h.heard hconfirmed hs haddr).mono (List.subset_append_right _ _), hfloored⟩

theorem Proven.setTable (h : Proven n) {t : SessionTable} (hinv : t.Inv)
    (hnext : n.table.nextId ≤ t.nextId)
    (hheard : ∀ {id s addr}, (n.paths id).directConfirmed = true → t.heap.lookup id = some s →
      s.endpoint = some addr → Heard n.log id addr) : Proven (n.setTable t) :=
  ⟨hinv, fun hconfirmed => Nat.lt_of_lt_of_le (h.issued hconfirmed) hnext, hheard, h.floored⟩

theorem Proven.setTable_touched (h : Proven n) {t : SessionTable} (hinv : t.Inv)
    (hnext : n.table.nextId ≤ t.nextId)
    (hheap : ∀ id, ∃ f : PeerSession → PeerSession, (∀ s, (f s).endpoint = s.endpoint) ∧
      t.heap.lookup id = (n.table.heap.lookup id).map f) : Proven (n.setTable t) := by
  refine h.setTable hinv hnext ?_
  intro id s addr hconfirmed hs hendpoint
  obtain ⟨f, hf, hlook⟩ := hheap id
  rw [hlook, Option.map_eq_some_iff] at hs
  obtain ⟨s₀, hs₀, rfl⟩ := hs
  rw [hf] at hendpoint
  exact h.heard hconfirmed hs₀ hendpoint

theorem Proven.downgradePath (h : Proven n) (id : SessionId) : Proven (n.downgradePath now id) := by
  have hinv : (n.downgradePath now id).table.Inv :=
    h.table.touched rfl rfl rfl (SessionTable.touched_modify _ _ (fun _ => ⟨rfl, rfl, rfl⟩))
      h.table.aliases
  have hset : Proven (n.setTable (n.downgradePath now id).table) := by
    refine h.setTable_touched hinv (Nat.le_refl _) ?_
    intro id'
    show ∃ f : PeerSession → PeerSession, _ ∧ (n.table.heap.modify id _).lookup id' = _
    rw [AList.lookup_modify]
    split
    · exact ⟨fun s => { s with endpointLearned := false }, fun _ => rfl, rfl⟩
    · exact ⟨fun s => s, fun _ => rfl, by simp⟩
  -- the session itself is unconfirmed now, the others are as they were
  have hpath : ∀ id', ((n.downgradePath now id).paths id').directConfirmed = true →
      (n.paths id').directConfirmed = true := by
    intro id' hconfirmed
    by_cases hid : id' = id
    · simp [WireNode.downgradePath, WireNode.setPath, WireNode.setTable, hid] at hconfirmed
    · simpa [WireNode.downgradePath, WireNode.setPath, WireNode.setTable,
        Function.update_of_ne hid] using hconfirmed
  exact ⟨hset.table, fun hc => hset.issued (hpath _ hc), fun hc => hset.heard (hpath _ hc),
    hset.floored⟩

theorem Proven.deliver (h : Proven n) {n₁ : WireNode} {id : SessionId}
    {source : Option SocketAddr} {packet : List UInt8} {s : PeerSession} (hinv : n₁.table.Inv)
    (hnext : n₁.table.nextId = n.table.nextId)
    (hconfirmed : ∀ id', (n₁.paths id').directConfirmed = (n.paths id').directConfirmed)
    (hlog : n₁.log = n.log)
    (hheap : ∀ id', id' ≠ id → n₁.table.heap.lookup id' = n.table.heap.lookup id')
    (hs : n₁.table.heap.lookup id = some s)
    (hsource : ∀ addr, s.endpoint = some addr → source = some addr ∨
      ((n.paths id).directConfirmed = true ∨ source.isSome = true → Heard n.log id addr)) :
    Proven (n₁.deliver now id source packet) := by
  have hlog' : (n₁.deliver now id source packet).log = .delivered now id source packet :: n.log := by
    rw [← hlog]
    cases source <;> rfl
  have htable : (n₁.deliver now id source packet).table = n₁.table := by
    cases source <;> rfl
  have hpath : ∀ id', ((n₁.deliver now id source packet).paths id').directConfirmed = true →
      (n.paths id').directConfirmed = true ∨ id' = id ∧ source.isSome = true := by
    intro id' hc
    rw [← hconfirmed]
    cases source with
    | none => exact .inl hc
    | some source =>
      by_cases hid : id' = id
      · exact .inr ⟨hid, rfl⟩
      · left
        simpa [WireNode.deliver, WireNode.emit, WireNode.setPath, WireNode.setClocks,
          Function.update_of_ne hid] using hc
  refine ⟨htable ▸ hinv, ?_, ?_, ?_⟩
  · intro id' hc
    rw [htable, hnext]
    rcases hpath id' hc with hold | ⟨rfl, -⟩
    · exact h.issued hold
    · exact hnext ▸ hinv.issued hs
  · intro id' s' addr hc hs' hendpoint
    rw [htable] at hs'
    rw [hlog']
    by_cases hid : id' = id
    · rw [hid] at hs' hc ⊢
      obtain rfl := Option.some.inj (hs.symm.trans hs')
      rcases hsource addr hendpoint with rfl | hheard
      · exact ⟨now, packet, List.mem_cons_self⟩
      · exact (hheard ((hpath id hc).imp_right And.right)).mono (List.subset_cons_self _ _)
    · have hold := (hpath id' hc).resolve_right (fun ⟨heq, _⟩ => hid heq)
      rw [hheap id' hid] at hs'
      exact (h.heard hold hs' hendpoint).mono (List.subset_cons_self _ _)
  · rw [hlog']
    exact h.floored

theorem Proven.upsert (h : Proven n) {info : Client.PeerInfo}
    (hmove : ∀ id s addr, n.table.sessionAt info.ula = some (id, s) →
      s.peerPubkey = info.wgPublicKey → (n.paths id).directConfirmed = true →
      s.endpointLearned = false → info.listenEndpoint = some addr → Heard n.log id addr) :
    Proven (n.upsert info) := by
  suffices htable : Proven (n.setTable (n.table.upsert info)) from
    ⟨htable.table, htable.issued, htable.heard, htable.floored⟩
  have hinv := h.table.upsert info
  have hu := n.table.upserts info
  generalize n.table.upsert info = t at hu hinv
  cases hu with
  | @kept id old hat hkey =>
    refine h.setTable hinv (Nat.le_refl _) ?_
    intro id' s addr hconfirmed hs hendpoint
    simp only [SessionTable.updateInPlace, SessionTable.addRoute, AList.lookup_modify] at hs
    by_cases hid : id' = id
    · rw [if_pos hid, Option.map_eq_some_iff] at hs
      obtain ⟨s₀, hs₀, rfl⟩ := hs
      rw [hid] at hs₀ hconfirmed ⊢
      obtain rfl := Option.some.inj (hs₀.symm.trans (SessionTable.sessionAt_eq_some_iff.mp hat).2)
      rw [PeerSession.foldl_addAllowedSource] at hendpoint
      by_cases hlearned : s₀.endpointLearned = true
      · simp only [PeerSession.followRoster, hlearned, if_true] at hendpoint
        exact h.heard hconfirmed hs₀ hendpoint
      · simp only [Bool.not_eq_true] at hlearned
        simp only [PeerSession.followRoster, hlearned] at hendpoint
        exact hmove id s₀ addr hat hkey hconfirmed hlearned hendpoint
    · rw [if_neg hid] at hs
      exact h.heard hconfirmed hs hendpoint
  | @rotated id old hat hkey =>
    refine h.setTable hinv (Nat.le_succ _) ?_
    intro id' s addr hconfirmed hs hendpoint
    have hne : id' ≠ n.table.nextId := Nat.ne_of_lt (h.issued hconfirmed)
    simp only [SessionTable.install, SessionTable.unindex, SessionTable.addRoute,
      AList.lookup_insert_eq_ite, if_neg hne] at hs
    exact h.heard hconfirmed hs hendpoint
  | inserted hat =>
    refine h.setTable hinv (Nat.le_succ _) ?_
    intro id' s addr hconfirmed hs hendpoint
    have hne : id' ≠ n.table.nextId := Nat.ne_of_lt (h.issued hconfirmed)
    simp only [SessionTable.install, SessionTable.addRoute, AList.lookup_insert_eq_ite,
      if_neg hne] at hs
    exact h.heard hconfirmed hs hendpoint

theorem Proven.remove (h : Proven n) (ula : Ipv6Addr) :
    Proven (n.setTable (n.table.remove ula).1) := by
  have hsame : (n.table.remove ula).1.heap = n.table.heap ∧
      (n.table.remove ula).1.nextId = n.table.nextId := by
    unfold SessionTable.remove
    split <;> exact ⟨rfl, rfl⟩
  refine h.setTable_touched (h.table.remove ula) (Nat.le_of_eq hsame.2.symm) ?_
  intro id
  exact ⟨fun s => s, fun _ => rfl, by simp [hsame.1]⟩

theorem Proven.appRoutes (h : Proven n) (hostUla : Ipv6Addr) (advertised : List Ipv6Addr) :
    Proven (n.setTable (n.table.reconcileAppRoutes hostUla advertised)) := by
  have hspec := n.table.reconcileAppRoutes_spec hostUla advertised
  refine h.setTable_touched (h.table.reconcileAppRoutes hostUla advertised)
    (Nat.le_of_eq hspec.nextId.symm) ?_
  intro id
  rw [hspec.heap, SessionTable.lookup_modifyAt]
  split
  · exact ⟨n.table.reconciledSources hostUla advertised, fun _ => rfl, rfl⟩
  · exact ⟨fun s => s, fun _ => rfl, by simp⟩

variable [Tunnels]

theorem Proven.handled (h : Proven n) (hrelay : cfg.relay = some relay) {id : SessionId}
    {source : Option SocketAddr} {datagram : List UInt8}
    (hsource : ∀ packet s addr, n.Opens id datagram packet → n.table.heap.lookup id = some s →
      source.isSome = true → s.endpoint = some addr → source = some addr ∨ Heard n.log id addr)
    (hhandled : Handled cfg now id source datagram n n') : Proven n' := by
  rcases hhandled with ⟨-, hsends⟩ | ⟨packet, n₁, hopens, hsends₁, hlog, hsends⟩
  · exact h.sends hrelay hsends
  · have ⟨_, s, hs, _⟩ := hopens
    refine Proven.sends (h.deliver (s := s) ?_ ?_ hsends₁.confirmed hlog ?_ ?_ ?_) hrelay hsends
    · rw [hsends₁.table]
      exact h.table
    · rw [hsends₁.table]
    · intro id' _
      rw [hsends₁.table]
    · rw [hsends₁.table]
      exact hs
    · intro addr hendpoint
      by_cases hdirect : source.isSome = true
      · exact (hsource packet s addr hopens hs hdirect hendpoint).imp_right (fun hheard _ => hheard)
      · right
        intro hconfirmed
        exact h.heard (hconfirmed.resolve_right hdirect) hs hendpoint

theorem Proven.handled_learned (h : Proven n) (hrelay : cfg.relay = some relay) {ula : Ipv6Addr}
    {id : SessionId} {s : PeerSession} {source : SocketAddr} {datagram : List UInt8}
    (hat : n.table.sessionAt ula = some (id, s)) (hproof : (n.paths id).directConfirmed = true →
      (∃ packet, n.Opens id datagram packet) ∨ Heard n.log id source)
    (hhandled : Handled cfg now id (some source) datagram
      (n.setTable (n.table.learnEndpoint id source)) n') : Proven n' := by
  have hs := (SessionTable.sessionAt_eq_some_iff.mp hat).2
  have hinv := h.table.learnEndpoint hs source
  have hmoved : (n.table.learnEndpoint id source).heap.lookup id = some (s.learn source) := by
    simp [SessionTable.learnEndpoint, AList.lookup_modify, hs]
  have hothers : ∀ id', id' ≠ id →
      (n.table.learnEndpoint id source).heap.lookup id' = n.table.heap.lookup id' := by
    intro id' hne
    simp [SessionTable.learnEndpoint, AList.lookup_modify, hne]
  have hendpoint := s.endpoint_learn source
  rcases hhandled with ⟨hno, hsends⟩ | ⟨packet, n₁, -, hsends₁, hlog, hsends⟩
  · have hheard : (n.paths id).directConfirmed = true → Heard n.log id source := by
      intro hconfirmed
      refine (hproof hconfirmed).resolve_left ?_
      rintro ⟨packet, hopens⟩
      exact hno ⟨packet, opens_learnEndpoint.mpr hopens⟩
    refine Proven.sends (h.setTable hinv (Nat.le_refl _) ?_) hrelay hsends
    intro id' s' addr hconfirmed hs' haddr
    by_cases hid : id' = id
    · rw [hid] at hconfirmed hs' ⊢
      rw [hmoved, Option.some.injEq] at hs'
      rw [← hs', hendpoint, Option.some.injEq] at haddr
      exact haddr ▸ hheard hconfirmed
    · exact h.heard hconfirmed (hothers id' hid ▸ hs') haddr
  · refine Proven.sends (h.deliver (s := s.learn source) ?_ ?_ hsends₁.confirmed hlog ?_ ?_ ?_)
      hrelay hsends
    · rw [hsends₁.table]
      exact hinv
    · rw [hsends₁.table]
      rfl
    · rw [hsends₁.table]
      exact hothers
    · rw [hsends₁.table]
      exact hmoved
    · intro addr haddr
      exact .inl (hendpoint.symm.trans haddr)

/-- The step leaves no confirmed session with an endpoint that it was not heard from: the roster
moves none of them there, a packet confirms a session from its own endpoint, and what a confirmed
session learns an address from is a packet. -/
def KeepsProof (n : WireNode) (op : Int × WireOp) : Prop :=
  match op.2 with
  | .upsert info => ∀ id s addr, n.table.sessionAt info.ula = some (id, s) →
      s.peerPubkey = info.wgPublicKey → (n.paths id).directConfirmed = true →
      s.endpointLearned = false → info.listenEndpoint = some addr → Heard n.log id addr
  | .datagram _ source bytes =>
    match n.table.deref (n.table.byEndpoint.lookup source) with
    | some (id, s) => ∀ packet addr, n.Opens id bytes packet → s.endpoint = some addr →
        addr = source ∨ Heard n.log id addr
    | none => ∀ ula id s, n.table.sessionAt ula = some (id, s) →
        (n.decapsulate id bytes).2.passedOver = false → (n.paths id).directConfirmed = true →
        (∃ packet, n.Opens id bytes packet) ∨ Heard n.log id source
  | _ => True

variable [Crates]

theorem Proven.step (h : Proven n) (hrelay : cfg.relay = some relay) {op : WireOp}
    (hkeeps : n.KeepsProof (now, op)) : Proven (n.step cfg now op) := by
  cases op with
  | upsert info => exact h.upsert hkeeps
  | remove ula => exact h.remove ula
  | appRoutes hostUla advertised => exact h.appRoutes hostUla advertised
  | relayWake ula => exact ⟨h.table, h.issued, h.heard, h.floored⟩
  | datagram order source bytes =>
    have hreceived := received cfg now n order source bytes
    generalize hn : n.udpRecv cfg now order source bytes = n' at hreceived
    show Proven (n.udpRecv cfg now order source bytes)
    rw [hn]
    cases hreceived with
    | @known id s _ hid hs hhandled =>
      have hfast := SessionTable.deref_eq_some_iff.mpr ⟨hid, hs⟩
      simp only [KeepsProof, hfast] at hkeeps
      refine h.handled hrelay ?_ hhandled
      intro packet s' addr hopens hs' _ haddr
      rw [hs, Option.some.injEq] at hs'
      rcases hkeeps packet addr hopens (hs' ▸ haddr) with rfl | hheard
      · exact .inl rfl
      · exact .inr hheard
    | @learned ula id s _ hunknown hat htaken hhandled =>
      simp only [KeepsProof, hunknown] at hkeeps
      exact h.handled_learned hrelay hat (hkeeps ula id s hat htaken) hhandled
    | unclaimed => exact h
  | relayed buf =>
    show Proven (n.handleInbound cfg now buf)
    rcases handled_handleInbound cfg now n buf with heq | ⟨id, payload, hhandled⟩
    · rw [heq]
      exact h
    · refine h.handled hrelay ?_ hhandled
      intro packet s addr _ _ hdirect
      simp at hdirect
  | tun packet answer held => exact h.sends hrelay (sends_tunRead ..)
  | tick order answers idle =>
    exact tick_induction (fun hsends h => h.sends hrelay hsends) (fun id h => h.downgradePath id)
      (fun h => ⟨h.table, h.issued, h.heard, h.floored⟩) order answers idle h
  | converge answer => exact h.sends hrelay (sends_converge ..)
  | punch order myPeerId event inits =>
    obtain ⟨sent, heq, hsent⟩ := punch_cases cfg n now order myPeerId event inits
    rw [heq]
    exact h.punched (fun f hf => (hsent f hf).1)

end WireNode

/-- Roster updates and datagrams that keep to proven endpoints leave the relay under every frame
that does not follow a packet from its own destination. -/
theorem frames_keep_relay_floor [Crates] [Tunnels] {cfg : WireConfig} {relay : RelayHandle}
    (hrelay : cfg.relay = some relay) {tr : List ((Int × WireOp) × Bool)} {n : WireNode}
    (h : (wireNode cfg).Run WireNode.KeepsProof tr n) : WireNode.RelayFloored n.log := by
  have hproven : n.Proven := by
    refine h.invariant (I := fun _ n => n.Proven) WireNode.proven_init ?_
    intro tr n op _ ih _ hkeeps
    exact ih.step hrelay hkeeps
  exact hproven.floored

section Example

attribute [local instance] referenceCrates referenceTunnels

def flooredConfig : WireConfig := ⟨some ⟨false⟩, wireUla⟩

def movedAddr : SocketAddr := .v4 ⟨198, 51, 100, 1⟩ 7

def repointedOps : List (Int × WireOp) :=
  [(1, .upsert wirePeer), (2, .datagram (fun _ => 0) wireAddr wireDatagram),
    (3, .upsert { wirePeer with listenEndpoint := some movedAddr }), (4, wireOutbound)]

def repointedNode : WireNode :=
  ((wireNode flooredConfig).exec [] (wireNode flooredConfig).init repointedOps).2

theorem repointed_session_leaves_floor :
    repointedNode.log = [.sent ⟨.wire, 0, [4], some movedAddr, []⟩,
      .delivered 2 0 (some wireAddr) wirePacket] ∧ ¬ WireNode.RelayFloored repointedNode.log := by
  have hlog : repointedNode.log = [.sent ⟨.wire, 0, [4], some movedAddr, []⟩,
      .delivered 2 0 (some wireAddr) wirePacket] := by decide
  refine ⟨hlog, ?_⟩
  rw [hlog]
  intro hfloored
  rcases hfloored.1 rfl with ⟨key, hkey⟩ | ⟨addr, haddr, -, now, packet, hmem⟩
  · simp at hkey
  · simp only [Option.some.injEq] at haddr
    simp [← haddr, movedAddr, wireAddr] at hmem

def upsertedNode : WireNode := WireNode.init.upsert wirePeer

def heardOps : List (Int × WireOp) :=
  [(1, .upsert wirePeer), (2, .datagram (fun _ => 0) wireAddr wireDatagram), (3, wireOutbound)]

theorem frames_keep_relay_floor_heard :
    WireNode.RelayFloored
      ((wireNode flooredConfig).exec [] (wireNode flooredConfig).init heardOps).2.log := by
  have hadmissible : (wireNode flooredConfig).Admissible WireNode.KeepsProof []
      (wireNode flooredConfig).init heardOps := by
    refine ⟨trivial, ?_, trivial, ?_, trivial, trivial, trivial⟩
    · intro id s addr hat
      have hnone : SessionTable.new.sessionAt wirePeer.ula = none := by decide
      rw [show (wireNode flooredConfig).init.table = SessionTable.new from rfl, hnone] at hat
      simp at hat
    · have hfast : (upsertedNode.table.deref (upsertedNode.table.byEndpoint.lookup wireAddr)) =
          some (0, ⟨1, wirePeer.ula, wirePeer.wgPublicKey, {wirePeer.ula}, some wireAddr, false⟩) := by
        decide
      show upsertedNode.KeepsProof (2, .datagram (fun _ => 0) wireAddr wireDatagram)
      simp only [WireNode.KeepsProof, hfast]
      intro packet addr _ haddr
      exact .inl (Option.some.inj haddr).symm
  exact frames_keep_relay_floor rfl (Machine.Run.exec .start hadmissible)

end Example

end ServiceMesh
