import ServiceMesh.Transmit

/-! A node that has declared itself relay-only. Its frames stay off the socket for as long as no
data packet reaches it over the socket and no directive makes it punch. -/

namespace ServiceMesh

open StdNet (Ipv6Addr SocketAddr)

namespace WireNode

def OffSocket (log : List WireEvent) : Prop :=
  ∀ f, WireEvent.sent f ∈ log → f.udp = none ∧ ∃ key, f.relayed = [key]

structure RelayBound (n : WireNode) : Prop where
  unconfirmed : ∀ id, (n.paths id).directConfirmed = false
  log : OffSocket n.log

variable {cfg : WireConfig} {now : Int} {n n' : WireNode}

theorem relayBound_init : RelayBound init := by
  refine ⟨fun _ => rfl, ?_⟩
  intro f hf
  simp [init] at hf

theorem RelayBound.sends (h : RelayBound n) {relay : RelayHandle} (hrelay : cfg.relay = some relay)
    (honly : relay.relayOnly = true) (hs : Sends cfg n n') : RelayBound n' := by
  obtain ⟨sent, hlog, hsent⟩ := hs.log
  refine ⟨fun id => (hs.confirmed id).trans (h.unconfirmed id), ?_⟩
  intro f hf
  rw [hlog, List.mem_append] at hf
  rcases hf with hf | hf
  · obtain ⟨g, hg, heq⟩ := List.mem_map.mp hf
    obtain rfl := WireEvent.sent.inj heq
    obtain ⟨s, -, hfollows⟩ := hsent g hg
    have hunconfirmed := h.unconfirmed g.session
    -- of the ways to send, only those that keep to the relay are open to this node
    cases hsite : g.site <;> rw [hsite] at hfollows
    · rcases hfollows with ⟨hconfirmed, -⟩ | ⟨-, relay', hrelay', hqueued, hudp⟩ | ⟨hno, -⟩
      · rw [hunconfirmed] at hconfirmed
        exact absurd hconfirmed Bool.false_ne_true
      · rw [hrelay, Option.some.injEq] at hrelay'
        rw [← hrelay', honly] at hudp
        exact ⟨hudp.resolve_right (fun hdirect => Bool.noConfusion hdirect.1), _, hqueued⟩
      · rw [hrelay] at hno
        exact absurd hno (Option.some_ne_none relay)
    · exact ⟨hfollows.1, _, hfollows.2⟩
    · obtain ⟨-, -, -, relay', hrelay', hdirect⟩ := hfollows
      rw [hrelay, Option.some.injEq] at hrelay'
      rw [← hrelay', honly] at hdirect
      exact Bool.noConfusion hdirect
    · exact hfollows.elim
  · exact h.log f hf

theorem RelayBound.downgradePath (h : RelayBound n) (id : SessionId) :
    RelayBound (n.downgradePath now id) := by
  refine ⟨?_, h.log⟩
  intro id'
  by_cases hid : id' = id
  · simp [WireNode.downgradePath, WireNode.setPath, WireNode.setTable, hid]
  · simp [WireNode.downgradePath, WireNode.setPath, WireNode.setTable, Function.update_of_ne hid,
      h.unconfirmed id']

variable [Tunnels]

theorem RelayBound.handled (h : RelayBound n) {relay : RelayHandle}
    (hrelay : cfg.relay = some relay) (honly : relay.relayOnly = true) {id : SessionId}
    {source : Option SocketAddr} {datagram : List UInt8}
    (hsource : ∀ packet, n.Opens id datagram packet → source = none)
    (hhandled : Handled cfg now id source datagram n n') : RelayBound n' := by
  rcases hhandled with ⟨-, hsends⟩ | ⟨packet, n₁, hopens, hsends₁, -, hsends⟩
  · exact h.sends hrelay honly hsends
  · have hn₁ := h.sends hrelay honly hsends₁
    have hdelivered : RelayBound (n₁.deliver now id source packet) := by
      rw [hsource packet hopens]
      refine ⟨hn₁.unconfirmed, ?_⟩
      intro f hf
      rcases List.mem_cons.mp hf with heq | hf
      · exact absurd heq (by simp)
      · exact hn₁.log f hf
    exact hdelivered.sends hrelay honly hsends

/-- No data packet comes in over the socket, and no directive has a plan and frames to punch
with. -/
def StaysOffSocket [Crates] (n : WireNode) (op : Int × WireOp) : Prop :=
  match op.2 with
  | .datagram _ source bytes =>
    match n.table.deref (n.table.byEndpoint.lookup source) with
    | some (id, _) => ∀ packet, ¬ n.Opens id bytes packet
    | none => ∀ ula id s packet, n.table.sessionAt ula = some (id, s) → ¬ n.Opens id bytes packet
  | .punch order myPeerId event inits => n.table.planPunch order myPeerId event = none ∨
      ∀ bytes, .sendToPeer bytes ∉ inits.take punchBurst
  | _ => True

theorem RelayBound.step [Crates] (h : RelayBound n) {relay : RelayHandle}
    (hrelay : cfg.relay = some relay) (honly : relay.relayOnly = true) {op : WireOp}
    (hstays : n.StaysOffSocket (now, op)) : RelayBound (n.step cfg now op) := by
  cases op with
  | upsert info => exact ⟨h.unconfirmed, h.log⟩
  | remove ula => exact ⟨h.unconfirmed, h.log⟩
  | appRoutes hostUla advertised => exact ⟨h.unconfirmed, h.log⟩
  | relayWake ula => exact ⟨h.unconfirmed, h.log⟩
  | datagram order source bytes =>
    have hreceived := received cfg now n order source bytes
    show RelayBound (n.udpRecv cfg now order source bytes)
    generalize n.udpRecv cfg now order source bytes = n' at hreceived
    cases hreceived with
    | @known id s _ hid hs hhandled =>
      have hfast := SessionTable.deref_eq_some_iff.mpr ⟨hid, hs⟩
      simp only [StaysOffSocket, hfast] at hstays
      refine h.handled hrelay honly ?_ hhandled
      intro packet hopens
      exact absurd hopens (hstays packet)
    | @learned ula id s _ hunknown hat htaken hhandled =>
      simp only [StaysOffSocket, hunknown] at hstays
      have hlearned : RelayBound (n.setTable (n.table.learnEndpoint id source)) :=
        ⟨h.unconfirmed, h.log⟩
      refine hlearned.handled hrelay honly ?_ hhandled
      intro packet hopens
      exact absurd (opens_learnEndpoint.mp hopens) (hstays ula id s packet hat)
    | unclaimed => exact h
  | relayed buf =>
    show RelayBound (n.handleInbound cfg now buf)
    rcases handled_handleInbound cfg now n buf with heq | ⟨id, payload, hhandled⟩
    · rw [heq]
      exact h
    · exact h.handled hrelay honly (fun _ _ => rfl) hhandled
  | tun packet answer held => exact h.sends hrelay honly (sends_tunRead ..)
  | tick order answers idle =>
    exact tick_induction (fun hsends h => h.sends hrelay honly hsends)
      (fun id h => h.downgradePath id) (fun h => ⟨h.unconfirmed, h.log⟩) order answers idle h
  | converge answer => exact h.sends hrelay honly (sends_converge ..)
  | punch order myPeerId event inits =>
    obtain ⟨sent, heq, hsent⟩ := punch_cases cfg n now order myPeerId event inits
    have hnone : sent = [] := by
      refine List.eq_nil_iff_forall_not_mem.mpr ?_
      intro f hf
      obtain ⟨-, hplan, hsealed⟩ := hsent f hf
      rcases hstays with hno | hno
      · exact hplan hno
      · exact hno f.bytes hsealed
    rw [heq, hnone]
    exact ⟨h.unconfirmed, h.log⟩

end WireNode

/-- A relay-only node that hears no data packet on its socket, and is made to punch by no
directive, sends every frame over the relay and none over the socket. -/
theorem relay_only_node_stays_off_socket [Crates] [Tunnels] {cfg : WireConfig} {relay : RelayHandle}
    (hrelay : cfg.relay = some relay) (honly : relay.relayOnly = true)
    {tr : List ((Int × WireOp) × Bool)} {n : WireNode}
    (h : (wireNode cfg).Run WireNode.StaysOffSocket tr n) : WireNode.OffSocket n.log := by
  have hbound : n.RelayBound := by
    refine h.invariant (I := fun _ n => n.RelayBound) WireNode.relayBound_init ?_
    intro tr n op _ ih _ hstays
    exact ih.step hrelay honly hstays
  exact hbound.log

section Example

attribute [local instance] referenceCrates referenceTunnels

def relayOnlyConfig : WireConfig := ⟨some ⟨true⟩, wireUla⟩

def relayOnlyRun (ops : List (Int × WireOp)) : WireNode :=
  ((wireNode relayOnlyConfig).exec [] (wireNode relayOnlyConfig).init ops).2

def wireDirective : HolePunchInitiate := ⟨Uuid.toString 9, Uuid.toString 1, "192.0.2.1:7", 0⟩

/-- A packet over the socket confirms the direct path and the answer takes it; a directive has the
node punch. -/
theorem relay_only_node_dials :
    (relayOnlyRun [(1, .upsert wirePeer), (2, .datagram (fun _ => 0) wireAddr wireDatagram),
        (3, wireOutbound)]).log =
      [.sent ⟨.wire, 0, [4], some wireAddr, []⟩, .delivered 2 0 (some wireAddr) wirePacket] ∧
    (relayOnlyRun [(1, .upsert wirePeer),
        (2, .punch (fun _ => 0) 9 wireDirective [.sendToPeer [1]])]).log =
      [.sent ⟨.punch, 0, [1], some wireAddr, [wirePeer.wgPublicKey]⟩] := by
  refine ⟨by decide +kernel, by decide +kernel⟩

theorem relay_only_node_stays_off_socket_outbound :
    WireNode.OffSocket (relayOnlyRun [(1, .upsert wirePeer), (2, wireOutbound)]).log := by
  have hadmissible : (wireNode relayOnlyConfig).Admissible WireNode.StaysOffSocket []
      (wireNode relayOnlyConfig).init [(1, .upsert wirePeer), (2, wireOutbound)] :=
    ⟨trivial, trivial, trivial, trivial, trivial⟩
  have hrelay : relayOnlyConfig.relay = some ⟨true⟩ := rfl
  exact relay_only_node_stays_off_socket hrelay rfl (Machine.Run.exec .start hadmissible)

end Example

end ServiceMesh
