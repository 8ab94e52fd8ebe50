import ServiceMesh.RelayCustody
import ServiceMesh.RosterIntegrity

/-! What each operation does to the relay's sockets and connections, and what every run keeps
of them: a registered connection belongs to an open socket, and ids tell connections apart until
their counter wraps around. -/

namespace ServiceMesh

open StdNet (Ipv6Addr SocketAddr)

def isHandshake (payload : List UInt8) : Bool := payload.head?.any (fun t => 1 ≤ t && t ≤ 3)

inductive RelayMove (s : Mesh) : Op → Mesh → Prop
  | shed {op : Op} {s' : Mesh} (hsockets : s'.sockets = s.sockets)
      (hhandle : s.nextHandle ≤ s'.nextHandle)
      (h : s.coordinator.relay.Sheds s'.coordinator.relay) : RelayMove s op s'
  | carried (now : Nat) (wallMicros : Int) {handle : Nat} {buf : List UInt8} {socket : RelaySocket}
      {dst payload : List UInt8} {sent : List (Nat × List UInt8)} {s' : Mesh}
      (hsocket : s.sockets.lookup handle = some socket)
      (hframe : decodeRelayFrame buf = some (dst, payload))
      (hcan : s.coordinator.canRelay socket.pubkey dst = true)
      (hsockets : s'.sockets = s.sockets) (hhandle : s'.nextHandle = s.nextHandle)
      (h : s.coordinator.relay.Carries dst
        [(isHandshake payload, encodeRelayFrame socket.pubkey payload)] sent s'.coordinator.relay) :
      RelayMove s (.relayUplink now wallMicros handle buf) s'
  | connected (now : Nat) {pubkey : List UInt8} (lane : Option String)
      {sent : List (Nat × List UInt8)} {s' : Mesh} (hkey : pubkey.length = 32)
      (hsockets : s'.sockets = s.sockets.insert s.nextHandle
        ⟨pubkey, parseLane lane, s.coordinator.relay.nextId, s.coordinator.relay.channels.length⟩)
      (hhandle : s'.nextHandle = s.nextHandle + 1)
      (h : (s.coordinator.relay.connected pubkey (parseLane lane)
          (laneChannelCap (parseLane lane))).Carries pubkey
        ((s.coordinator.relay.spooled pubkey).map (fun sf => (sf.hiPrio, sf.frame))) sent
        s'.coordinator.relay) :
      RelayMove s (.relayConnect now pubkey lane) s'
  | disconnected {handle : Nat} {socket : RelaySocket} {s' : Mesh}
      (hsocket : s.sockets.lookup handle = some socket)
      (hsockets : s'.sockets = s.sockets.erase handle) (hhandle : s'.nextHandle = s.nextHandle)
      (h : s.coordinator.relay.Sheds s'.coordinator.relay)
      (hgone : ∀ conn, s'.coordinator.relay.connAt socket.pubkey socket.lane = some conn →
        conn.id ≠ socket.id) :
      RelayMove s (.relayDisconnect handle) s'
  | restarted {cfg : Config} {now : Nat} {file : Option Nat} {s' : Mesh}
      (hrelay : s'.coordinator.relay = RelayRegistry.new) (hsockets : s'.sockets = ∅) :
      RelayMove s (.restart cfg now file) s'

section

variable [Crates] {G : Uuid → Ipv6Addr → Prop}

namespace Coordinator

variable (c : Coordinator)

theorem applyPeerLeft_sheds (event : PeerLeft) : c.relay.Sheds (c.applyPeerLeft event).relay := by
  unfold applyPeerLeft
  split
  · exact .refl _
  · split
    · exact .refl _
    · exact c.relay.sheds_dropPubkey _

theorem evictStaleUlaHolder_sheds (amb : Ambient) (requestedUla : Option String) :
    c.relay.Sheds (c.evictStaleUlaHolder amb requestedUla).relay := by
  unfold evictStaleUlaHolder
  split
  · exact .refl _
  · exact applyPeerLeft_sheds (c.broadcast _) _

theorem Registers.sheds {c : Coordinator} {amb : Ambient} {req : RegisterRequest}
    {bearer : Option String} {observed : Option SocketAddr}
    {r : Coordinator × Except CoordinatorError (PeerEntry × RegisterOutcome)}
    (hr : c.Registers amb req bearer observed r) : c.relay.Sheds r.1.relay := by
  cases hr with
  | refused | exhausted | refreshed | moved => exact .refl _
  | turnedAway | joined => exact c.evictStaleUlaHolder_sheds amb req.requestedUla

theorem deregister_sheds (amb : Ambient) (id : Uuid) (reason : String) :
    c.relay.Sheds (c.deregister amb id reason).1.relay := by
  unfold deregister
  split
  · exact .refl _
  · exact c.applyPeerLeft_sheds _

theorem sweepOnce_sheds (amb : Ambient) : c.relay.Sheds (c.sweepOnce amb).relay := by
  refine c.sweepOnce_induction amb (P := fun c' => c.relay.Sheds c'.relay) ?_ ?_
  · exact c.relay.sheds_reapClosed.trans (RelayRegistry.sheds_reapExpiredSpool _ amb.now)
  · intro c' h id _
    exact h.trans (c'.deregister_sheds amb id _)

theorem relay_tryEmitHolepunchPairs (now : Int) (e : PeerEntry) :
    (c.tryEmitHolepunchPairs now e).relay = c.relay := by
  have hpair : ∀ (c : Coordinator) (b : PeerEntry),
      (tryEmitHolepunchPair now e c b).relay = c.relay := by
    intro c b
    unfold tryEmitHolepunchPair
    split
    · split <;> rfl
    · rfl
  unfold tryEmitHolepunchPairs
  generalize c.roster.values.filter (fun b => b.peerId != e.peerId) = candidates
  induction candidates generalizing c with
  | nil => rfl
  | cons b candidates ih => rw [List.foldl_cons, ih, hpair]

theorem relay_recordReports (id : Uuid) (req : HeartbeatRequest) :
    (c.recordReports id req).1.relay = c.relay := by
  simp only [recordReports, drainCommands, ackCommands, recordDataplaneHealth, recordPeerPaths]
  split <;> split <;> rfl

theorem relay_heartbeatHandler (amb : Ambient) (req : HeartbeatRequest)
    (observed : Option SocketAddr) : (c.heartbeatHandler amb req observed).1.relay = c.relay := by
  rcases c.heartbeatHandler_cases amb req observed with ⟨err, hsame⟩ | ⟨id, e, hid, he⟩
  · rw [hsame]
  · rw [heartbeatHandler_eq amb observed hid he]
    dsimp only
    rw [relay_recordReports, beat, relay_tryEmitHolepunchPairs]
    rfl

theorem wakeDestination_sheds (now : Nat) (wallMicros : Int) (myPubkey dst : List UInt8) :
    (c.wakeDestination now wallMicros myPubkey dst).relay.conns = c.relay.conns ∧
      (c.wakeDestination now wallMicros myPubkey dst).relay.spool = c.relay.spool ∧
      (c.wakeDestination now wallMicros myPubkey dst).relay.channels = c.relay.channels ∧
      (c.wakeDestination now wallMicros myPubkey dst).relay.nextId = c.relay.nextId := by
  have hslot : (c.relay.takeWakeSlot now dst).1.conns = c.relay.conns ∧
      (c.relay.takeWakeSlot now dst).1.spool = c.relay.spool ∧
      (c.relay.takeWakeSlot now dst).1.channels = c.relay.channels ∧
      (c.relay.takeWakeSlot now dst).1.nextId = c.relay.nextId := by
    unfold RelayRegistry.takeWakeSlot
    split
    · split <;> exact ⟨rfl, rfl, rfl, rfl⟩
    · exact ⟨rfl, rfl, rfl, rfl⟩
  unfold wakeDestination
  split
  · generalize c.relay.takeWakeSlot now dst = taken at hslot
    obtain ⟨relay, won⟩ := taken
    cases won <;> exact hslot
  · exact ⟨rfl, rfl, rfl, rfl⟩

variable {myPubkey : List UInt8}

theorem routeUplink_refused {c : Coordinator} (now : Nat) (wallMicros : Int) {buf : List UInt8}
    (h : ∀ dst payload, decodeRelayFrame buf = some (dst, payload) →
      c.canRelay myPubkey dst = false) : (c.routeUplink now wallMicros myPubkey buf).1 = c := by
  unfold routeUplink
  split
  · rfl
  · rename_i dst payload hframe
    rw [if_pos (by rw [h dst payload hframe]; rfl)]

theorem routeUplink_allowed {c : Coordinator} (now : Nat) (wallMicros : Int)
    {buf dst payload : List UInt8} (hframe : decodeRelayFrame buf = some (dst, payload))
    (hcan : c.canRelay myPubkey dst = true) :
    c.routeUplink now wallMicros myPubkey buf =
      match c.relay.forward now dst (encodeRelayFrame myPubkey payload) (isHandshake payload) with
      | (relay, true) =>
        (({ c with
            relay := relay
            relayForwardedBytes := c.relayForwardedBytes +
              (encodeRelayFrame myPubkey payload).length.toUInt64 } :
          Coordinator).noteRelayPairForwarded myPubkey dst
            (encodeRelayFrame myPubkey payload).length (isHandshake payload),
          some (encodeRelayFrame myPubkey payload))
      | (relay, false) =>
        (if payload.head? == some 1 && c.proactive then
            ({ c with relay := relay } : Coordinator).wakeDestination now wallMicros myPubkey dst
          else { c with relay := relay }, none) := by
  have hallowed : ¬ (!c.canRelay myPubkey dst) = true := by rw [hcan]; decide
  simp only [routeUplink, hframe, if_neg hallowed]
  rfl

omit [Crates] in
theorem noteRelayPairForwarded_relay (src dst : List UInt8) (bytes : Nat) (hiPrio : Bool) :
    (c.noteRelayPairForwarded src dst bytes hiPrio).relay = c.relay := by
  unfold noteRelayPairForwarded
  split <;> rfl

theorem routeUplink_relay {c : Coordinator} (now : Nat) (wallMicros : Int)
    {buf dst payload : List UInt8} (hframe : decodeRelayFrame buf = some (dst, payload))
    (hcan : c.canRelay myPubkey dst = true) :
    let after := (c.routeUplink now wallMicros myPubkey buf).1.relay
    let sent := (c.relay.forward now dst (encodeRelayFrame myPubkey payload)
      (isHandshake payload)).1
    after.conns = sent.conns ∧ after.spool = sent.spool ∧ after.channels = sent.channels ∧
      after.nextId = sent.nextId := by
  rw [routeUplink_allowed now wallMicros hframe hcan]
  generalize c.relay.forward now dst (encodeRelayFrame myPubkey payload)
    (isHandshake payload) = forwarded
  obtain ⟨relay, delivered⟩ := forwarded
  cases delivered with
  | true =>
    dsimp only
    rw [noteRelayPairForwarded_relay]
    exact ⟨rfl, rfl, rfl, rfl⟩
  | false =>
    dsimp only
    split
    · exact wakeDestination_sheds { c with relay := relay } now wallMicros myPubkey dst
    · exact ⟨rfl, rfl, rfl, rfl⟩

theorem routeUplink_carries {c : Coordinator} (now : Nat) (wallMicros : Int)
    {buf dst payload : List UInt8} (hframe : decodeRelayFrame buf = some (dst, payload))
    (hcan : c.canRelay myPubkey dst = true) :
    ∃ sent, c.relay.Carries dst [(isHandshake payload, encodeRelayFrame myPubkey payload)] sent
      (c.routeUplink now wallMicros myPubkey buf).1.relay := by
  obtain ⟨sent, hsent⟩ := c.relay.forward_carries now dst (encodeRelayFrame myPubkey payload)
    (isHandshake payload)
  obtain ⟨hconns, hspool, hchannels, hid⟩ := routeUplink_relay now wallMicros hframe hcan
  exact ⟨sent, hsent.congr hconns hspool hchannels hid⟩

end Coordinator

theorem Mesh.step_relay {s : Mesh} (h : s.coordinator.toRosterState.Inv G) (op : Op) :
    RelayMove s op (s.step op).1 := by
  have same : ∀ {s' : Mesh}, s'.sockets = s.sockets → s.nextHandle ≤ s'.nextHandle →
      s'.coordinator.relay = s.coordinator.relay → RelayMove s op s' := by
    intro s' hsockets hhandle hrelay
    refine .shed hsockets hhandle ?_
    rw [hrelay]
    exact .refl _
  cases op with
  | register amb req bearer observed =>
    have hr := (Coordinator.registers amb req bearer observed h).sheds
    rw [← Coordinator.registerHandler_fst] at hr
    exact .shed rfl (Nat.le_refl _) hr
  | heartbeat amb req observed =>
    exact same rfl (Nat.le_refl _) (s.coordinator.relay_heartbeatHandler amb req observed)
  | deregister amb peerId =>
    simp only [step, Coordinator.deregisterHandler]
    split
    · exact same rfl (Nat.le_refl _) rfl
    · exact .shed rfl (Nat.le_refl _) (s.coordinator.deregister_sheds amb _ _)
  | sweep amb => exact .shed rfl (Nat.le_refl _) (s.coordinator.sweepOnce_sheds amb)
  | putPolicy ifMatch newPolicy =>
    simp only [step, Coordinator.putPolicyHandler]
    split <;> exact same rfl (Nat.le_refl _) rfl
  | postDirect a b direct pinToRelay =>
    simp only [step, Coordinator.postDirectHandler]
    split <;> exact same rfl (Nat.le_refl _) rfl
  | postCommand peerId command =>
    simp only [step, Coordinator.postCommandHandler]
    split <;> exact same rfl (Nat.le_refl _) rfl
  | setProactive | closeStream => exact same rfl (Nat.le_refl _) rfl
  | openStream peerId =>
    cases peerId with
    | none => exact same rfl (Nat.le_succ _) rfl
    | some peerId =>
      simp only [step]
      split
      · exact same rfl (Nat.le_refl _) rfl
      · exact same rfl (Nat.le_succ _) rfl
  | pollStream handle =>
    simp only [step, pollStream]
    split <;> exact same rfl (Nat.le_refl _) rfl
  | reorderRoster entries =>
    simp only [step, reorderRoster]
    split <;> exact same rfl (Nat.le_refl _) rfl
  | relayConnect now pubkey lane =>
    simp only [step, relayConnect]
    split
    · rename_i hok
      obtain ⟨sent, hsent⟩ := s.coordinator.relay.register_carries now pubkey (parseLane lane)
        (laneChannelCap (parseLane lane))
      refine .connected now lane hok.1 ?_ rfl hsent
      rw [RelayRegistry.register_id]
    · exact same rfl (Nat.le_refl _) rfl
  | relayUplink now wallMicros handle buf =>
    cases hsocket : s.sockets.lookup handle with
    | none =>
      simp only [step, withSocket, hsocket]
      exact same rfl (Nat.le_refl _) rfl
    | some socket =>
      simp only [step, withSocket, hsocket]
      by_cases hok : ∃ dst payload, decodeRelayFrame buf = some (dst, payload) ∧
          s.coordinator.canRelay socket.pubkey dst = true
      · obtain ⟨dst, payload, hframe, hcan⟩ := hok
        obtain ⟨sent, hsent⟩ := Coordinator.routeUplink_carries now wallMicros hframe hcan
        exact .carried now wallMicros hsocket hframe hcan rfl rfl hsent
      · have hrefused : (s.coordinator.routeUplink now wallMicros socket.pubkey buf).1 =
            s.coordinator := by
          apply Coordinator.routeUplink_refused
          intro dst payload hframe
          exact Bool.eq_false_iff.mpr fun hcan => hok ⟨dst, payload, hframe, hcan⟩
        exact same rfl (Nat.le_refl _) (by rw [hrefused]; rfl)
  | relayDeliver handle =>
    simp only [step, withSocket]
    split
    · exact same rfl (Nat.le_refl _) rfl
    · exact .shed rfl (Nat.le_refl _) (s.coordinator.relay.sheds_deliver _)
  | relaySendEnd handle =>
    simp only [step, withSocket]
    split
    · exact same rfl (Nat.le_refl _) rfl
    · exact .shed rfl (Nat.le_refl _) (s.coordinator.relay.sheds_close _)
  | relayDisconnect handle =>
    cases hsocket : s.sockets.lookup handle with
    | none =>
      simp only [step, withSocket, hsocket]
      exact same rfl (Nat.le_refl _) rfl
    | some socket =>
      simp only [step, withSocket, hsocket]
      have hclosed := RelayRegistry.sheds_close (s.coordinator.relay.unregister socket.pubkey
        socket.lane socket.id) socket.tx
      refine .disconnected hsocket rfl rfl
        ((RelayRegistry.sheds_unregister _ _ _ _).trans hclosed) ?_
      intro conn hconn
      exact (RelayRegistry.connAt_unregister _ _ _ _ (hclosed.conn hconn)).2 rfl rfl
  | restart cfg now file => exact .restarted rfl rfl

end

structure Wired (s : Mesh) : Prop where
  conn : ∀ {pubkey lane conn}, s.coordinator.relay.connAt pubkey lane = some conn →
    ∃ handle, s.sockets.lookup handle = some ⟨pubkey, lane, conn.id, conn.tx⟩
  tx : ∀ {handle handle' socket socket'}, s.sockets.lookup handle = some socket →
    s.sockets.lookup handle' = some socket' → socket.tx = socket'.tx → handle = handle'
  channel : ∀ {handle socket}, s.sockets.lookup handle = some socket →
    socket.tx < s.coordinator.relay.channels.length
  handle : ∀ {handle socket}, s.sockets.lookup handle = some socket → handle < s.nextHandle
  key : ∀ {handle socket}, s.sockets.lookup handle = some socket → socket.pubkey.length = 32

namespace Wired

variable {s s' : Mesh}

theorem socket_eq (h : Wired s) {socket : RelaySocket} (hsocket : socket ∈ s.sockets.values)
    {pubkey : List UInt8} {lane : Lane} {conn : LaneConn}
    (hconn : s.coordinator.relay.connAt pubkey lane = some conn) (htx : conn.tx = socket.tx) :
    socket = ⟨pubkey, lane, conn.id, conn.tx⟩ := by
  obtain ⟨handle, hhandle⟩ := AList.mem_values_iff.mp hsocket
  obtain ⟨handle', hhandle'⟩ := h.conn hconn
  have hsame : handle = handle' := h.tx hhandle hhandle' htx.symm
  rw [hsame, hhandle'] at hhandle
  exact (Option.some.inj hhandle).symm

theorem nodup (h : Wired s) : (s.sockets.values.map RelaySocket.tx).Nodup :=
  AList.nodup_map_values _ h.tx

theorem shed (h : Wired s) (hsockets : s'.sockets = s.sockets)
    (hhandle : s.nextHandle ≤ s'.nextHandle)
    (hconn : ∀ {pubkey lane conn}, s'.coordinator.relay.connAt pubkey lane = some conn →
      s.coordinator.relay.connAt pubkey lane = some conn)
    (hchannels : s'.coordinator.relay.channels.length = s.coordinator.relay.channels.length) :
    Wired s' where
  conn := by
    intro pubkey lane conn hc
    rw [hsockets]
    exact h.conn (hconn hc)
  tx := by
    rw [hsockets]
    exact h.tx
  channel := by
    rw [hsockets, hchannels]
    exact h.channel
  handle := by
    rw [hsockets]
    exact fun hs => Nat.lt_of_lt_of_le (h.handle hs) hhandle
  key := by
    rw [hsockets]
    exact h.key

theorem connect (h : Wired s) {pubkey : List UInt8} {lane : Lane} {cap : Nat}
    (hkey : pubkey.length = 32)
    (hsockets : s'.sockets = s.sockets.insert s.nextHandle
      ⟨pubkey, lane, s.coordinator.relay.nextId, s.coordinator.relay.channels.length⟩)
    (hhandle : s'.nextHandle = s.nextHandle + 1)
    (hconns : s'.coordinator.relay.conns = (s.coordinator.relay.connected pubkey lane cap).conns)
    (hchannels : s'.coordinator.relay.channels.length =
      s.coordinator.relay.channels.length + 1) : Wired s' := by
  have hlook : ∀ {handle socket}, s'.sockets.lookup handle = some socket →
      (handle = s.nextHandle ∧ socket = ⟨pubkey, lane, s.coordinator.relay.nextId,
        s.coordinator.relay.channels.length⟩) ∨
      s.sockets.lookup handle = some socket := by
    intro handle socket hs
    rw [hsockets, AList.lookup_insert_eq_ite] at hs
    by_cases heq : handle = s.nextHandle
    · rw [if_pos heq] at hs
      exact .inl ⟨heq, (Option.some.inj hs).symm⟩
    · rw [if_neg heq] at hs
      exact .inr hs
  constructor
  case conn =>
    intro k l conn hc
    rw [RelayRegistry.connAt, hconns] at hc
    have hcases := s.coordinator.relay.connAt_connected pubkey lane cap k l
    rw [RelayRegistry.connAt, hc] at hcases
    by_cases hnew : k = pubkey ∧ l = lane
    · rw [if_pos hnew] at hcases
      refine ⟨s.nextHandle, ?_⟩
      rw [hsockets, AList.lookup_insert, hnew.1, hnew.2, Option.some.inj hcases]
    · rw [if_neg hnew] at hcases
      obtain ⟨handle, hs⟩ := h.conn hcases.symm
      have hne : handle ≠ s.nextHandle := Nat.ne_of_lt (h.handle hs)
      refine ⟨handle, ?_⟩
      rw [hsockets, AList.lookup_insert_ne hne]
      exact hs
  case tx =>
    intro handle handle' socket socket' hs hs' htx
    rcases hlook hs with ⟨rfl, rfl⟩ | hold
    · rcases hlook hs' with ⟨rfl, -⟩ | hold'
      · rfl
      · have hlt := h.channel hold'
        rw [← htx] at hlt
        exact absurd hlt (Nat.lt_irrefl _)
    · rcases hlook hs' with ⟨-, rfl⟩ | hold'
      · have hlt := h.channel hold
        rw [htx] at hlt
        exact absurd hlt (Nat.lt_irrefl _)
      · exact h.tx hold hold' htx
  case channel =>
    intro handle socket hs
    rw [hchannels]
    rcases hlook hs with ⟨-, rfl⟩ | hold
    · exact Nat.lt_succ_self _
    · exact Nat.lt_succ_of_lt (h.channel hold)
  case handle =>
    intro handle socket hs
    rw [hhandle]
    rcases hlook hs with ⟨rfl, -⟩ | hold
    · exact Nat.lt_succ_self _
    · exact Nat.lt_succ_of_lt (h.handle hold)
  case key =>
    intro handle socket hs
    rcases hlook hs with ⟨-, rfl⟩ | hold
    · exact hkey
    · exact h.key hold

theorem disconnect (h : Wired s) {handle : Nat} {socket : RelaySocket}
    (hsocket : s.sockets.lookup handle = some socket)
    (hsockets : s'.sockets = s.sockets.erase handle) (hhandle : s'.nextHandle = s.nextHandle)
    (hshed : s.coordinator.relay.Sheds s'.coordinator.relay)
    (hgone : ∀ conn, s'.coordinator.relay.connAt socket.pubkey socket.lane = some conn →
      conn.id ≠ socket.id) : Wired s' := by
  have hlook : ∀ {k x}, s'.sockets.lookup k = some x → s.sockets.lookup k = some x := by
    intro k x hx
    rw [hsockets, AList.lookup_erase_eq_ite] at hx
    by_cases hk : k = handle
    · rw [if_pos hk] at hx
      cases hx
    · rw [if_neg hk] at hx
      exact hx
  constructor
  case conn =>
    intro pubkey lane conn hc
    obtain ⟨k, hk⟩ := h.conn (hshed.conn hc)
    -- the slot of the closed socket was cleared, so the connection is another socket's
    have hne : k ≠ handle := by
      intro heq
      rw [heq, hsocket] at hk
      have hsame := Option.some.inj hk
      rw [hsame] at hgone
      exact hgone conn hc rfl
    refine ⟨k, ?_⟩
    rw [hsockets, AList.lookup_erase_eq_ite, if_neg hne]
    exact hk
  case tx => exact fun hs hs' htx => h.tx (hlook hs) (hlook hs') htx
  case channel =>
    intro k x hx
    rw [hshed.channels]
    exact h.channel (hlook hx)
  case handle =>
    intro k x hx
    rw [hhandle]
    exact h.handle (hlook hx)
  case key => exact fun hx => h.key (hlook hx)

theorem empty (hrelay : s.coordinator.relay = RelayRegistry.new) (hsockets : s.sockets = ∅) :
    Wired s := by
  have hnone : ∀ {handle socket}, s.sockets.lookup handle ≠ some socket := by
    intro handle socket hs
    rw [hsockets] at hs
    cases hs
  constructor
  case conn =>
    intro pubkey lane conn hc
    rw [hrelay] at hc
    cases hc
  case tx => exact fun hs => absurd hs hnone
  case channel => exact fun hs => absurd hs hnone
  case handle => exact fun hs => absurd hs hnone
  case key => exact fun hs => absurd hs hnone

theorem step (h : Wired s) {op : Op} (hmove : RelayMove s op s') : Wired s' := by
  cases hmove with
  | shed hsockets hhandle hshed => exact h.shed hsockets hhandle hshed.conn hshed.channels
  | carried now wallMicros hsocket hframe hcan hsockets hhandle hcarries =>
    have hconn : ∀ {pubkey lane conn}, s'.coordinator.relay.connAt pubkey lane = some conn →
        s.coordinator.relay.connAt pubkey lane = some conn := by
      intro pubkey lane conn hc
      rw [RelayRegistry.connAt, hcarries.conns] at hc
      exact hc
    exact h.shed hsockets (Nat.le_of_eq hhandle.symm) hconn hcarries.channels
  | connected now lane hkey hsockets hhandle hcarries =>
    refine h.connect hkey hsockets hhandle hcarries.conns ?_
    rw [hcarries.channels]
    exact List.length_append
  | disconnected hsocket hsockets hhandle hshed hgone =>
    exact h.disconnect hsocket hsockets hhandle hshed hgone
  | restarted hrelay hsockets => exact empty hrelay hsockets

end Wired

section

variable [Crates]

theorem wired_of_run {cfg : Config} {tr : List (Op × Reply)} {s : Mesh}
    (h : (mesh cfg).Reach tr s) : Wired s := by
  refine Machine.Run.invariant (I := fun _ s => Wired s) (Wired.empty rfl rfl) ?_ h
  intro tr s op hrun hw _ _
  exact hw.step (s.step_relay (inv_of_reach hrun) op)

def IdsLeft (s : Mesh) : Op → Prop
  | .relayConnect _ _ _ => s.coordinator.relay.nextId.toNat + 1 < 2 ^ 64
  | _ => True

structure Numbered (s : Mesh) : Prop where
  next : s.coordinator.relay.nextId.toNat = s.coordinator.relay.channels.length
  socket : ∀ {handle socket}, s.sockets.lookup handle = some socket → socket.id.toNat = socket.tx

omit [Crates] in
theorem Numbered.step {s s' : Mesh} (h : Numbered s) {op : Op} (hids : IdsLeft s op)
    (hmove : RelayMove s op s') : Numbered s' := by
  cases hmove with
  | shed hsockets _ hshed =>
    refine ⟨by rw [hshed.nextId, hshed.channels, h.next], ?_⟩
    rw [hsockets]
    exact h.socket
  | carried now wallMicros _ _ _ hsockets _ hcarries =>
    refine ⟨by rw [hcarries.nextId, hcarries.channels, h.next], ?_⟩
    rw [hsockets]
    exact h.socket
  | connected now lane hkey hsockets hhandle hcarries =>
    constructor
    · have hnext : (s.coordinator.relay.nextId + 1).toNat =
          s.coordinator.relay.nextId.toNat + 1 := by
        rw [UInt64.toNat_add]
        exact Nat.mod_eq_of_lt hids
      rw [hcarries.nextId, hcarries.channels]
      simp only [RelayRegistry.connected, List.length_append, List.length_singleton]
      rw [hnext, h.next]
    · intro handle socket hs
      rw [hsockets, AList.lookup_insert_eq_ite] at hs
      by_cases hnew : handle = s.nextHandle
      · rw [if_pos hnew] at hs
        rw [← Option.some.inj hs]
        exact h.next
      · rw [if_neg hnew] at hs
        exact h.socket hs
  | disconnected hsocket hsockets _ hshed _ =>
    refine ⟨by rw [hshed.nextId, hshed.channels, h.next], ?_⟩
    intro k x hx
    rw [hsockets, AList.lookup_erase_eq_ite] at hx
    split at hx
    · cases hx
    · exact h.socket hx
  | restarted hrelay hsockets =>
    refine ⟨by rw [hrelay]; rfl, ?_⟩
    intro handle socket hs
    rw [hsockets] at hs
    cases hs

theorem numbered_of_run {cfg : Config} {tr : List (Op × Reply)} {s : Mesh}
    (h : (mesh cfg).Run IdsLeft tr s) : Numbered s := by
  refine Machine.Run.invariant (I := fun _ s => Numbered s) ⟨rfl, ?_⟩ ?_ h
  · intro handle socket hs
    cases hs
  · intro tr s op hrun hnum _ hids
    exact hnum.step hids (s.step_relay (inv_of_run hrun) op)

omit [Crates] in
theorem RelayRegistry.connAt_unregister_of_ne {r : RelayRegistry} {pubkey : List UInt8}
    {lane : Lane} {id : UInt64} (h : ∀ conn, r.connAt pubkey lane = some conn → conn.id ≠ id)
    (k : List UInt8) (l : Lane) : (r.unregister pubkey lane id).connAt k l = r.connAt k l := by
  unfold unregister
  cases hc : r.conns.lookup pubkey with
  | none => rfl
  | some c =>
    have hmatch : (c.slot lane).any (fun conn => conn.id == id) = false := by
      cases hslot : c.slot lane with
      | none => rfl
      | some conn =>
        have hne := h conn (by rw [connAt, hc]; exact hslot)
        simpa using hne
    simp only [hmatch, Bool.false_eq_true, if_false]
    by_cases hempty : c.isEmpty = true
    · -- an entry without connections is removed
      rw [if_pos hempty, connAt, AList.lookup_erase_eq_ite]
      by_cases hk : k = pubkey
      · rw [if_pos hk, connAt, hk, hc, Option.bind_some]
        have hnone : c.hi = none ∧ c.lo = none := by
          simpa [PeerConns.isEmpty] using hempty
        cases l with
        | hi => exact hnone.1.symm
        | lo => exact hnone.2.symm
      · rw [if_neg hk]
        rfl
    · rw [if_neg hempty, connAt, AList.lookup_modify]
      by_cases hk : k = pubkey
      · rw [if_pos hk, connAt, hk, hc]
        rfl
      · rw [if_neg hk]
        rfl

theorem unregister_superseded {s : Mesh} (hw : Wired s) (hnum : Numbered s) {handle : Nat}
    {socket : RelaySocket} (hsocket : s.sockets.lookup handle = some socket)
    (hsuperseded : s.coordinator.relay.connAt socket.pubkey socket.lane ≠
      some ⟨socket.id, socket.tx⟩) (k : List UInt8) (l : Lane) :
    (s.step (.relayDisconnect handle)).1.coordinator.relay.connAt k l =
      s.coordinator.relay.connAt k l := by
  have hother : ∀ conn, s.coordinator.relay.connAt socket.pubkey socket.lane = some conn →
      conn.id ≠ socket.id := by
    intro conn hconn hid
    obtain ⟨handle', hsocket'⟩ := hw.conn hconn
    have htx : conn.tx = socket.tx := by
      have hn : conn.id.toNat = conn.tx := hnum.socket hsocket'
      have hn' := hnum.socket hsocket
      rw [hid] at hn
      omega
    apply hsuperseded
    rw [hconn, ← hid, ← htx]
  have hclose : ∀ r : RelayRegistry, (r.close socket.tx).connAt k l = r.connAt k l := by
    intro r
    unfold RelayRegistry.close
    split <;> rfl
  simp only [Mesh.step, Mesh.withSocket, hsocket]
  rw [hclose]
  exact RelayRegistry.connAt_unregister_of_ne hother k l

end

end ServiceMesh
