import ServiceMesh.RelayDelivery
import ServiceMesh.Departures

/-! When the relay wakes a destination: only for a handshake initiation that reached no lane, and
once per cool-down. Nothing but a wake arms a cool-down, and only a restart forgets one. -/

namespace ServiceMesh

open StdNet (Ipv6Addr SocketAddr)

namespace RelayRegistry

variable (r : RelayRegistry)

theorem wakes_forward (now : Nat) (pubkey frame : List UInt8) (hiPrio : Bool) :
    (r.forward now pubkey frame hiPrio).1.wakeCooldown = r.wakeCooldown := by
  have hf := r.forward_forwarded now pubkey frame hiPrio
  generalize r.forward now pubkey frame hiPrio = out at hf
  cases hf with
  | sent | full | held => rfl

theorem wakes_register (now : Nat) (pubkey : List UInt8) (lane : Lane) (cap : Nat) :
    (r.register now pubkey lane cap).1.wakeCooldown = r.wakeCooldown := by
  have hflush : ∀ (held : List SpooledFrame) (r : RelayRegistry),
      (r.flush now pubkey held).wakeCooldown = r.wakeCooldown := by
    intro held
    induction held with
    | nil => exact fun _ => rfl
    | cons sf held ih =>
      intro r
      rw [flush, List.foldl_cons]
      by_cases hstale : now - sf.at_ > spoolTtl
      · rw [if_pos hstale]
        exact ih r
      · rw [if_neg hstale]
        exact (ih _).trans (r.wakes_forward now pubkey sf.frame sf.hiPrio)
  rw [register_eq]
  exact hflush _ _

theorem wakes_close (tx : Nat) : (r.close tx).wakeCooldown = r.wakeCooldown := by
  unfold close
  split <;> rfl

theorem wakes_deliver (tx : Nat) : (r.deliver tx).1.wakeCooldown = r.wakeCooldown := by
  unfold deliver
  split <;> rfl

theorem takeWakeSlot_cases (now : Nat) (dst : List UInt8) :
    r.takeWakeSlot now dst = (r, false) ∨
      (r.takeWakeSlot now dst = ({ r with wakeCooldown := r.wakeCooldown.insert dst now }, true) ∧
        ∀ last ∈ r.wakeCooldown.lookup dst, last + ServiceMesh.wakeCooldown ≤ now) := by
  have hpos : 0 < ServiceMesh.wakeCooldown := by decide
  unfold takeWakeSlot
  cases hlast : r.wakeCooldown.lookup dst with
  | none =>
    refine .inr ⟨rfl, ?_⟩
    intro last h
    cases h
  | some last =>
    dsimp only
    by_cases hold : now - last ≥ ServiceMesh.wakeCooldown
    · rw [if_pos hold]
      refine .inr ⟨rfl, ?_⟩
      intro last' h
      rw [← Option.some.inj h]
      omega
    · rw [if_neg hold]
      exact .inl rfl

end RelayRegistry

section

variable [Crates] {G : Uuid → Ipv6Addr → Prop}

namespace Coordinator

theorem wakes_deregister (c : Coordinator) (amb : Ambient) (id : Uuid) (reason : String) :
    (c.deregister amb id reason).1.relay.wakeCooldown = c.relay.wakeCooldown := by
  unfold deregister
  split
  · rfl
  · exact c.wakeCooldown_applyPeerLeft _

theorem wakes_registerHandler {c : Coordinator} (h : c.toRosterState.Inv G) (amb : Ambient)
    (req : RegisterRequest) (bearer : Option String) (observed : Option SocketAddr) :
    (c.registerHandler amb req bearer observed).1.relay.wakeCooldown = c.relay.wakeCooldown := by
  have hevict : (c.evictStaleUlaHolder amb req.requestedUla).relay.wakeCooldown =
      c.relay.wakeCooldown := by
    unfold evictStaleUlaHolder
    split
    · rfl
    · exact wakeCooldown_applyPeerLeft (c.broadcast _) _
  have hr := registers amb req bearer observed h
  rw [registerHandler_fst]
  generalize c.registerAuthenticated amb req bearer observed = r at hr
  cases hr with
  | refused | exhausted | refreshed | moved => rfl
  | turnedAway | joined => exact hevict

theorem wakes_sweepOnce (c : Coordinator) (amb : Ambient) :
    (c.sweepOnce amb).relay.wakeCooldown = c.relay.wakeCooldown := by
  refine c.sweepOnce_induction amb
    (P := fun c' => c'.relay.wakeCooldown = c.relay.wakeCooldown) rfl ?_
  intro c' h id _
  exact (c'.wakes_deregister amb id _).trans h

end Coordinator

theorem Mesh.wakes_step {s : Mesh} (h : s.coordinator.toRosterState.Inv G) {op : Op}
    (hlive : op.Live) (hop : op.isUplink = false) :
    (s.step op).1.coordinator.relay.wakeCooldown = s.coordinator.relay.wakeCooldown := by
  have hleaves := s.leaves op
  generalize (s.step op).1.coordinator = c at hleaves
  cases hleaves with
  | same | policy | flags | proactive | command | reorder => rfl
  | register amb req bearer observed =>
    exact Coordinator.wakes_registerHandler h amb req bearer observed
  | heartbeat amb req observed =>
    exact congrArg RelayRegistry.wakeCooldown
      (s.coordinator.relay_heartbeatHandler amb req observed)
  | deregister amb hid => exact s.coordinator.wakes_deregister amb _ _
  | sweep amb => exact s.coordinator.wakes_sweepOnce amb
  | relay hrelay =>
    cases hrelay with
    | connect now lane hreg => exact RelayRegistry.wakes_register _ now _ _ _
    | deliver => exact RelayRegistry.wakes_deliver _ _
    | sendEnd => exact RelayRegistry.wakes_close _ _
    | disconnect =>
      dsimp only
      rw [RelayRegistry.wakes_close, RelayRegistry.conns_unregister]
  | uplink => simp [Op.isUplink] at hop
  | restart => exact hlive.elim

structure Wakes (c : Coordinator) (now : Nat) (wallMicros : Int) (src buf dst : List UInt8)
    (rw : RelayWake) : Prop where
  decoded : ∃ payload, decodeRelayFrame buf = some (dst, payload) ∧ payload.head? = some 1 ∧
    (c.relay.forward now dst (encodeRelayFrame src payload) (isHandshake payload)).2 = false
  gate : c.proactive = true
  allowed : c.canRelay src dst = true
  recipient : ∃ id e, c.byPubkey.lookup dst = some id ∧ c.roster.lookup id = some e ∧
    rw.recipientPeerId = id.toString
  source : ∃ id e, c.byPubkey.lookup src = some id ∧ c.roster.lookup id = some e ∧
    rw.sourceUla = e.ula.toString
  stamp : rw.timestampMicros = wallMicros
  rested : ∀ last ∈ c.relay.wakeCooldown.lookup dst, last + ServiceMesh.wakeCooldown ≤ now

namespace Coordinator

theorem routeUplink_wakes (c : Coordinator) (now : Nat) (wallMicros : Int) (src buf : List UInt8) :
    ((c.routeUplink now wallMicros src buf).1.broadcaster = c.broadcaster ∧
      (c.routeUplink now wallMicros src buf).1.relay.wakeCooldown = c.relay.wakeCooldown) ∨
    ∃ dst rw, Wakes c now wallMicros src buf dst rw ∧
      (c.routeUplink now wallMicros src buf).1.broadcaster = c.broadcaster ++ [.relayWake rw] ∧
      (c.routeUplink now wallMicros src buf).1.relay.wakeCooldown =
        c.relay.wakeCooldown.insert dst now := by
  by_cases hok : ∃ dst payload, decodeRelayFrame buf = some (dst, payload) ∧
      c.canRelay src dst = true
  · obtain ⟨dst, payload, hframe, hcan⟩ := hok
    have hkept := c.relay.wakes_forward now dst (encodeRelayFrame src payload) (isHandshake payload)
    rw [routeUplink_allowed now wallMicros hframe hcan]
    cases hforward : c.relay.forward now dst (encodeRelayFrame src payload)
        (isHandshake payload) with
    | mk relay delivered =>
      rw [hforward] at hkept
      cases delivered with
      | true =>
        left
        dsimp only
        rw [noteRelayPairForwarded_relay]
        refine ⟨?_, hkept⟩
        unfold noteRelayPairForwarded
        split <;> rfl
      | false =>
        dsimp only
        by_cases hwake : (payload.head? == some 1 && c.proactive) = true
        · rw [if_pos hwake]
          obtain ⟨hinit, hgate⟩ := Bool.and_eq_true_iff.mp hwake
          obtain ⟨a, b, p, q, hp, ha, hq, hb, -⟩ := canRelay_eq_true hcan
          have hdst : ({ c with relay := relay } : Coordinator).peerForPubkey dst =
              some (p, a.ula) := by
            simp only [peerForPubkey, hp, ha]
            rfl
          have hsrc : ({ c with relay := relay } : Coordinator).peerForPubkey src =
              some (q, b.ula) := by
            simp only [peerForPubkey, hq, hb]
            rfl
          simp only [wakeDestination, hdst, hsrc]
          rcases relay.takeWakeSlot_cases now dst with hslot | ⟨hslot, hrested⟩
          · left
            rw [hslot]
            exact ⟨rfl, hkept⟩
          · right
            rw [hslot]
            refine ⟨dst, _, ?_, rfl, ?_⟩
            · rw [hkept] at hrested
              exact ⟨⟨payload, hframe, by simpa using hinit, by rw [hforward]⟩, hgate, hcan,
                ⟨p, a, hp, ha, rfl⟩, ⟨q, b, hq, hb, rfl⟩, rfl, hrested⟩
            · dsimp only
              rw [hkept]
        · left
          rw [if_neg hwake]
          exact ⟨rfl, hkept⟩
  · left
    rw [routeUplink_refused now wallMicros]
    · exact ⟨rfl, rfl⟩
    · intro dst payload hframe
      exact Bool.eq_false_iff.mpr fun hcan => hok ⟨dst, payload, hframe, hcan⟩

end Coordinator

theorem Wakes.unforwarded {c : Coordinator} {now : Nat} {wallMicros : Int}
    {src buf dst : List UInt8} {rw : RelayWake} (h : Wakes c now wallMicros src buf dst rw)
    (tx : Nat) : c.relay.entered (c.routeUplink now wallMicros src buf).1.relay tx = [] := by
  obtain ⟨payload, hframe, -, hlost⟩ := h.decoded
  obtain ⟨-, -, hchannels, -⟩ := Coordinator.routeUplink_relay now wallMicros hframe h.allowed
  have hsame : (c.relay.forward now dst (encodeRelayFrame src payload)
      (isHandshake payload)).1.channels = c.relay.channels := by
    have hf := c.relay.forward_forwarded now dst (encodeRelayFrame src payload)
      (isHandshake payload)
    generalize c.relay.forward now dst (encodeRelayFrame src payload) (isHandshake payload) = out
      at hf hlost
    cases hf with
    | sent => cases hlost
    | full | held => rfl
  have hqueue : (c.routeUplink now wallMicros src buf).1.relay.queue tx = c.relay.queue tx := by
    rw [RelayRegistry.queue, hchannels, hsame]
    rfl
  rw [RelayRegistry.entered, hqueue]
  exact List.drop_length

def PeerEvent.isWake : PeerEvent → Bool
  | .relayWake _ => true
  | _ => false

namespace Mesh

def broadcasts (s : Mesh) (op : Op) : List PeerEvent :=
  (s.step op).1.coordinator.broadcaster.drop s.coordinator.broadcaster.length

def wakes (s : Mesh) (op : Op) : List (Nat × List UInt8) :=
  match op with
  | .relayUplink now _ _ buf =>
    match decodeRelayFrame buf with
    | some (dst, _) => ((s.broadcasts op).filter PeerEvent.isWake).map (fun _ => (now, dst))
    | none => []
  | _ => []

def WakeGrounds (s : Mesh) (op : Op) (rw : RelayWake) : Prop :=
  ∃ now wallMicros handle buf socket dst payload, op = .relayUplink now wallMicros handle buf ∧
    s.sockets.lookup handle = some socket ∧ decodeRelayFrame buf = some (dst, payload) ∧
    payload.head? = some 1 ∧ s.coordinator.proactive = true ∧
    s.coordinator.canRelay socket.pubkey dst = true ∧
    (∀ tx, s.coordinator.relay.entered (s.step op).1.coordinator.relay tx = []) ∧
    (∃ id e, s.coordinator.byPubkey.lookup dst = some id ∧
      s.coordinator.roster.lookup id = some e ∧ e.wgPublicKey = dst ∧
      rw.recipientPeerId = id.toString) ∧
    ∃ id e, s.coordinator.byPubkey.lookup socket.pubkey = some id ∧
      s.coordinator.roster.lookup id = some e ∧ e.wgPublicKey = socket.pubkey ∧
      rw.sourceUla = e.ula.toString

theorem uplink_wakes (s : Mesh) (now : Nat) (wallMicros : Int) (handle : Nat) (buf : List UInt8) :
    (s.broadcasts (.relayUplink now wallMicros handle buf) = [] ∧
      (s.step (.relayUplink now wallMicros handle buf)).1.coordinator.relay.wakeCooldown =
        s.coordinator.relay.wakeCooldown) ∨
    ∃ socket dst rw, s.sockets.lookup handle = some socket ∧
      Wakes s.coordinator now wallMicros socket.pubkey buf dst rw ∧
      s.broadcasts (.relayUplink now wallMicros handle buf) = [.relayWake rw] ∧
      (s.step (.relayUplink now wallMicros handle buf)).1.coordinator.relay =
        (s.coordinator.routeUplink now wallMicros socket.pubkey buf).1.relay ∧
      (s.step (.relayUplink now wallMicros handle buf)).1.coordinator.relay.wakeCooldown =
        s.coordinator.relay.wakeCooldown.insert dst now := by
  cases hsocket : s.sockets.lookup handle with
  | none =>
    left
    have hstep : (s.step (.relayUplink now wallMicros handle buf)).1 = s := by
      simp only [step, withSocket, hsocket]
    rw [broadcasts, hstep]
    exact ⟨List.drop_length, rfl⟩
  | some socket =>
    have hstep : (s.step (.relayUplink now wallMicros handle buf)).1.coordinator =
        (s.coordinator.routeUplink now wallMicros socket.pubkey buf).1 := by
      simp only [step, withSocket, hsocket]
      rfl
    rw [broadcasts, hstep]
    rcases s.coordinator.routeUplink_wakes now wallMicros socket.pubkey buf with
      ⟨hlog, hkept⟩ | ⟨dst, rw, hwakes, hlog, harmed⟩
    · left
      rw [hlog]
      exact ⟨List.drop_length, hkept⟩
    · right
      refine ⟨socket, dst, rw, rfl, hwakes, ?_, rfl, harmed⟩
      rw [hlog, List.drop_left]

theorem wakeGrounds_of_mem {s : Mesh} (h : s.coordinator.toRosterState.Inv G) {op : Op}
    (hlive : op.Live) {rw : RelayWake} (hmem : .relayWake rw ∈ s.broadcasts op) :
    s.WakeGrounds op rw := by
  cases hop : op.isUplink with
  | false =>
    obtain ⟨new, hnew, hall⟩ := step_unwoken h hlive hop
    rw [broadcasts, hnew, List.drop_left] at hmem
    rcases hall _ hmem with hquote | ⟨_, _, _, _, _, _, _, hp, hpunch, -⟩
    · exact hquote.elim
    · cases hpunch
  | true =>
    cases op with
    | relayUplink now wallMicros handle buf =>
      rcases s.uplink_wakes now wallMicros handle buf with
        ⟨hnone, -⟩ | ⟨socket, dst, rw', hsocket, hwakes, hone, hrelay, -⟩
      · rw [hnone] at hmem
        cases hmem
      · rw [hone] at hmem
        obtain rfl := PeerEvent.relayWake.inj (List.mem_singleton.mp hmem)
        obtain ⟨payload, hframe, hinit, -⟩ := hwakes.decoded
        obtain ⟨p, a, hp, ha, hrecipient⟩ := hwakes.recipient
        obtain ⟨q, b, hq, hb, hsource⟩ := hwakes.source
        obtain ⟨a', ha', hdst⟩ := h.index.mp hp
        obtain ⟨b', hb', hsrc⟩ := h.index.mp hq
        refine ⟨now, wallMicros, handle, buf, socket, dst, payload, rfl, hsocket, hframe, hinit,
          hwakes.gate, hwakes.allowed, ?_, ⟨p, a', hp, ha', hdst, hrecipient⟩,
          ⟨q, b', hq, hb', hsrc, ?_⟩⟩
        · intro tx
          rw [hrelay]
          exact hwakes.unforwarded tx
        · obtain rfl : b = b' := Option.some.inj (hb.symm.trans hb')
          exact hsource
    | _ => simp [Op.isUplink] at hop

end Mesh

structure Armed (s : Mesh) (log : List (Nat × List UInt8)) : Prop where
  held : ∀ w ∈ log, ∃ last, s.coordinator.relay.wakeCooldown.lookup w.2 = some last ∧ w.1 ≤ last
  apart : log.Pairwise (fun w w' => w.2 = w'.2 → w.1 + wakeCooldown ≤ w'.1)

theorem Armed.step {s : Mesh} (hinv : s.coordinator.toRosterState.Inv G)
    {log : List (Nat × List UInt8)} (h : Armed s log) {op : Op} (hlive : op.Live) :
    Armed (s.step op).1 (log ++ s.wakes op) := by
  have kept : s.wakes op = [] → (s.step op).1.coordinator.relay.wakeCooldown =
      s.coordinator.relay.wakeCooldown → Armed (s.step op).1 (log ++ s.wakes op) := by
    intro hnone hkept
    rw [hnone, List.append_nil]
    refine ⟨?_, h.apart⟩
    rw [hkept]
    exact h.held
  cases hop : op.isUplink with
  | false =>
    refine kept ?_ (Mesh.wakes_step hinv hlive hop)
    cases op with
    | relayUplink => simp [Op.isUplink] at hop
    | _ => rfl
  | true =>
    cases op with
    | relayUplink now wallMicros handle buf =>
      rcases s.uplink_wakes now wallMicros handle buf with
        ⟨hnone, hkept⟩ | ⟨socket, dst, rw, hsocket, hwakes, hone, -, harmed⟩
      · refine kept ?_ hkept
        simp only [Mesh.wakes, hnone]
        split <;> rfl
      · obtain ⟨payload, hframe, -⟩ := hwakes.decoded
        have hnoted : s.wakes (.relayUplink now wallMicros handle buf) = [(now, dst)] := by
          simp only [Mesh.wakes, hframe, hone]
          rfl
        have hbefore : ∀ w ∈ log, w.2 = dst → w.1 + wakeCooldown ≤ now := by
          intro w hw hdst
          obtain ⟨last, hlast, hle⟩ := h.held w hw
          rw [hdst] at hlast
          have hrested := hwakes.rested last hlast
          omega
        rw [hnoted]
        constructor
        · intro w hw
          rw [harmed]
          by_cases hdst : w.2 = dst
          · refine ⟨now, by rw [hdst, AList.lookup_insert], ?_⟩
            rcases List.mem_append.mp hw with hold | hnew
            · have hle := hbefore w hold hdst
              omega
            · rw [List.mem_singleton.mp hnew]
          · rw [AList.lookup_insert_ne hdst]
            rcases List.mem_append.mp hw with hold | hnew
            · exact h.held w hold
            · rw [List.mem_singleton.mp hnew] at hdst
              exact absurd rfl hdst
        · rw [List.pairwise_append]
          refine ⟨h.apart, List.pairwise_singleton _ _, ?_⟩
          intro w hw w' hw'
          rw [List.mem_singleton.mp hw']
          exact hbefore w hw
    | _ => simp [Op.isUplink] at hop

/-- In every run without restarts a wake is broadcast only by an uplink with grounds for it, two
wakes for a key are a cool-down apart, and an uplink that wakes nobody arms no cool-down. -/
theorem relay_wake_discipline (cfg : Config) {tr : List (Op × Reply)}
    {x : Mesh × List (Nat × List UInt8)}
    (h : ((mesh cfg).observed Mesh.wakes).Run (fun _ op => op.Live) tr x) :
    (∀ op, op.Live → ∀ rw, .relayWake rw ∈ x.1.broadcasts op → x.1.WakeGrounds op rw) ∧
    x.2.Pairwise (fun w w' => w.2 = w'.2 → w.1 + wakeCooldown ≤ w'.1) ∧
    ∀ now wallMicros handle buf,
      (∀ rw, .relayWake rw ∉ x.1.broadcasts (.relayUplink now wallMicros handle buf)) →
      (x.1.step (.relayUplink now wallMicros handle buf)).1.coordinator.relay.wakeCooldown =
        x.1.coordinator.relay.wakeCooldown := by
  refine ⟨?_, ?_, ?_⟩
  · intro op hlive rw hmem
    exact Mesh.wakeGrounds_of_mem (inv_of_reach h.unobserved) hlive hmem
  · have harmed : Armed x.1 x.2 := by
      refine Machine.Run.invariant (I := fun _ x => Armed x.1 x.2) ?_ ?_ h
      · constructor
        · intro w hw
          cases hw
        · exact .nil
      · intro tr x op hrun harmed _ hlive
        exact harmed.step (inv_of_reach hrun.unobserved) hlive
    exact harmed.apart
  · intro now wallMicros handle buf hnone
    rcases x.1.uplink_wakes now wallMicros handle buf with ⟨-, hkept⟩ | ⟨_, _, rw, -, -, hone, -⟩
    · exact hkept
    · apply absurd _ (hnone rw)
      rw [hone]
      exact List.mem_singleton.mpr rfl

instance : (op : Op) → Decidable op.Live
  | .restart .. => .isFalse (fun h => h)
  | .register .. | .heartbeat .. | .deregister .. | .sweep .. | .putPolicy .. | .postDirect ..
  | .setProactive .. | .postCommand .. | .openStream .. | .pollStream .. | .closeStream ..
  | .relayConnect .. | .relayUplink .. | .relayDeliver .. | .relaySendEnd ..
  | .relayDisconnect .. | .reorderRoster .. => .isTrue trivial

instance (cfg : Config) (tr : List (Op × Reply)) (op : Op) :
    Decidable (((mesh cfg).observed Mesh.wakes).admits tr op) :=
  inferInstanceAs (Decidable (op.Fresh tr))

end

section Example

attribute [local instance] referenceCrates

def rewakeOps : List Op :=
  [relayNode 1 keyOne "fd5a:1f02:1::1", relayNode 2 keyTwo "fd5a:1f02:2::1",
    .relayConnect 0 (keyBytes 1) (some "hi"),
    .relayUplink 0 0 0 (encodeRelayFrame (keyBytes 2) [1]),
    .relayUplink (secs 4) 0 0 (encodeRelayFrame (keyBytes 2) [1]),
    .relayUplink (secs 5) 0 0 (encodeRelayFrame (keyBytes 2) [1])]

def wakeRun : List (Op × Reply) × Mesh × List (Nat × List UInt8) :=
  ((mesh eagerConfig).observed Mesh.wakes).exec [] (Mesh.init eagerConfig, []) rewakeOps

theorem relay_wake_discipline_retries :
    wakeRun.2.2 = [(0, keyBytes 2), (secs 5, keyBytes 2)] ∧
      wakeRun.2.2.Pairwise (fun w w' => w.2 = w'.2 → w.1 + wakeCooldown ≤ w'.1) := by
  have hall : ((mesh eagerConfig).observed Mesh.wakes).Admissible (fun _ op => op.Live) []
        (Mesh.init eagerConfig, []) rewakeOps ∧
      wakeRun.2.2 = [(0, keyBytes 2), (secs 5, keyBytes 2)] := by decide +kernel
  obtain ⟨hadm, hlog⟩ := hall
  have hrun : ((mesh eagerConfig).observed Mesh.wakes).Run (fun _ op => op.Live) wakeRun.1
      wakeRun.2 := Machine.Run.start.exec hadm
  exact ⟨hlog, (relay_wake_discipline eagerConfig hrun).2.1⟩

end Example

end ServiceMesh
