import ServiceMesh.RelayMoves

/-! Delivery over the relay. An observer notes every uplink with the verdict of the policy and
every frame that enters a channel; what enters is accounted for by what was let through. -/

namespace ServiceMesh

inductive RelayEvent
  | uplink (src dst payload : List UInt8) (allowed : Bool)
  | handoff (socket : RelaySocket) (frame : List UInt8)
deriving DecidableEq

def RelayRegistry.entered (r r' : RelayRegistry) (tx : Nat) : List (List UInt8) :=
  (r'.queue tx).drop (r.queue tx).length

def grantedTo (dst : List UInt8) (log : List RelayEvent) : List (List UInt8) :=
  log.filterMap fun
    | .uplink src dst' payload true =>
      if dst' = dst then some (encodeRelayFrame src payload) else none
    | _ => none

def handedTo (dst : List UInt8) (log : List RelayEvent) : List (List UInt8) :=
  log.filterMap fun
    | .handoff socket frame => if socket.pubkey = dst then some frame else none
    | _ => none

namespace Mesh

def uplinks (s : Mesh) : Op → List RelayEvent
  | .relayUplink _ _ handle buf =>
    match s.sockets.lookup handle, decodeRelayFrame buf with
    | some socket, some (dst, payload) =>
      [.uplink socket.pubkey dst payload (s.coordinator.canRelay socket.pubkey dst)]
    | _, _ => []
  | _ => []

def handoffs (s s' : Mesh) : List RelayEvent :=
  s'.sockets.values.flatMap fun socket =>
    (s.coordinator.relay.entered s'.coordinator.relay socket.tx).map (.handoff socket)

def relayEvents [Crates] (s : Mesh) (op : Op) : List RelayEvent :=
  s.uplinks op ++ s.handoffs (s.step op).1

end Mesh

structure Sends (s s' : Mesh) (pubkey : List UInt8) (new : List (List UInt8))
    (sent : List (Nat × List UInt8)) : Prop where
  queue : ∀ tx, s'.coordinator.relay.queue tx =
    s.coordinator.relay.queue tx ++ (sent.filter (fun x => x.1 = tx)).map Prod.snd
  conserved : (sent.map Prod.snd ++
      (s'.coordinator.relay.spooled pubkey).map SpooledFrame.frame).Subperm
    ((s.coordinator.relay.spooled pubkey).map SpooledFrame.frame ++ new)
  others : ∀ k, k ≠ pubkey → s'.coordinator.relay.spooled k = s.coordinator.relay.spooled k
  lane : ∀ x ∈ sent, ∃ lane conn, s'.coordinator.relay.connAt pubkey lane = some conn ∧
    conn.tx = x.1 ∧ (lane = .hi → isHandshake (x.2.drop 32) = true)

namespace Sends

variable {s s' : Mesh} {pubkey : List UInt8} {new : List (List UInt8)}
  {sent : List (Nat × List UInt8)}

theorem entered (h : Sends s s' pubkey new sent) (tx : Nat) :
    s.coordinator.relay.entered s'.coordinator.relay tx =
      (sent.filter (fun x => x.1 = tx)).map Prod.snd := by
  rw [RelayRegistry.entered, h.queue, List.drop_left]

theorem mem_entered (h : Sends s s' pubkey new sent) {tx : Nat} {frame : List UInt8}
    (hframe : frame ∈ s.coordinator.relay.entered s'.coordinator.relay tx) : (tx, frame) ∈ sent := by
  rw [h.entered] at hframe
  obtain ⟨x, hx, rfl⟩ := List.mem_map.mp hframe
  obtain ⟨hmem, htx⟩ := List.mem_filter.mp hx
  rw [← of_decide_eq_true htx]
  exact hmem

end Sends

theorem entered_of_sheds {r r' : RelayRegistry} (h : r.Sheds r') (tx : Nat) :
    r.entered r' tx = [] :=
  List.drop_eq_nil_of_le (h.queue tx)

theorem handoffs_eq_nil {s s' : Mesh}
    (h : ∀ tx, s.coordinator.relay.entered s'.coordinator.relay tx = []) : s.handoffs s' = [] := by
  rw [Mesh.handoffs, List.flatMap_eq_nil_iff]
  intro socket _
  rw [h]
  rfl

theorem mem_handoffs {s s' : Mesh} {event : RelayEvent} (h : event ∈ s.handoffs s') :
    ∃ socket ∈ s'.sockets.values, ∃ frame, event = .handoff socket frame ∧
      frame ∈ s.coordinator.relay.entered s'.coordinator.relay socket.tx := by
  obtain ⟨socket, hsocket, hevent⟩ := List.mem_flatMap.mp h
  obtain ⟨frame, hframe, rfl⟩ := List.mem_map.mp hevent
  exact ⟨socket, hsocket, frame, rfl, hframe⟩

theorem handedTo_append (dst : List UInt8) (log log' : List RelayEvent) :
    handedTo dst (log ++ log') = handedTo dst log ++ handedTo dst log' :=
  List.filterMap_append

theorem grantedTo_append (dst : List UInt8) (log log' : List RelayEvent) :
    grantedTo dst (log ++ log') = grantedTo dst log ++ grantedTo dst log' :=
  List.filterMap_append

theorem handedTo_uplinks (s : Mesh) (op : Op) (dst : List UInt8) : handedTo dst (s.uplinks op) = [] := by
  cases op with
  | relayUplink now wallMicros handle buf =>
    simp only [Mesh.uplinks]
    split <;> rfl
  | _ => rfl

theorem grantedTo_handoffs (s s' : Mesh) (dst : List UInt8) : grantedTo dst (s.handoffs s') = [] := by
  rw [grantedTo, List.filterMap_eq_nil_iff]
  intro event hevent
  obtain ⟨socket, -, frame, rfl, -⟩ := mem_handoffs hevent
  rfl

theorem handedTo_handoffs (s s' : Mesh) (dst : List UInt8) :
    handedTo dst (s.handoffs s') =
      (s'.sockets.values.filter (fun socket => socket.pubkey = dst)).flatMap
        (fun socket => s.coordinator.relay.entered s'.coordinator.relay socket.tx) := by
  rw [Mesh.handoffs]
  induction s'.sockets.values with
  | nil => rfl
  | cons socket sockets ih =>
    rw [List.flatMap_cons, handedTo_append, ih]
    by_cases hdst : socket.pubkey = dst
    · simp [handedTo, List.filterMap_map, hdst]
    · simp [handedTo, List.filterMap_map, hdst]

theorem Sends.handedTo_subperm {s s' : Mesh} {pubkey : List UInt8} {new : List (List UInt8)}
    {sent : List (Nat × List UInt8)} (h : Sends s s' pubkey new sent) (hw : Wired s')
    (dst : List UInt8) : (handedTo dst (s.handoffs s')).Subperm (sent.map Prod.snd) := by
  have hnodup : ((s'.sockets.values.filter (fun socket => socket.pubkey = dst)).map
      RelaySocket.tx).Nodup := hw.nodup.sublist (List.filter_sublist.map _)
  have hsplit := List.flatMap_filter_subperm hnodup sent
  rw [List.flatMap_map] at hsplit
  rw [handedTo_handoffs]
  simp only [h.entered]
  exact hsplit

theorem Sends.handedTo_eq_nil {s s' : Mesh} {pubkey : List UInt8} {new : List (List UInt8)}
    {sent : List (Nat × List UInt8)} (h : Sends s s' pubkey new sent) (hw : Wired s')
    {dst : List UInt8} (hdst : dst ≠ pubkey) : handedTo dst (s.handoffs s') = [] := by
  rw [handedTo_handoffs, List.flatMap_eq_nil_iff]
  intro socket hsocket
  obtain ⟨hmem, hkey⟩ := List.mem_filter.mp hsocket
  rw [List.eq_nil_iff_forall_not_mem]
  intro frame hframe
  obtain ⟨lane, conn, hconn, htx, -⟩ := h.lane _ (h.mem_entered hframe)
  have hsame := hw.socket_eq hmem hconn htx
  rw [hsame] at hkey
  exact hdst (of_decide_eq_true hkey).symm

structure Ledger (s : Mesh) (log : List RelayEvent) : Prop where
  covered : ∀ dst, (handedTo dst log ++
    (s.coordinator.relay.spooled dst).map SpooledFrame.frame).Subperm (grantedTo dst log)
  source : ∀ {src dst payload allowed}, .uplink src dst payload allowed ∈ log → src.length = 32
  lane : ∀ {socket frame}, .handoff socket frame ∈ log → socket.lane = .hi →
    isHandshake (frame.drop 32) = true
  cap : ∀ dst, (s.coordinator.relay.spooled dst).length ≤ spoolCap
  prio : ∀ dst, ∀ sf ∈ s.coordinator.relay.spooled dst, sf.hiPrio = isHandshake (sf.frame.drop 32)

namespace Ledger

variable {s s' : Mesh} {log : List RelayEvent}

theorem source_uplinks (hw : Wired s) {op : Op} {src dst payload : List UInt8} {allowed : Bool}
    (h : .uplink src dst payload allowed ∈ s.uplinks op) : src.length = 32 := by
  cases op with
  | relayUplink now wallMicros handle buf =>
    simp only [Mesh.uplinks] at h
    split at h
    · rename_i socket dst' payload' hsocket _
      have heq := List.mem_singleton.mp h
      obtain ⟨rfl, -⟩ := RelayEvent.uplink.inj heq
      exact hw.key hsocket
    · cases h
  | _ => cases h

theorem source_step (hw : Wired s) (h : Ledger s log) {op : Op} {src dst payload : List UInt8}
    {allowed : Bool}
    (hmem : .uplink src dst payload allowed ∈ log ++ (s.uplinks op ++ s.handoffs s')) :
    src.length = 32 := by
  rcases List.mem_append.mp hmem with hold | hmem
  · exact h.source hold
  · rcases List.mem_append.mp hmem with hup | hoff
    · exact source_uplinks hw hup
    · obtain ⟨socket, -, frame, heq, -⟩ := mem_handoffs hoff
      cases heq

theorem handoff_step {op : Op} {socket : RelaySocket} {frame : List UInt8}
    (hmem : .handoff socket frame ∈ log ++ (s.uplinks op ++ s.handoffs s')) :
    .handoff socket frame ∈ log ∨ (socket ∈ s'.sockets.values ∧
      frame ∈ s.coordinator.relay.entered s'.coordinator.relay socket.tx) := by
  rcases List.mem_append.mp hmem with hold | hmem
  · exact .inl hold
  · rcases List.mem_append.mp hmem with hup | hoff
    · cases op with
      | relayUplink now wallMicros handle buf =>
        simp only [Mesh.uplinks] at hup
        split at hup
        · cases List.mem_singleton.mp hup
        · cases hup
      | _ => cases hup
    · obtain ⟨socket', hsocket, frame', heq, hframe⟩ := mem_handoffs hoff
      obtain ⟨rfl, rfl⟩ := RelayEvent.handoff.inj heq
      exact .inr ⟨hsocket, hframe⟩

theorem shed (hw : Wired s) (h : Ledger s log) (op : Op)
    (hentered : ∀ tx, s.coordinator.relay.entered s'.coordinator.relay tx = [])
    (hspooled : ∀ dst, (s'.coordinator.relay.spooled dst).Sublist
      (s.coordinator.relay.spooled dst)) :
    Ledger s' (log ++ (s.uplinks op ++ s.handoffs s')) where
  covered := by
    intro dst
    have hfewer := (List.subperm_append_left (handedTo dst log)).mpr
      ((hspooled dst).map SpooledFrame.frame).subperm
    rw [handoffs_eq_nil hentered, List.append_nil, handedTo_append, handedTo_uplinks,
      List.append_nil, grantedTo_append]
    exact (hfewer.trans (h.covered dst)).trans (List.sublist_append_left _ _).subperm
  source := source_step hw h
  lane := by
    intro socket frame hmem
    rcases handoff_step hmem with hold | ⟨-, hframe⟩
    · exact h.lane hold
    · rw [hentered] at hframe
      cases hframe
  cap := fun dst => (hspooled dst).length_le.trans (h.cap dst)
  prio := fun dst sf hsf => h.prio dst sf ((hspooled dst).subset hsf)

theorem sends (hw : Wired s) (hw' : Wired s') (h : Ledger s log) {op : Op} {pubkey : List UInt8}
    {new : List (List UInt8)} {sent : List (Nat × List UInt8)}
    (hsends : Sends s s' pubkey new sent)
    (hnew : new.Subperm (grantedTo pubkey (s.uplinks op)))
    (hcap : (s'.coordinator.relay.spooled pubkey).length ≤ spoolCap)
    (hprio : ∀ sf ∈ s'.coordinator.relay.spooled pubkey,
      sf.hiPrio = isHandshake (sf.frame.drop 32)) :
    Ledger s' (log ++ (s.uplinks op ++ s.handoffs s')) where
  covered := by
    intro dst
    rw [handedTo_append, handedTo_append, handedTo_uplinks, List.nil_append, grantedTo_append,
      grantedTo_append, grantedTo_handoffs, List.append_nil]
    by_cases hdst : dst = pubkey
    · subst hdst
      have hstep := (List.subperm_append_right
        ((s'.coordinator.relay.spooled dst).map SpooledFrame.frame)).mpr
        (hsends.handedTo_subperm hw' dst)
      have hall := (List.subperm_append_left (handedTo dst log)).mpr
        (hstep.trans hsends.conserved)
      rw [← List.append_assoc, ← List.append_assoc] at hall
      exact hall.trans ((h.covered dst).append hnew)
    · rw [hsends.handedTo_eq_nil hw' hdst, List.append_nil, hsends.others dst hdst]
      exact (h.covered dst).trans (List.sublist_append_left _ _).subperm
  source := source_step hw h
  lane := by
    intro socket frame hmem
    rcases handoff_step hmem with hold | ⟨hsocket, hframe⟩
    · exact h.lane hold
    · obtain ⟨lane, conn, hconn, htx, hlane⟩ := hsends.lane _ (hsends.mem_entered hframe)
      have hsame := hw'.socket_eq hsocket hconn htx
      intro hhi
      apply hlane
      rw [hsame] at hhi
      exact hhi
  cap := by
    intro dst
    by_cases hdst : dst = pubkey
    · rw [hdst]
      exact hcap
    · rw [hsends.others dst hdst]
      exact h.cap dst
  prio := by
    intro dst
    by_cases hdst : dst = pubkey
    · rw [hdst]
      exact hprio
    · rw [hsends.others dst hdst]
      exact h.prio dst

end Ledger

theorem drop_encodeRelayFrame {src : List UInt8} (h : src.length = 32) (payload : List UInt8) :
    (encodeRelayFrame src payload).drop 32 = payload := by
  rw [encodeRelayFrame, ← h, List.drop_left]

theorem head_of_isHandshake {payload : List UInt8} (h : isHandshake payload = true) :
    payload.head? ∈ [some 1, some 2, some 3] := by
  cases hhead : payload.head? with
  | none => simp [isHandshake, hhead] at h
  | some t =>
    have hbounds : 1 ≤ t ∧ t ≤ 3 := by simpa [isHandshake, hhead] using h
    have hlow : 1 ≤ t.toNat := UInt8.le_iff_toNat_le.mp hbounds.1
    have hhigh : t.toNat ≤ 3 := UInt8.le_iff_toNat_le.mp hbounds.2
    have hval : t.toNat = 1 ∨ t.toNat = 2 ∨ t.toNat = 3 := by omega
    rcases hval with hval | hval | hval
    · obtain rfl : t = 1 := UInt8.toNat.inj hval
      decide
    · obtain rfl : t = 2 := UInt8.toNat.inj hval
      decide
    · obtain rfl : t = 3 := UInt8.toNat.inj hval
      decide

namespace RelayRegistry.Carries

variable {s s' : Mesh}

theorem sends_uplink {dst payload : List UInt8} {socket : RelaySocket}
    {sent : List (Nat × List UInt8)} (hkey : socket.pubkey.length = 32)
    (h : s.coordinator.relay.Carries dst
      [(isHandshake payload, encodeRelayFrame socket.pubkey payload)] sent s'.coordinator.relay) :
    Sends s s' dst [encodeRelayFrame socket.pubkey payload] sent where
  queue := h.queue
  conserved := h.conserved
  others := h.others
  lane := by
    intro x hx
    obtain ⟨hiPrio, lane, conn, hoffered, hconn, htx, hlane⟩ := h.lane x hx
    rw [connAt, ← h.conns] at hconn
    refine ⟨lane, conn, hconn, htx, ?_⟩
    obtain ⟨rfl, hframe⟩ := Prod.mk.inj (List.mem_singleton.mp hoffered)
    rw [hframe, drop_encodeRelayFrame hkey]
    exact hlane

theorem sends_flush {pubkey : List UInt8} {lane : Lane} {cap : Nat}
    {sent : List (Nat × List UInt8)}
    (hprio : ∀ sf ∈ s.coordinator.relay.spooled pubkey,
      sf.hiPrio = isHandshake (sf.frame.drop 32))
    (h : (s.coordinator.relay.connected pubkey lane cap).Carries pubkey
      ((s.coordinator.relay.spooled pubkey).map (fun sf => (sf.hiPrio, sf.frame))) sent
      s'.coordinator.relay) :
    Sends s s' pubkey [] sent where
  queue := by
    intro tx
    rw [h.queue, queue_connected]
  conserved := by
    have hall := h.conserved
    rw [spooled_connected, if_pos rfl, List.map_nil, List.nil_append, List.map_map] at hall
    rw [List.append_nil]
    exact hall
  others := by
    intro k hk
    rw [h.others k hk, spooled_connected, if_neg hk]
  lane := by
    intro x hx
    obtain ⟨hiPrio, lane, conn, hoffered, hconn, htx, hlane⟩ := h.lane x hx
    rw [connAt, ← h.conns] at hconn
    refine ⟨lane, conn, hconn, htx, ?_⟩
    obtain ⟨sf, hsf, heq⟩ := List.mem_map.mp hoffered
    obtain ⟨rfl, hframe⟩ := Prod.mk.inj heq
    rw [← hframe, ← hprio sf hsf]
    exact hlane

end RelayRegistry.Carries

theorem Ledger.step {s s' : Mesh} {log : List RelayEvent} (hw : Wired s) (h : Ledger s log)
    {op : Op} (hmove : RelayMove s op s') :
    Ledger s' (log ++ (s.uplinks op ++ s.handoffs s')) := by
  have hw' := hw.step hmove
  cases hmove with
  | shed hsockets hhandle hshed => exact h.shed hw op (entered_of_sheds hshed) hshed.spooled
  | @carried now wallMicros handle buf socket dst payload sent _ hsocket hframe hcan _ _ hcarries =>
    have hkey := hw.key hsocket
    refine h.sends hw hw' (hcarries.sends_uplink hkey) ?_ (hcarries.cap (h.cap dst)) ?_
    · have hup : s.uplinks (.relayUplink now wallMicros handle buf) =
          [.uplink socket.pubkey dst payload true] := by
        simp only [Mesh.uplinks, hsocket, hframe, hcan]
      have hgranted : grantedTo dst [.uplink socket.pubkey dst payload true] =
          [encodeRelayFrame socket.pubkey payload] := by
        simp [grantedTo]
      rw [hup, hgranted]
    · intro sf hsf
      rcases hcarries.spool sf hsf with hold | hoffered
      · exact h.prio dst sf hold
      · obtain ⟨hprio, hsent⟩ := Prod.mk.inj (List.mem_singleton.mp hoffered)
        rw [hprio, hsent, drop_encodeRelayFrame hkey]
  | @connected now pubkey lane sent _ hkey _ _ hcarries =>
    have hprio := h.prio pubkey
    have hempty : (s.coordinator.relay.connected pubkey (parseLane lane)
        (laneChannelCap (parseLane lane))).spooled pubkey = [] := by
      rw [RelayRegistry.spooled_connected, if_pos rfl]
    refine h.sends hw hw' (hcarries.sends_flush hprio) List.nil_subperm ?_ ?_
    · apply hcarries.cap
      rw [hempty]
      exact Nat.zero_le _
    · intro sf hsf
      rcases hcarries.spool sf hsf with hold | hoffered
      · rw [hempty] at hold
        cases hold
      · obtain ⟨old, hold, heq⟩ := List.mem_map.mp hoffered
        obtain ⟨hflag, hframe⟩ := Prod.mk.inj heq
        rw [← hflag, ← hframe]
        exact hprio old hold
  | disconnected hsocket hsockets hhandle hshed hgone =>
    exact h.shed hw _ (entered_of_sheds hshed) hshed.spooled
  | restarted hrelay hsockets =>
    refine h.shed hw _ ?_ ?_
    · intro tx
      rw [hrelay]
      exact List.drop_nil
    · intro dst
      rw [hrelay]
      exact List.nil_sublist _

section

variable [Crates]

theorem ledger_of_run {cfg : Config} {tr : List (Op × Reply)} {x : Mesh × List RelayEvent}
    (h : ((mesh cfg).observed Mesh.relayEvents).Reach tr x) : Ledger x.1 x.2 := by
  refine Machine.Run.invariant (I := fun _ x => Ledger x.1 x.2) ?_ ?_ h
  · constructor
    case covered => exact fun dst => List.Subperm.refl _
    case source =>
      intro src dst payload allowed hmem
      cases hmem
    case lane =>
      intro socket frame hmem
      cases hmem
    case cap => exact fun dst => Nat.zero_le _
    case prio =>
      intro dst sf hsf
      cases hsf
  · intro tr x op hrun hledger _ _
    have hreach := hrun.unobserved
    exact hledger.step (wired_of_run hreach) (x.1.step_relay (inv_of_reach hreach) op)

theorem entered_noted {s : Mesh} (hw : Wired s) {op : Op} (hmove : RelayMove s op (s.step op).1)
    (hprio : ∀ dst, ∀ sf ∈ s.coordinator.relay.spooled dst,
      sf.hiPrio = isHandshake (sf.frame.drop 32)) {tx : Nat} {frame : List UInt8}
    (h : frame ∈ s.coordinator.relay.entered (s.step op).1.coordinator.relay tx) :
    ∃ socket, socket.tx = tx ∧ .handoff socket frame ∈ s.relayEvents op := by
  have hw' := hw.step hmove
  have noted : ∀ {pubkey new sent}, Sends s (s.step op).1 pubkey new sent →
      ∃ socket, socket.tx = tx ∧ .handoff socket frame ∈ s.relayEvents op := by
    intro pubkey new sent hsends
    obtain ⟨lane, conn, hconn, htx, -⟩ := hsends.lane _ (hsends.mem_entered h)
    obtain ⟨handle, hsocket⟩ := hw'.conn hconn
    refine ⟨⟨pubkey, lane, conn.id, conn.tx⟩, htx, List.mem_append_right _ ?_⟩
    refine List.mem_flatMap.mpr ⟨_, AList.lookup_mem_values hsocket, List.mem_map.mpr ⟨frame, ?_, rfl⟩⟩
    rw [htx]
    exact h
  have lost : ∀ {r' : RelayRegistry}, s.coordinator.relay.Sheds r' →
      frame ∉ s.coordinator.relay.entered r' tx := by
    intro r' hshed hmem
    rw [entered_of_sheds hshed] at hmem
    cases hmem
  generalize hs' : (s.step op).1 = s' at hmove h noted
  cases hmove with
  | shed _ _ hshed => exact absurd h (lost hshed)
  | carried now wallMicros hsocket _ _ _ _ hcarries =>
    exact noted (hcarries.sends_uplink (hw.key hsocket))
  | connected now lane hkey _ _ hcarries => exact noted (hcarries.sends_flush (hprio _))
  | disconnected _ _ _ hshed _ => exact absurd h (lost hshed)
  | restarted hrelay _ =>
    rw [hrelay] at h
    rw [RelayRegistry.entered, show RelayRegistry.new.queue tx = [] from rfl, List.drop_nil] at h
    cases h

/-- The frames handed to the lanes of a key are, one for one, downlinks of uplinks to it that the
policy let through; handshakes alone ride the `hi` lane and no spool outgrows its cap. As long as
the id counter has not wrapped around, closing a superseded socket leaves every registered
connection alone. -/
theorem relay_delivery (cfg : Config) :
    (∀ tr s log, ((mesh cfg).observed Mesh.relayEvents).Reach tr (s, log) →
      (∀ dst, (handedTo dst log).Subperm (grantedTo dst log)) ∧
      (∀ socket frame, .handoff socket frame ∈ log → ∃ src payload, src.length = 32 ∧
        .uplink src socket.pubkey payload true ∈ log ∧ frame = encodeRelayFrame src payload ∧
        (socket.lane = .hi → payload.head? ∈ [some 1, some 2, some 3])) ∧
      (∀ op tx frame, frame ∈ s.coordinator.relay.entered (s.step op).1.coordinator.relay tx →
        ∃ socket, socket.tx = tx ∧ .handoff socket frame ∈ s.relayEvents op) ∧
      ∀ dst q, s.coordinator.relay.spool.lookup dst = some q → q.length ≤ spoolCap) ∧
    ∀ tr s, (mesh cfg).Run IdsLeft tr s → ∀ handle socket,
      s.sockets.lookup handle = some socket →
      s.coordinator.relay.connAt socket.pubkey socket.lane ≠ some ⟨socket.id, socket.tx⟩ →
      ∀ pubkey lane, (s.step (.relayDisconnect handle)).1.coordinator.relay.connAt pubkey lane =
        s.coordinator.relay.connAt pubkey lane := by
  constructor
  · intro tr s log hrun
    have hledger : Ledger s log := ledger_of_run hrun
    have hreach : (mesh cfg).Reach tr s := hrun.unobserved
    have covered : ∀ dst, (handedTo dst log).Subperm (grantedTo dst log) := by
      intro dst
      exact (List.sublist_append_left _ _).subperm.trans (hledger.covered dst)
    refine ⟨covered, ?_, ?_, ?_⟩
    · intro socket frame hmem
      have hhanded : frame ∈ handedTo socket.pubkey log :=
        List.mem_filterMap.mpr ⟨_, hmem, if_pos rfl⟩
      obtain ⟨event, hevent, hgrant⟩ :=
        List.mem_filterMap.mp ((covered socket.pubkey).subset hhanded)
      split at hgrant
      · rename_i src dst payload
        split at hgrant
        · rename_i hdst
          have hframe : encodeRelayFrame src payload = frame := Option.some.inj hgrant
          have hsrc := hledger.source hevent
          refine ⟨src, payload, hsrc, hdst ▸ hevent, hframe.symm, ?_⟩
          intro hhi
          have hhand := hledger.lane hmem hhi
          rw [← hframe, drop_encodeRelayFrame hsrc] at hhand
          exact head_of_isHandshake hhand
        · cases hgrant
      · cases hgrant
    · intro op tx frame hframe
      exact entered_noted (wired_of_run hreach) (s.step_relay (inv_of_reach hreach) op)
        hledger.prio hframe
    · intro dst q hq
      have hcap := hledger.cap dst
      rw [RelayRegistry.spooled, hq] at hcap
      exact hcap
  · intro tr s hrun handle socket hsocket hsuperseded pubkey lane
    exact unregister_superseded (wired_of_run hrun.reach) (numbered_of_run hrun) hsocket
      hsuperseded pubkey lane

instance (s : Mesh) : (op : Op) → Decidable (IdsLeft s op)
  | .relayConnect .. => inferInstanceAs (Decidable (_ < _))
  | .register .. | .heartbeat .. | .deregister .. | .sweep .. | .putPolicy .. | .postDirect ..
  | .setProactive .. | .postCommand .. | .openStream .. | .pollStream .. | .closeStream ..
  | .relayUplink .. | .relayDeliver .. | .relaySendEnd .. | .relayDisconnect ..
  | .reorderRoster .. | .restart .. => .isTrue trivial

instance (cfg : Config) (tr : List (Op × Reply)) (op : Op) :
    Decidable (((mesh cfg).observed Mesh.relayEvents).admits tr op) :=
  inferInstanceAs (Decidable (op.Fresh tr))

end

def keyBytes (seed : UInt8) : List UInt8 := List.replicate 32 seed

def relayNode (nowV7 : Uuid) (key ula : String) : Op :=
  registerOp 0 nowV7 { plainRequest key "" (some ula) with tags := [tagSystem] }

attribute [local instance] referenceCrates

structure Reconnected (n : Nat) (s : Mesh) : Prop where
  known : s.coordinator.isRegisteredPubkey (keyBytes 1) = true
  nextId : s.coordinator.relay.nextId = UInt64.ofNat (n + 1)
  channels : s.coordinator.relay.channels.length = n + 1
  spool : s.coordinator.relay.spool.lookup (keyBytes 1) = none
  first : s.sockets.lookup 0 = some ⟨keyBytes 1, .lo, 0, 0⟩
  handle : s.nextHandle ≠ 0
  current : s.coordinator.relay.connAt (keyBytes 1) .lo = some ⟨UInt64.ofNat n, n⟩

theorem Reconnected.step {n : Nat} {s : Mesh} (h : Reconnected n s) :
    Reconnected (n + 1) (s.step (.relayConnect 0 (keyBytes 1) none)).1 := by
  have hok : (keyBytes 1).length = 32 ∧ s.coordinator.isRegisteredPubkey (keyBytes 1) = true :=
    ⟨rfl, h.known⟩
  have hrelay : s.coordinator.relay.register 0 (keyBytes 1) .lo relayLoCap =
      ({ s.coordinator.relay with
        nextId := s.coordinator.relay.nextId + 1
        channels := s.coordinator.relay.channels ++ [⟨relayLoCap, [], false⟩]
        conns := (s.coordinator.relay.connected (keyBytes 1) .lo relayLoCap).conns },
        s.coordinator.relay.nextId) := by
    simp only [RelayRegistry.register, h.spool]
    rfl
  have hconn := s.coordinator.relay.connAt_connected (keyBytes 1) .lo relayLoCap (keyBytes 1) .lo
  rw [if_pos ⟨rfl, rfl⟩, h.nextId, h.channels] at hconn
  have hlane : parseLane none = .lo := rfl
  have hcap : laneChannelCap .lo = relayLoCap := rfl
  simp only [Mesh.step, Mesh.relayConnect, if_pos hok, hlane, hcap, hrelay]
  constructor
  case known => exact h.known
  case nextId =>
    rw [h.nextId]
    exact (UInt64.ofNat_add (n + 1) 1).symm
  case channels =>
    rw [List.length_append, h.channels]
    rfl
  case spool => exact h.spool
  case first =>
    rw [AList.lookup_insert_ne h.handle.symm]
    exact h.first
  case handle => exact Nat.succ_ne_zero _
  case current => exact hconn

theorem exists_reconnected (n : Nat) :
    ∃ tr s, (mesh openConfig).Reach tr s ∧ Reconnected n s := by
  induction n with
  | zero =>
    have hall : (mesh openConfig).Admissible (fun _ _ => True) [] (Mesh.init openConfig)
          [relayNode 1 keyOne "fd5a:1f02:1::1", .relayConnect 0 (keyBytes 1) none] ∧
        let s := stateAfter openConfig
          [relayNode 1 keyOne "fd5a:1f02:1::1", .relayConnect 0 (keyBytes 1) none]
        s.coordinator.isRegisteredPubkey (keyBytes 1) = true ∧
        s.coordinator.relay.nextId = 1 ∧ s.coordinator.relay.channels.length = 1 ∧
        s.coordinator.relay.spool.lookup (keyBytes 1) = none ∧
        s.sockets.lookup 0 = some ⟨keyBytes 1, .lo, 0, 0⟩ ∧ s.nextHandle ≠ 0 ∧
        s.coordinator.relay.connAt (keyBytes 1) .lo = some ⟨0, 0⟩ := by decide +kernel
    obtain ⟨hadm, hknown, hid, hchannels, hspool, hfirst, hhandle, hcurrent⟩ := hall
    exact ⟨_, _, reach_of_admissible hadm, hknown, hid, hchannels, hspool, hfirst, hhandle, hcurrent⟩
  | succ n ih =>
    obtain ⟨tr, s, hreach, hs⟩ := ih
    have hadm : (mesh openConfig).admits tr (.relayConnect 0 (keyBytes 1) none) := trivial
    exact ⟨_, _, .step _ hreach hadm trivial, hs.step⟩

/-- When the id counter has come round, the first connection's id is the current one's: closing
the long superseded socket unregisters the live connection. -/
theorem wrapped_id_unregisters_live :
    ∃ tr s socket conn, (mesh openConfig).Reach tr s ∧ s.sockets.lookup 0 = some socket ∧
      s.coordinator.relay.connAt socket.pubkey socket.lane = some conn ∧ conn.tx ≠ socket.tx ∧
      (s.step (.relayDisconnect 0)).1.coordinator.relay.connAt socket.pubkey socket.lane = none := by
  obtain ⟨tr, s, hreach, hs⟩ := exists_reconnected (2 ^ 64)
  have hcurrent : s.coordinator.relay.connAt (keyBytes 1) .lo = some ⟨0, 2 ^ 64⟩ := hs.current
  refine ⟨tr, s, _, _, hreach, hs.first, hcurrent, by decide, ?_⟩
  cases hafter : (s.step (.relayDisconnect 0)).1.coordinator.relay.connAt (keyBytes 1) .lo with
  | none => rfl
  | some conn =>
    simp only [Mesh.step, Mesh.withSocket, hs.first] at hafter
    have hopen := (RelayRegistry.sheds_close _ _).conn hafter
    obtain ⟨hbefore, hid⟩ := RelayRegistry.connAt_unregister _ _ _ _ hopen
    rw [hcurrent] at hbefore
    have hzero : conn.id = 0 := congrArg LaneConn.id (Option.some.inj hbefore).symm
    exact absurd hzero (hid rfl rfl)

def relayOps : List Op :=
  [relayNode 1 keyOne "fd5a:1f02:1::1", relayNode 2 keyTwo "fd5a:1f02:2::1",
    .relayConnect 0 (keyBytes 1) none,
    .relayUplink 0 0 0 (encodeRelayFrame (keyBytes 2) [1, 7]),
    .relayConnect 0 (keyBytes 2) none, .relayConnect 0 (keyBytes 2) (some "hi"),
    .relayUplink 0 0 0 (encodeRelayFrame (keyBytes 2) [2, 7]),
    .relayConnect 0 (keyBytes 2) none]

def relayRun : List (Op × Reply) × Mesh × List RelayEvent :=
  ((mesh openConfig).observed Mesh.relayEvents).exec [] (Mesh.init openConfig, []) relayOps

theorem relay_delivery_reconnect :
    (∀ socket frame, .handoff socket frame ∈ relayRun.2.2 → ∃ src payload, src.length = 32 ∧
      .uplink src socket.pubkey payload true ∈ relayRun.2.2 ∧
      frame = encodeRelayFrame src payload ∧
      (socket.lane = .hi → payload.head? ∈ [some 1, some 2, some 3])) ∧
    .handoff ⟨keyBytes 2, .hi, 2, 2⟩ (encodeRelayFrame (keyBytes 1) [2, 7]) ∈ relayRun.2.2 ∧
    ∀ pubkey lane, ((stateAfter openConfig relayOps).step
        (.relayDisconnect 1)).1.coordinator.relay.connAt pubkey lane =
      (stateAfter openConfig relayOps).coordinator.relay.connAt pubkey lane := by
  have hall : ((mesh openConfig).observed Mesh.relayEvents).Admissible (fun _ _ => True) []
        (Mesh.init openConfig, []) relayOps ∧
      (mesh openConfig).Admissible IdsLeft [] (Mesh.init openConfig) relayOps ∧
      .handoff ⟨keyBytes 2, .hi, 2, 2⟩ (encodeRelayFrame (keyBytes 1) [2, 7]) ∈ relayRun.2.2 ∧
      (stateAfter openConfig relayOps).sockets.lookup 1 = some ⟨keyBytes 2, .lo, 1, 1⟩ ∧
      (stateAfter openConfig relayOps).coordinator.relay.connAt (keyBytes 2) .lo ≠
        some ⟨1, 1⟩ := by decide +kernel
  obtain ⟨hadm, hadm', hhanded, hsocket, hsuperseded⟩ := hall
  have hrun : ((mesh openConfig).observed Mesh.relayEvents).Reach relayRun.1 relayRun.2 :=
    Machine.Run.start.exec hadm
  have hrun' : (mesh openConfig).Run IdsLeft (traceAfter openConfig relayOps)
      (stateAfter openConfig relayOps) := Machine.Run.start.exec hadm'
  exact ⟨((relay_delivery openConfig).1 _ _ _ hrun).2.1, hhanded,
    (relay_delivery openConfig).2 _ _ hrun' 1 _ hsocket hsuperseded⟩

end ServiceMesh
