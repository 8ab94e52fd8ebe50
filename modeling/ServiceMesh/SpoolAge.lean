import ServiceMesh.RelayDelivery

/-! How old a frame is when it enters a lane. A frame that a registration puts back into the spool
counts as new from then on. -/

namespace ServiceMesh

def Op.relayTime : Op → Nat
  | .relayConnect now .. | .relayUplink now .. => now
  | _ => 0

def Mesh.timedEvents [Crates] (s : Mesh) (op : Op) : List (Nat × RelayEvent) :=
  (s.relayEvents op).map (fun event => (op.relayTime, event))

def acceptedFor (dst : List UInt8) (log : List (Nat × RelayEvent)) : List (Nat × List UInt8) :=
  log.filterMap fun
    | (now, .uplink src dst' payload true) =>
      if dst' = dst then some (now, encodeRelayFrame src payload) else none
    | _ => none

def handedAt (dst : List UInt8) (log : List (Nat × RelayEvent)) : List (Nat × List UInt8) :=
  log.filterMap fun
    | (now, .handoff socket frame) => if socket.pubkey = dst then some (now, frame) else none
    | _ => none

def WithinTtl (handed accepted : Nat × List UInt8) : Prop :=
  handed.2 = accepted.2 ∧ handed.1 ≤ accepted.1 + spoolTtl

def InTime (log : List (Nat × RelayEvent)) : Prop :=
  ∀ dst, ∃ accepted : List (Nat × List UInt8), accepted.Subperm (acceptedFor dst log) ∧
    List.Forall₂ WithinTtl (handedAt dst log) accepted

variable (dst : List UInt8)

theorem acceptedFor_append (log log' : List (Nat × RelayEvent)) :
    acceptedFor dst (log ++ log') = acceptedFor dst log ++ acceptedFor dst log' :=
  List.filterMap_append

theorem handedAt_append (log log' : List (Nat × RelayEvent)) :
    handedAt dst (log ++ log') = handedAt dst log ++ handedAt dst log' :=
  List.filterMap_append

theorem handedAt_map (now : Nat) (log : List RelayEvent) :
    handedAt dst (log.map (fun event => (now, event))) =
      (handedTo dst log).map (fun frame => (now, frame)) := by
  rw [handedAt, handedTo, List.filterMap_map, List.map_filterMap]
  congr 1
  funext event
  cases event with
  | uplink => rfl
  | handoff socket frame =>
    by_cases hdst : socket.pubkey = dst
    · simp [hdst]
    · simp [hdst]

theorem acceptedFor_map (now : Nat) (log : List RelayEvent) :
    acceptedFor dst (log.map (fun event => (now, event))) =
      (grantedTo dst log).map (fun frame => (now, frame)) := by
  rw [acceptedFor, grantedTo, List.filterMap_map, List.map_filterMap]
  congr 1
  funext event
  cases event with
  | handoff => rfl
  | uplink src dst' payload allowed =>
    cases allowed with
    | false => rfl
    | true =>
      by_cases hdst : dst' = dst
      · simp [hdst]
      · simp [hdst]

def SpooledFrame.stamp (sf : SpooledFrame) : Nat × List UInt8 := (sf.at_, sf.frame)

namespace RelayRegistry

structure Ages (r : RelayRegistry) (now : Nat) (pubkey : List UInt8) (offered : List SpooledFrame)
    (sent : List (Nat × SpooledFrame)) (r' : RelayRegistry) : Prop where
  carries : r.Carries pubkey (offered.map (fun sf => (sf.hiPrio, sf.frame)))
    (sent.map (fun x => (x.1, x.2.frame))) r'
  conserved : (sent.map Prod.snd ++ r'.spooled pubkey).Subperm (r.spooled pubkey ++ offered)
  fresh : ∀ x ∈ sent, now ≤ x.2.at_ + spoolTtl
  closed : ∀ tx, r'.isClosed tx = r.isClosed tx

namespace Ages

variable {r r' r'' : RelayRegistry} {now : Nat} {pubkey : List UInt8}
  {offered offered' : List SpooledFrame} {sent sent' : List (Nat × SpooledFrame)}

theorem dropped (r : RelayRegistry) (now : Nat) (pubkey : List UInt8)
    (offered : List SpooledFrame) : r.Ages now pubkey offered [] r where
  carries := .dropped r pubkey _
  conserved := (List.sublist_append_left _ _).subperm
  fresh := by simp
  closed := fun _ => rfl

theorem trans (h : r.Ages now pubkey offered sent r') (h' : r'.Ages now pubkey offered' sent' r'') :
    r.Ages now pubkey (offered ++ offered') (sent ++ sent') r'' where
  carries := by
    rw [List.map_append, List.map_append]
    exact h.carries.trans h'.carries
  conserved := by
    have hfirst := (List.subperm_append_right offered').mpr h.conserved
    have hsecond := (List.subperm_append_left (sent.map Prod.snd)).mpr h'.conserved
    rw [List.append_assoc, List.append_assoc] at hfirst
    rw [List.map_append, List.append_assoc]
    exact hsecond.trans hfirst
  fresh := by
    intro x hx
    rcases List.mem_append.mp hx with hx | hx
    · exact h.fresh x hx
    · exact h'.fresh x hx
  closed := fun tx => (h'.closed tx).trans (h.closed tx)

end Ages

variable (r : RelayRegistry)

theorem isClosed_set {tx : Nat} {ch : Channel} (hch : r.channels[tx]? = some ch)
    (queue : List (List UInt8)) (k : Nat) :
    ({ r with channels := r.channels.set tx { ch with queue := queue } } : RelayRegistry).isClosed
      k = r.isClosed k := by
  by_cases hk : tx = k
  · subst hk
    obtain ⟨hlt, -⟩ := List.getElem?_eq_some_iff.mp hch
    simp [isClosed, hch, List.getElem?_set_self hlt]
  · simp [isClosed, List.getElem?_set_ne hk]

theorem forward_ages {now : Nat} (pubkey : List UInt8) {sf : SpooledFrame}
    (hyoung : now ≤ sf.at_ + spoolTtl)
    (h : sf.at_ = now ∨ ∃ tx, (r.conns.lookup pubkey).bind (fun c => c.pick sf.hiPrio) = some tx ∧
      r.isClosed tx = false) :
    ∃ sent, r.Ages now pubkey [sf] sent (r.forward now pubkey sf.frame sf.hiPrio).1 := by
  have hf := r.forward_forwarded now pubkey sf.frame sf.hiPrio
  generalize r.forward now pubkey sf.frame sf.hiPrio = out at hf
  cases hf with
  | @sent tx ch hpick hch =>
    refine ⟨[(tx, sf)], r.carries_trySend hpick hch, ?_, ?_, ?_⟩
    · exact List.perm_append_comm.subperm
    · intro x hx
      rw [List.mem_singleton.mp hx]
      exact hyoung
    · exact r.isClosed_set hch _
  | full => exact ⟨[], .dropped r now pubkey _⟩
  | held hclosed =>
    have hnow : sf.at_ = now := by
      rcases h with hnow | ⟨tx, hpick, hopen⟩
      · exact hnow
      · rw [hclosed tx hpick] at hopen
        cases hopen
    obtain ⟨kept, hkept, hsub, -⟩ := r.spooled_pushSpool now pubkey sf.hiPrio sf.frame
    refine ⟨[], r.carries_pushSpool now pubkey sf.hiPrio sf.frame, ?_, by simp, fun _ => rfl⟩
    have hsame : (⟨now, sf.hiPrio, sf.frame⟩ : SpooledFrame) = sf := by rw [← hnow]
    rw [hkept, hsame]
    exact (hsub.append_right [sf]).subperm

theorem flush_ages (now : Nat) (pubkey : List UInt8) {held : List SpooledFrame}
    (h : ∀ sf ∈ held, now - sf.at_ ≤ spoolTtl → sf.at_ = now ∨
      ∃ tx, (r.conns.lookup pubkey).bind (fun c => c.pick sf.hiPrio) = some tx ∧
        r.isClosed tx = false) : ∃ sent, r.Ages now pubkey held sent (r.flush now pubkey held) := by
  induction held generalizing r with
  | nil => exact ⟨[], .dropped r now pubkey []⟩
  | cons sf held ih =>
    obtain ⟨sent, hsent⟩ : ∃ sent, r.Ages now pubkey [sf] sent
        (if now - sf.at_ > spoolTtl then r else (r.forward now pubkey sf.frame sf.hiPrio).1) := by
      by_cases hstale : now - sf.at_ > spoolTtl
      · rw [if_pos hstale]
        exact ⟨[], .dropped r now pubkey _⟩
      · rw [if_neg hstale]
        have hyoung : now - sf.at_ ≤ spoolTtl := Nat.le_of_not_lt hstale
        exact r.forward_ages pubkey (by omega) (h sf List.mem_cons_self hyoung)
    obtain ⟨rest, hrest⟩ := ih _ fun sf' hsf' hyoung => by
      have hlane := h sf' (List.mem_cons_of_mem sf hsf') hyoung
      rw [← hsent.carries.conns] at hlane
      simp only [← hsent.closed] at hlane
      exact hlane
    exact ⟨sent ++ rest, hsent.trans hrest⟩

def Takes (r : RelayRegistry) (pubkey : List UInt8) : Lane → Bool → Prop
  | .hi, true | .lo, false => True
  | .lo, true => ∀ conn ∈ r.connAt pubkey .hi, r.isClosed conn.tx = false
  | .hi, false => ∃ conn ∈ r.connAt pubkey .lo, r.isClosed conn.tx = false

theorem pick_connAt (pubkey : List UInt8) (hiPrio : Bool) :
    (r.conns.lookup pubkey).bind (fun c => c.pick hiPrio) =
      if hiPrio then ((r.connAt pubkey .hi).or (r.connAt pubkey .lo)).map LaneConn.tx
      else (r.connAt pubkey .lo).map LaneConn.tx := by
  cases hc : r.conns.lookup pubkey with
  | none => cases hiPrio <;> simp [connAt, hc]
  | some c => cases hiPrio <;> simp [connAt, hc, PeerConns.pick, PeerConns.slot]

theorem isClosed_connected (pubkey : List UInt8) (lane : Lane) (cap : Nat) :
    (r.connected pubkey lane cap).isClosed r.channels.length = false := by
  simp [isClosed, connected]

theorem isClosed_connected_of_open {r : RelayRegistry} {tx : Nat} (h : r.isClosed tx = false)
    (pubkey : List UInt8) (lane : Lane) (cap : Nat) :
    (r.connected pubkey lane cap).isClosed tx = false := by
  cases hch : r.channels[tx]? with
  | none => simp [isClosed, hch] at h
  | some ch =>
    obtain ⟨hlt, -⟩ := List.getElem?_eq_some_iff.mp hch
    rw [isClosed, connected, List.getElem?_append_left hlt]
    exact h

theorem Takes.lane {r : RelayRegistry} {pubkey : List UInt8} {lane : Lane} {hiPrio : Bool}
    (h : r.Takes pubkey lane hiPrio) (cap : Nat) :
    ∃ tx, ((r.connected pubkey lane cap).conns.lookup pubkey).bind (fun c => c.pick hiPrio) =
      some tx ∧ (r.connected pubkey lane cap).isClosed tx = false := by
  rw [pick_connAt, connAt_connected, connAt_connected]
  cases lane with
  | hi =>
    cases hiPrio with
    | true => exact ⟨_, by simp, r.isClosed_connected pubkey .hi cap⟩
    | false =>
      obtain ⟨conn, hconn, hopen⟩ := h
      have hlo : r.connAt pubkey .lo = some conn := hconn
      exact ⟨conn.tx, by simp [hlo], isClosed_connected_of_open hopen pubkey .hi cap⟩
  | lo =>
    cases hiPrio with
    | false => exact ⟨_, by simp, r.isClosed_connected pubkey .lo cap⟩
    | true =>
      cases hhi : r.connAt pubkey .hi with
      | none => exact ⟨_, by simp, r.isClosed_connected pubkey .lo cap⟩
      | some conn =>
        exact ⟨conn.tx, by simp, isClosed_connected_of_open (h conn hhi) pubkey .lo cap⟩

theorem register_ages (now : Nat) (pubkey : List UInt8) (lane : Lane) (cap : Nat)
    (h : ∀ sf ∈ r.spooled pubkey, now - sf.at_ ≤ spoolTtl →
      sf.at_ = now ∨ r.Takes pubkey lane sf.hiPrio) :
    ∃ sent, (r.connected pubkey lane cap).Ages now pubkey (r.spooled pubkey) sent
      (r.register now pubkey lane cap).1 := by
  rw [register_eq]
  apply flush_ages
  intro sf hsf hyoung
  rcases h sf hsf hyoung with hnow | htakes
  · exact .inl hnow
  · exact .inr (htakes.lane cap)

end RelayRegistry

def Accounted (s : Mesh) (log : List (Nat × RelayEvent)) : Prop :=
  ∀ dst, ∃ accepted : List (Nat × List UInt8),
    (accepted ++ (s.coordinator.relay.spooled dst).map SpooledFrame.stamp).Subperm
      (acceptedFor dst log) ∧ List.Forall₂ WithinTtl (handedAt dst log) accepted

theorem Accounted.inTime {s : Mesh} {log : List (Nat × RelayEvent)} (h : Accounted s log) :
    InTime log := by
  intro dst
  obtain ⟨accepted, hcovered, hyoung⟩ := h dst
  exact ⟨accepted, (List.sublist_append_left _ _).subperm.trans hcovered, hyoung⟩

theorem Sends.handedTo_stamped {s s' : Mesh} {pubkey : List UInt8} {new : List (List UInt8)}
    {sent : List (Nat × SpooledFrame)}
    (h : Sends s s' pubkey new (sent.map (fun x => (x.1, x.2.frame)))) (hw : Wired s')
    (dst : List UInt8) : ∃ stamped : List SpooledFrame, stamped.Subperm (sent.map Prod.snd) ∧
      handedTo dst (s.handoffs s') = stamped.map SpooledFrame.frame := by
  have hnodup : ((s'.sockets.values.filter (fun socket => socket.pubkey = dst)).map
      RelaySocket.tx).Nodup := hw.nodup.sublist (List.filter_sublist.map _)
  refine ⟨_, List.flatMap_filter_subperm hnodup sent, ?_⟩
  rw [handedTo_handoffs, List.flatMap_map, List.map_flatMap]
  apply List.flatMap_congr
  intro socket _
  rw [h.entered, List.filter_map, List.map_map, List.map_map]
  rfl

namespace Accounted

variable {s s' : Mesh} {log : List (Nat × RelayEvent)}

theorem shed (h : Accounted s log) (op : Op) (now : Nat)
    (hentered : ∀ tx, s.coordinator.relay.entered s'.coordinator.relay tx = [])
    (hspooled : ∀ dst, (s'.coordinator.relay.spooled dst).Sublist
      (s.coordinator.relay.spooled dst)) :
    Accounted s' (log ++ (s.uplinks op ++ s.handoffs s').map (fun event => (now, event))) := by
  intro dst
  obtain ⟨accepted, hcovered, hyoung⟩ := h dst
  have hfewer := (List.subperm_append_left accepted).mpr
    ((hspooled dst).map SpooledFrame.stamp).subperm
  refine ⟨accepted, ?_, ?_⟩
  · rw [acceptedFor_append]
    exact (hfewer.trans hcovered).trans (List.sublist_append_left _ _).subperm
  · rw [handoffs_eq_nil hentered, List.append_nil, handedAt_append, handedAt_map,
      handedTo_uplinks, List.map_nil, List.append_nil]
    exact hyoung

theorem sends (hw' : Wired s') (h : Accounted s log) {op : Op} {now : Nat} {pubkey : List UInt8}
    {new : List SpooledFrame} {frames : List (List UInt8)} {sent : List (Nat × SpooledFrame)}
    (hsends : Sends s s' pubkey frames (sent.map (fun x => (x.1, x.2.frame))))
    (hconserved : (sent.map Prod.snd ++ s'.coordinator.relay.spooled pubkey).Subperm
      (s.coordinator.relay.spooled pubkey ++ new))
    (hfresh : ∀ x ∈ sent, now ≤ x.2.at_ + spoolTtl)
    (hnew : (new.map SpooledFrame.stamp).Subperm
      ((grantedTo pubkey (s.uplinks op)).map (fun frame => (now, frame)))) :
    Accounted s' (log ++ (s.uplinks op ++ s.handoffs s').map (fun event => (now, event))) := by
  intro dst
  obtain ⟨accepted, hcovered, hyoung⟩ := h dst
  rw [acceptedFor_append, acceptedFor_map, grantedTo_append, grantedTo_handoffs, List.append_nil,
    handedAt_append, handedAt_map, handedTo_append, handedTo_uplinks, List.nil_append]
  by_cases hdst : dst = pubkey
  · subst hdst
    obtain ⟨stamped, hstamped, hhanded⟩ := hsends.handedTo_stamped hw' dst
    refine ⟨accepted ++ stamped.map SpooledFrame.stamp, ?_, ?_⟩
    · have hstep := ((List.subperm_append_right (s'.coordinator.relay.spooled dst)).mpr
        hstamped).trans hconserved
      obtain ⟨part, hpart, hsub⟩ := hstep
      have hstamps := List.subperm_append_left accepted |>.mpr
        (⟨_, hpart.map SpooledFrame.stamp, hsub.map SpooledFrame.stamp⟩ : List.Subperm _ _)
      rw [List.map_append, List.map_append, ← List.append_assoc, ← List.append_assoc] at hstamps
      exact hstamps.trans (hcovered.append hnew)
    · rw [hhanded]
      apply List.rel_append hyoung
      rw [List.map_map, List.forall₂_map_left_iff, List.forall₂_map_right_iff,
        List.forall₂_same]
      intro sf hsf
      obtain ⟨x, hx, rfl⟩ := List.mem_map.mp (hstamped.subset hsf)
      exact ⟨rfl, hfresh x hx⟩
  · refine ⟨accepted, ?_, ?_⟩
    · rw [hsends.others dst hdst]
      exact hcovered.trans (List.sublist_append_left _ _).subperm
    · rw [hsends.handedTo_eq_nil hw' hdst, List.map_nil, List.append_nil]
      exact hyoung

end Accounted

/-- No young frame is put back when a lane registers: its lane is there, or it came at this very
instant. -/
def NonePutBack (s : Mesh) : Op → Prop
  | .relayConnect now pubkey lane => ∀ sf ∈ s.coordinator.relay.spooled pubkey,
      now - sf.at_ ≤ spoolTtl →
        sf.at_ = now ∨ s.coordinator.relay.Takes pubkey (parseLane lane) sf.hiPrio
  | _ => True

section

variable [Crates]

theorem routeUplink_ages {c : Coordinator} (now : Nat) (wallMicros : Int)
    {myPubkey buf dst payload : List UInt8} (hframe : decodeRelayFrame buf = some (dst, payload))
    (hcan : c.canRelay myPubkey dst = true) :
    ∃ sent, c.relay.Ages now dst [⟨now, isHandshake payload, encodeRelayFrame myPubkey payload⟩]
      sent (c.routeUplink now wallMicros myPubkey buf).1.relay := by
  obtain ⟨sent, hsent⟩ : ∃ sent, c.relay.Ages now dst
      [⟨now, isHandshake payload, encodeRelayFrame myPubkey payload⟩] sent
      (c.relay.forward now dst (encodeRelayFrame myPubkey payload) (isHandshake payload)).1 :=
    c.relay.forward_ages dst (Nat.le_add_right _ _) (.inl rfl)
  obtain ⟨hconns, hspool, hchannels, hid⟩ := Coordinator.routeUplink_relay now wallMicros hframe hcan
  refine ⟨sent, hsent.carries.congr hconns hspool hchannels hid, ?_, hsent.fresh, ?_⟩
  · rw [RelayRegistry.spooled, hspool]
    exact hsent.conserved
  · intro tx
    rw [← hsent.closed, RelayRegistry.isClosed, hchannels]
    rfl

theorem Accounted.step {s : Mesh} {log : List (Nat × RelayEvent)} (hw : Wired s)
    (hprio : ∀ dst, ∀ sf ∈ s.coordinator.relay.spooled dst,
      sf.hiPrio = isHandshake (sf.frame.drop 32))
    (h : Accounted s log) {op : Op} (hmove : RelayMove s op (s.step op).1)
    (hput : NonePutBack s op) : Accounted (s.step op).1 (log ++ s.timedEvents op) := by
  have hw' := hw.step hmove
  rw [Mesh.timedEvents, Mesh.relayEvents]
  generalize hs' : (s.step op).1 = s' at hmove hw'
  cases hmove with
  | shed hsockets hhandle hshed => exact h.shed op _ (entered_of_sheds hshed) hshed.spooled
  | @carried now wallMicros handle buf socket dst payload _ _ hsocket hframe hcan hsockets hhandle _ =>
    obtain ⟨sent, hsent⟩ := routeUplink_ages now wallMicros hframe hcan
    have hrelay : (s.coordinator.routeUplink now wallMicros socket.pubkey buf).1.relay =
        s'.coordinator.relay := by
      rw [← hs']
      simp only [Mesh.step, Mesh.withSocket, hsocket]
      rfl
    rw [hrelay] at hsent
    refine h.sends hw' (hsent.carries.sends_uplink (hw.key hsocket)) hsent.conserved hsent.fresh ?_
    have hup : s.uplinks (.relayUplink now wallMicros handle buf) =
        [.uplink socket.pubkey dst payload true] := by
      simp only [Mesh.uplinks, hsocket, hframe, hcan]
    rw [hup]
    simp [grantedTo, SpooledFrame.stamp, Op.relayTime]
  | @connected now pubkey lane _ _ hkey hsockets hhandle _ =>
    have hrelay : (s.coordinator.relay.register now pubkey (parseLane lane)
        (laneChannelCap (parseLane lane))).1 = s'.coordinator.relay := by
      rw [← hs'] at hhandle ⊢
      simp only [Mesh.step, Mesh.relayConnect] at hhandle ⊢
      split at hhandle
      · rename_i hok
        rw [if_pos hok]
      · exact absurd hhandle (Nat.succ_ne_self _).symm
    obtain ⟨sent, hsent⟩ := s.coordinator.relay.register_ages now pubkey (parseLane lane)
      (laneChannelCap (parseLane lane)) hput
    rw [hrelay] at hsent
    have hconserved : (sent.map Prod.snd ++ s'.coordinator.relay.spooled pubkey).Subperm
        (s.coordinator.relay.spooled pubkey ++ []) := by
      have hheld := hsent.conserved
      rw [RelayRegistry.spooled_connected, if_pos rfl, List.nil_append] at hheld
      rw [List.append_nil]
      exact hheld
    exact h.sends hw' (hsent.carries.sends_flush (hprio pubkey)) hconserved hsent.fresh
      List.nil_subperm
  | disconnected hsocket hsockets hhandle hshed hgone =>
    exact h.shed _ _ (entered_of_sheds hshed) hshed.spooled
  | restarted hrelay hsockets =>
    refine h.shed _ _ ?_ ?_
    · intro tx
      rw [hrelay]
      exact List.drop_nil
    · intro dst
      rw [hrelay]
      exact List.nil_sublist _

/-- In every run in which no young frame is put back at a registration, a frame enters a lane at
most `spoolTtl` after its uplink; each frame that enters a channel is noted. -/
theorem spooled_frames_expire (cfg : Config) {tr : List (Op × Reply)}
    {x : Mesh × List (Nat × RelayEvent)}
    (h : ((mesh cfg).observed Mesh.timedEvents).Run (fun x op => NonePutBack x.1 op) tr x) :
    InTime x.2 ∧ ∀ op tx frame,
      frame ∈ x.1.coordinator.relay.entered (x.1.step op).1.coordinator.relay tx →
        ∃ socket, socket.tx = tx ∧ (op.relayTime, .handoff socket frame) ∈ x.1.timedEvents op := by
  have prio : ∀ {tr : List (Op × Reply)} {s : Mesh}, (mesh cfg).Reach tr s →
      ∀ dst, ∀ sf ∈ s.coordinator.relay.spooled dst,
        sf.hiPrio = isHandshake (sf.frame.drop 32) := by
    intro tr s hreach
    obtain ⟨events, hevents⟩ := hreach.observe Mesh.relayEvents
    exact (ledger_of_run hevents).prio
  constructor
  · have haccount : Accounted x.1 x.2 := by
      refine Machine.Run.invariant (I := fun _ x => Accounted x.1 x.2) ?_ ?_ h
      · exact fun dst => ⟨[], List.Subperm.refl _, .nil⟩
      · intro tr x op hrun haccount _ hput
        have hx := hrun.unobserved
        exact haccount.step (wired_of_run hx) (prio hx) (x.1.step_relay (inv_of_reach hx) op) hput
    exact haccount.inTime
  · intro op tx frame hframe
    have hreach := h.unobserved
    obtain ⟨socket, htx, hnoted⟩ := entered_noted (wired_of_run hreach)
      (x.1.step_relay (inv_of_reach hreach) op) (prio hreach) hframe
    exact ⟨socket, htx, List.mem_map.mpr ⟨_, hnoted, rfl⟩⟩

instance (r : RelayRegistry) (pubkey : List UInt8) :
    (lane : Lane) → (hiPrio : Bool) → Decidable (r.Takes pubkey lane hiPrio)
  | .hi, true | .lo, false => .isTrue trivial
  | .lo, true => inferInstanceAs (Decidable (∀ conn ∈ r.connAt pubkey .hi, _))
  | .hi, false => inferInstanceAs (Decidable (∃ conn ∈ r.connAt pubkey .lo, _))

instance (s : Mesh) : (op : Op) → Decidable (NonePutBack s op)
  | .relayConnect now pubkey lane =>
    inferInstanceAs (Decidable (∀ sf ∈ s.coordinator.relay.spooled pubkey,
      now - sf.at_ ≤ spoolTtl →
        sf.at_ = now ∨ s.coordinator.relay.Takes pubkey (parseLane lane) sf.hiPrio))
  | .register .. | .heartbeat .. | .deregister .. | .sweep .. | .putPolicy .. | .postDirect ..
  | .setProactive .. | .postCommand .. | .openStream .. | .pollStream .. | .closeStream ..
  | .relayUplink .. | .relayDeliver .. | .relaySendEnd .. | .relayDisconnect ..
  | .reorderRoster .. | .restart .. => .isTrue trivial

instance (cfg : Config) (tr : List (Op × Reply)) (op : Op) :
    Decidable (((mesh cfg).observed Mesh.timedEvents).admits tr op) :=
  inferInstanceAs (Decidable (op.Fresh tr))

end

section Example

attribute [local instance] referenceCrates

def spoolOps : List Op :=
  [relayNode 1 keyOne "fd5a:1f02:1::1", relayNode 2 keyTwo "fd5a:1f02:2::1",
    .relayConnect 0 (keyBytes 1) none,
    .relayUplink 0 0 0 (encodeRelayFrame (keyBytes 2) [4, 7]),
    .relayConnect (secs 1) (keyBytes 2) none]

def respoolOps : List Op :=
  [relayNode 1 keyOne "fd5a:1f02:1::1", relayNode 2 keyTwo "fd5a:1f02:2::1",
    .relayConnect 0 (keyBytes 1) none,
    .relayUplink 0 0 0 (encodeRelayFrame (keyBytes 2) [4, 7]),
    .relayConnect 1900000000 (keyBytes 2) (some "hi"),
    .relayConnect 3800000000 (keyBytes 2) none]

def timedRun (ops : List Op) : List (Op × Reply) × Mesh × List (Nat × RelayEvent) :=
  ((mesh openConfig).observed Mesh.timedEvents).exec [] (Mesh.init openConfig, []) ops

theorem spooled_frames_expire_bulk :
    InTime (timedRun spoolOps).2.2 ∧
      handedAt (keyBytes 2) (timedRun spoolOps).2.2 =
        [(secs 1, encodeRelayFrame (keyBytes 1) [4, 7])] := by
  have hall : ((mesh openConfig).observed Mesh.timedEvents).Admissible
        (fun x op => NonePutBack x.1 op) [] (Mesh.init openConfig, []) spoolOps ∧
      handedAt (keyBytes 2) (timedRun spoolOps).2.2 =
        [(secs 1, encodeRelayFrame (keyBytes 1) [4, 7])] := by decide +kernel
  obtain ⟨hadm, hhanded⟩ := hall
  have hrun : ((mesh openConfig).observed Mesh.timedEvents).Run (fun x op => NonePutBack x.1 op)
      (timedRun spoolOps).1 (timedRun spoolOps).2 := Machine.Run.start.exec hadm
  exact ⟨(spooled_frames_expire openConfig hrun).1, hhanded⟩

/-- Each registration of the other lane makes the frame new again: it reaches its lane 3.8 s after
the only uplink it can have come with. -/
theorem respooled_frame_outlives_ttl :
    ∃ tr x, ((mesh openConfig).observed Mesh.timedEvents).Reach tr x ∧
      (tr.reverse.map (fun x => x.1.relayTime)).Pairwise (· ≤ ·) ∧ ¬ InTime x.2 := by
  have hall : ((mesh openConfig).observed Mesh.timedEvents).Admissible (fun _ _ => True) []
        (Mesh.init openConfig, []) respoolOps ∧
      ((timedRun respoolOps).1.reverse.map (fun x => x.1.relayTime)).Pairwise (· ≤ ·) ∧
      handedAt (keyBytes 2) (timedRun respoolOps).2.2 =
        [(3800000000, encodeRelayFrame (keyBytes 1) [4, 7])] ∧
      acceptedFor (keyBytes 2) (timedRun respoolOps).2.2 =
        [(0, encodeRelayFrame (keyBytes 1) [4, 7])] := by decide +kernel
  obtain ⟨hadm, hordered, hhanded, haccepted⟩ := hall
  have hreach : ((mesh openConfig).observed Mesh.timedEvents).Reach (timedRun respoolOps).1
      (timedRun respoolOps).2 := Machine.Run.start.exec hadm
  refine ⟨(timedRun respoolOps).1, (timedRun respoolOps).2, hreach, hordered, ?_⟩
  intro hin
  obtain ⟨accepted, hsub, hyoung⟩ := hin (keyBytes 2)
  rw [hhanded] at hyoung
  rw [haccepted] at hsub
  cases hyoung with
  | @cons _ first _ _ hfirst _ =>
    have hmem := hsub.subset List.mem_cons_self
    rw [List.mem_singleton.mp hmem] at hfirst
    exact absurd hfirst.2 (by decide)

end Example

end ServiceMesh
