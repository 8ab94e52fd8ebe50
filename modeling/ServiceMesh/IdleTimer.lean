import ServiceMesh.PathRules

/-! The idle probe of a node: when a timer step sends it, to whom, and what else the step sends.
And what a frame that comes in does to the clocks that the probe goes by. -/

namespace ServiceMesh

open StdNet (Ipv6Addr SocketAddr)

def WireEvent.isDelivered : WireEvent → Bool
  | .delivered .. => true
  | .sent _ => false

namespace WireNode

variable {cfg : WireConfig} {now : Int} {id w : SessionId} {n n' n'' : WireNode} {s : PeerSession}

variable (bytes : List UInt8)

theorem lastIdleProbe_noteSend :
    (n.noteSend now bytes).clocks.lastIdleProbe = n.clocks.lastIdleProbe := by
  unfold noteSend
  split <;> rfl

theorem clocks_sendWire :
    (n.sendWire cfg now id bytes).clocks = n.clocks ∨
      (n.sendWire cfg now id bytes).clocks = (n.noteSend now bytes).clocks := by
  unfold sendWire
  split
  · exact .inl rfl
  · right
    simp only
    split
    · split <;> rfl
    · split
      · rfl
      · split <;> rfl

@[simp] theorem lastIdleProbe_sendWire :
    (n.sendWire cfg now id bytes).clocks.lastIdleProbe = n.clocks.lastIdleProbe := by
  rcases (clocks_sendWire bytes : _ ∨ (n.sendWire cfg now id bytes).clocks = _) with h | h
  · rw [h]
  · rw [h, lastIdleProbe_noteSend]

theorem log_sendWire :
    (n.sendWire cfg now id bytes).log = n.log ∨ ∃ udp relayed,
      (n.sendWire cfg now id bytes).log = .sent ⟨.wire, id, bytes, udp, relayed⟩ :: n.log := by
  unfold sendWire
  split
  · exact .inl rfl
  · have hlog : (n.noteSend now bytes).log = n.log := log_noteSend bytes
    simp only
    split
    · right
      split
      · exact ⟨_, _, congrArg _ hlog⟩
      · exact ⟨_, _, congrArg _ hlog⟩
    · split
      · exact .inr ⟨_, _, congrArg _ hlog⟩
      · split
        · exact .inr ⟨_, _, congrArg _ hlog⟩
        · exact .inl hlog

theorem log_sendWire_of_path (hs : n.table.heap.lookup id = some s)
    (hpath : cfg.relay.isSome = true ∨ s.endpoint.isSome = true) (bytes : List UInt8) :
    ∃ udp relayed,
      (n.sendWire cfg now id bytes).log = .sent ⟨.wire, id, bytes, udp, relayed⟩ :: n.log := by
  have hlog : (n.noteSend now bytes).log = n.log := log_noteSend bytes
  unfold sendWire
  simp only [hs]
  split
  · split
    · exact ⟨_, _, congrArg _ hlog⟩
    · exact ⟨_, _, congrArg _ hlog⟩
  · split
    · exact ⟨_, _, congrArg _ hlog⟩
    · rename_i hrelay
      split
      · exact ⟨_, _, congrArg _ hlog⟩
      · rename_i hendpoint
        simp [hrelay, hendpoint] at hpath

structure Idles (cfg : WireConfig) (n n' : WireNode) : Prop where
  sends : Sends cfg n n'
  lastIdleProbe : n'.clocks.lastIdleProbe = n.clocks.lastIdleProbe
  log : ∃ sent : List Sending, n'.log = sent.map WireEvent.sent ++ n.log ∧
    ∀ f ∈ sent, isWgDataFrame f.bytes = true → f.site = .dataProbe

theorem Idles.refl (n : WireNode) : Idles cfg n n := ⟨.refl n, rfl, [], rfl, by simp⟩

theorem Idles.trans (h : Idles cfg n n') (h' : Idles cfg n' n'') : Idles cfg n n'' := by
  obtain ⟨sent, hlog, hsent⟩ := h.log
  obtain ⟨sent', hlog', hsent'⟩ := h'.log
  refine ⟨h.sends.trans h'.sends, h'.lastIdleProbe.trans h.lastIdleProbe, sent' ++ sent, ?_, ?_⟩
  · rw [hlog', hlog, List.map_append, List.append_assoc]
  · intro f hf
    rcases List.mem_append.mp hf with hf | hf
    · exact hsent' f hf
    · exact hsent f hf

theorem Sends.follows (h : Sends cfg n n') {sent : List Sending}
    (hlog : n'.log = sent.map WireEvent.sent ++ n.log) : ∀ f ∈ sent, Follows cfg n f := by
  obtain ⟨sent', hlog', hsent'⟩ := h.log
  have hsame : sent.map WireEvent.sent = sent'.map WireEvent.sent :=
    List.append_cancel_right (hlog.symm.trans hlog')
  have hinj : Function.Injective WireEvent.sent := fun _ _ heq => WireEvent.sent.inj heq
  rw [hinj.list_map hsame]
  exact hsent'

theorem idles_sendWire {bytes : List UInt8} (hbytes : isWgDataFrame bytes = false) :
    Idles cfg n (n.sendWire cfg now id bytes) := by
  refine ⟨sends_sendWire bytes, lastIdleProbe_sendWire bytes, ?_⟩
  rcases (log_sendWire bytes : _ ∨ ∃ _ _, (n.sendWire cfg now id bytes).log = _) with
    hlog | ⟨udp, relayed, hlog⟩
  · exact ⟨[], hlog, by simp⟩
  · exact ⟨[⟨.wire, id, bytes, udp, relayed⟩], hlog, by simp [hbytes]⟩

theorem idles_maybeDirectDataProbe (a : TimerAnswers) :
    Idles cfg n (n.maybeDirectDataProbe cfg now id a) := by
  have hsends : Sends cfg n (n.maybeDirectDataProbe cfg now id a) := sends_maybeDirectDataProbe a
  rcases maybeDirectDataProbe_cases cfg now id a n with
    hnone | ⟨-, hskipped | ⟨endpoint, bytes, hprobed⟩⟩
  · exact ⟨hsends, by rw [hnone], [], by rw [hnone]; rfl, by simp⟩
  · exact ⟨hsends, by rw [hskipped]; rfl, [], by rw [hskipped]; rfl, by simp⟩
  · exact ⟨hsends, by rw [hprobed]; rfl, [⟨.dataProbe, id, bytes, some endpoint, []⟩],
      by rw [hprobed]; rfl, by simp⟩

theorem idles_tickSession (answers : SessionId → TimerAnswers)
    (hsound : (n.paths id).broken now = false) (hawake : (answers id).expired = false)
    (htimers : ∀ bytes, (answers id).timers = some bytes → isWgDataFrame bytes = false) :
    Idles cfg n (n.tickSession cfg now answers id) := by
  have hrearm : n.maybeRearmExpiredSession cfg now id (answers id) = (n, false) := by
    unfold maybeRearmExpiredSession
    cases n.table.heap.lookup id with
    | none => rfl
    | some s => simp [hawake]
  unfold tickSession
  simp only [downgrades_eq, hsound, Bool.false_eq_true, if_false, hrearm]
  cases ht : (answers id).timers with
  | none => exact idles_maybeDirectDataProbe (answers id)
  | some bytes => exact (idles_sendWire (htimers bytes ht)).trans (idles_maybeDirectDataProbe (answers id))

theorem idles_foldl_tickSession (answers : SessionId → TimerAnswers) {ids : List SessionId}
    (hnodup : ids.Nodup) (hsound : ∀ id ∈ ids, (n.paths id).broken now = false)
    (hawake : ∀ id ∈ ids, (answers id).expired = false)
    (htimers : ∀ id ∈ ids, ∀ bytes, (answers id).timers = some bytes →
      isWgDataFrame bytes = false) :
    Idles cfg n (ids.foldl (tickSession cfg now answers) n) := by
  induction ids generalizing n with
  | nil => exact .refl n
  | cons id ids ih =>
    obtain ⟨hnew, hnodup⟩ := List.nodup_cons.mp hnodup
    have hfirst : Idles cfg n (n.tickSession cfg now answers id) :=
      idles_tickSession answers (hsound id List.mem_cons_self) (hawake id List.mem_cons_self)
        (htimers id List.mem_cons_self)
    refine hfirst.trans (ih hnodup ?_ ?_ ?_)
    · intro id' hid'
      -- the turn of one session leaves the others' paths alone
      have hne : id' ≠ id := fun heq => hnew (heq ▸ hid')
      have hapart : Apart id' n (n.tickSession cfg now answers id) := apart_tickSession hne answers
      rw [hapart.path]
      exact hsound id' (List.mem_cons_of_mem id hid')
    · exact fun id' hid' => hawake id' (List.mem_cons_of_mem id hid')
    · exact fun id' hid' => htimers id' (List.mem_cons_of_mem id hid')

def Silent (now : Int) (n : WireNode) : Prop :=
  idleProbeAfter ≤ now - n.clocks.lastInboundDataFrame ∧
    idleProbeAfter ≤ now - n.clocks.lastIdleProbe

theorem idleProbeTarget_congr (htable : n'.table = n.table)
    (hconfirmed : ∀ id, (n'.paths id).directConfirmed = (n.paths id).directConfirmed) :
    n'.idleProbeTarget = n.idleProbeTarget := by
  unfold idleProbeTarget
  simp only [htable, hconfirmed]

theorem hasPeers_of_idleProbeTarget (h : n.idleProbeTarget = some w) : n.hasPeers = true := by
  by_contra hnone
  have hulas : n.table.byUla.keys = [] := by simpa [hasPeers, SessionTable.ulas] using hnone
  have hempty : n.table.snapshot = [] := by
    unfold SessionTable.snapshot AList.values
    rw [List.map_eq_nil_iff.mp hulas]
    rfl
  simp [idleProbeTarget, hempty] at h

theorem tick_eq (hinv : n.table.Inv) {order : SessionId → Nat} {answers : SessionId → TimerAnswers}
    {idle : SessionId → WgAction} (hset : n.clocks.lastInboundDataFrame ≠ 0)
    (hsound : ∀ id ∈ (n.table.visited order).map Prod.fst, (n.paths id).broken now = false)
    (hawake : ∀ id, (answers id).expired = false)
    (htimers : ∀ id bytes, (answers id).timers = some bytes → isWgDataFrame bytes = false)
    (htarget : n.idleProbeTarget = some w) {bytes : List UInt8}
    (hidle : idle w = .sendToPeer bytes) :
    ∃ n₁, Idles cfg n n₁ ∧
      (¬ n.Silent now ∧ n.tick cfg now order answers idle = n₁ ∨
        n.Silent now ∧ n.tick cfg now order answers idle =
          (n₁.setClocks { n₁.clocks with lastIdleProbe := now }).sendWire cfg now w bytes) := by
  have hidles : Idles cfg n
      (((n.table.visited order).map Prod.fst).foldl (tickSession cfg now answers) n) :=
    idles_foldl_tickSession answers (hinv.nodup_visited order) hsound (fun id _ => hawake id)
      (fun id _ => htimers id)
  unfold tick
  simp only
  generalize ((n.table.visited order).map Prod.fst).foldl (tickSession cfg now answers) n = n₁
    at hidles
  refine ⟨n₁, hidles, ?_⟩
  have hrx := hidles.sends.lastRx
  have hlp := hidles.lastIdleProbe
  have hpeers : n₁.hasPeers = true := by
    have hpeers := hasPeers_of_idleProbeTarget htarget
    unfold hasPeers at hpeers ⊢
    rw [hidles.sends.table]
    exact hpeers
  have hseed : n₁.setClocks (n₁.clocks.seed n₁.hasPeers now) = n₁ := by
    unfold LivenessClocks.seed
    rw [hrx]
    simp [hset, setClocks]
  have htarget₁ : n₁.idleProbeTarget = some w :=
    (idleProbeTarget_congr hidles.sends.table hidles.sends.confirmed).trans htarget
  rw [hseed]
  by_cases hsilent : n.Silent now
  · right
    refine ⟨hsilent, ?_⟩
    have hdue : n₁.clocks.shouldEmitIdleProbe n₁.hasPeers now idleProbeAfter =
        ({ n₁.clocks with lastIdleProbe := now }, true) := by
      unfold LivenessClocks.shouldEmitIdleProbe idleProbeDue
      simp [hpeers, hrx, hlp, hsilent.1, hsilent.2]
    have htarget₂ : (n₁.setClocks { n₁.clocks with lastIdleProbe := now }).idleProbeTarget = some w :=
      htarget₁
    unfold maybeIdleProbe
    simp only [hdue, htarget₂, hidle, sendSealed]
  · left
    refine ⟨hsilent, ?_⟩
    have hnot : n₁.clocks.shouldEmitIdleProbe n₁.hasPeers now idleProbeAfter = (n₁.clocks, false) := by
      unfold LivenessClocks.shouldEmitIdleProbe idleProbeDue
      rw [hrx, hlp, if_neg]
      intro hdue
      simp only [Bool.and_eq_true, decide_eq_true_eq] at hdue
      exact hsilent ⟨hdue.1.2, hdue.2⟩
    unfold maybeIdleProbe
    simp only [hnot]

def deliveries (n : WireNode) : Nat := n.log.countP WireEvent.isDelivered

structure Unheard (n n' : WireNode) : Prop where
  deliveries : n'.deliveries = n.deliveries
  lastRx : n'.clocks.lastInboundDataFrame = n.clocks.lastInboundDataFrame
  lastIdleProbe : n'.clocks.lastIdleProbe = n.clocks.lastIdleProbe
  dataRx : ∀ w, (n'.paths w).lastDirectDataRx = (n.paths w).lastDirectDataRx

theorem Unheard.refl (n : WireNode) : Unheard n n := ⟨rfl, rfl, rfl, fun _ => rfl⟩

theorem Unheard.trans (h : Unheard n n') (h' : Unheard n' n'') : Unheard n n'' :=
  ⟨h'.deliveries.trans h.deliveries, h'.lastRx.trans h.lastRx,
    h'.lastIdleProbe.trans h.lastIdleProbe, fun w => (h'.dataRx w).trans (h.dataRx w)⟩

theorem Sends.deliveries (h : Sends cfg n n') : n'.deliveries = n.deliveries := by
  obtain ⟨sent, hlog, -⟩ := h.log
  unfold WireNode.deliveries
  rw [hlog, List.countP_append, List.countP_map]
  have hnone : sent.countP (WireEvent.isDelivered ∘ WireEvent.sent) = 0 := by
    rw [List.countP_eq_zero]
    intro f _ hf
    simp [WireEvent.isDelivered] at hf
  omega

theorem unheard_sendWire : Unheard n (n.sendWire cfg now id bytes) := by
  have hsends : Sends cfg n (n.sendWire cfg now id bytes) := sends_sendWire bytes
  refine ⟨hsends.deliveries, hsends.lastRx, lastIdleProbe_sendWire bytes, ?_⟩
  intro w
  obtain ⟨events, hshows, hkind⟩ : Shown PathEvent.ofSending now w n (n.sendWire cfg now id bytes) :=
    shown_sendWire bytes w
  exact (hshows.moves.backs hkind).dataRx

theorem unheard_drain {source : Option SocketAddr} (frames : List (List UInt8)) :
    Unheard n (n.drain cfg now id source frames) := by
  induction frames generalizing n with
  | nil => exact .refl n
  | cons frame rest ih =>
    have hsent : Unheard (n.setQueue id rest) ((n.setQueue id rest).sendWire cfg now id frame) :=
      unheard_sendWire frame
    exact (⟨rfl, rfl, rfl, fun _ => rfl⟩ : Unheard n (n.setQueue id rest)).trans (hsent.trans ih)

theorem unheard_noteDirectRx : Unheard n (n.setPath id ((n.paths id).noteDirectRx now)) := by
  refine ⟨rfl, rfl, rfl, ?_⟩
  intro w
  by_cases hw : w = id
  · rw [hw, paths_setPath_self]
    rfl
  · rw [paths_setPath_of_ne hw]

inductive Inbound (now : Int) (direct : Bool) (n n' : WireNode) : Prop
  | nothing (h : Unheard n n')
  | packet (id : SessionId) (hs : (n'.table.heap.lookup id).isSome = true)
      (hdelivered : n'.deliveries = n.deliveries + 1)
      (hrx : n'.clocks.lastInboundDataFrame = max n.clocks.lastInboundDataFrame now)
      (hprobe : n'.clocks.lastIdleProbe = n.clocks.lastIdleProbe)
      (hdataRx : direct = true → (n'.paths id).lastDirectDataRx = now)

theorem Inbound.of_unheard {direct : Bool} (h : Unheard n n') (h' : Inbound now direct n' n'') :
    Inbound now direct n n'' := by
  cases h' with
  | nothing h' => exact .nothing (h.trans h')
  | packet id hs hdelivered hrx hprobe hdataRx =>
    refine .packet id hs ?_ ?_ (hprobe.trans h.lastIdleProbe) hdataRx
    · rw [hdelivered, h.deliveries]
    · rw [hrx, h.lastRx]

theorem inbound_act (source : Option SocketAddr) (action : WgAction) :
    Inbound now source.isSome n (n.act cfg now id source action) := by
  unfold act applyWgAction
  cases action with
  | nothing | error message => exact .nothing (unheard_drain _)
  | sendToPeer bytes => exact .nothing ((unheard_sendWire bytes).trans (unheard_drain _))
  | deliverToTun packet =>
    simp only
    cases hs : n.table.heap.lookup id with
    | none => exact .nothing (unheard_drain _)
    | some s =>
      by_cases hallowed : s.innerSourceAllowed packet = true
      · simp only [hallowed, if_true]
        generalize hfirst : n.deliver now id source packet = n₁
        have hdrained : Unheard n₁ (n₁.drain cfg now id source (n₁.queues id)) := unheard_drain _
        have hsends : Sends cfg n₁ (n₁.drain cfg now id source (n₁.queues id)) := sends_drain _
        refine .packet id ?_ ?_ ?_ ?_ ?_
        · rw [hsends.table, ← hfirst]
          cases source <;> exact Option.isSome_iff_exists.mpr ⟨s, hs⟩
        · rw [hdrained.deliveries, ← hfirst]
          cases source <;> exact List.countP_cons_of_pos rfl
        · rw [hdrained.lastRx, ← hfirst]
          cases source <;> rfl
        · rw [hdrained.lastIdleProbe, ← hfirst]
          cases source <;> rfl
        · intro hsource
          rw [hdrained.dataRx, ← hfirst]
          simp [deliver, hsource, emit, setClocks, setPath, PathState.confirmDirect]
      · simp only [hallowed]
        exact .nothing (unheard_drain _)

variable [Tunnels]

theorem unheard_decapsulate (datagram : List UInt8) : Unheard n (n.decapsulate id datagram).1 := by
  unfold decapsulate
  split
  · split <;> exact ⟨rfl, rfl, rfl, fun _ => rfl⟩
  · exact .refl n

theorem inbound_processInboundDatagram (source : Option SocketAddr) (datagram : List UInt8) :
    Inbound now source.isSome n (n.processInboundDatagram cfg now id source datagram) := by
  unfold processInboundDatagram
  simp only
  split
  · exact .of_unheard ((unheard_decapsulate datagram).trans unheard_noteDirectRx)
      (inbound_act source _)
  · exact .of_unheard (unheard_decapsulate datagram) (inbound_act source _)

theorem inbound_udpRecv (order : SessionId → Nat) (source : SocketAddr) (datagram : List UInt8) :
    Inbound now true n (n.udpRecv cfg now order source datagram) := by
  unfold udpRecv
  split
  · exact inbound_processInboundDatagram (some source) datagram
  · split
    · rename_i id s hslow
      have hlearned : Unheard (n.decapsulate id datagram).1 ((n.decapsulate id datagram).1.setTable
          ((n.decapsulate id datagram).1.table.learnEndpoint id source)) :=
        ⟨rfl, rfl, rfl, fun _ => rfl⟩
      exact .of_unheard ((unheard_decapsulate datagram).trans (hlearned.trans unheard_noteDirectRx))
        (inbound_act (some source) _)
    · exact .nothing (.refl n)

theorem inbound_handleInbound (buf : List UInt8) :
    Inbound now false n (n.handleInbound cfg now buf) := by
  unfold handleInbound
  split
  · exact .nothing (.refl n)
  · split
    · exact .nothing (.refl n)
    · exact inbound_processInboundDatagram none _

end WireNode

end ServiceMesh
