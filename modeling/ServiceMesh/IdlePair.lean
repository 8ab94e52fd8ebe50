import ServiceMesh.IdleMesh

/-! Two idle nodes with a confirmed direct path between them: whether the probes that they send keep
the path alive. -/

namespace ServiceMesh

open StdNet (Ipv6Addr SocketAddr)

namespace PathState

variable {now : Int} {p p' : PathState} {events : List PathEvent}

structure Fresh (since now : Int) (p : PathState) : Prop where
  confirmed : p.directConfirmed = true
  since : since ≤ p.lastDirectDataRx
  heard : p.lastDirectDataRx ≤ p.lastDirectRx
  past : p.lastDirectDataRx ≤ now

theorem Moves.fresh {since : Int} (h : Moves now p events p') (hp : p.Fresh since now)
    (hkeeps : .downgraded ∉ events) : p'.Fresh since now := by
  have hlater : since ≤ now := Int.le_trans hp.since hp.past
  refine h.invariant (I := Fresh since now) ?_ hp
  intro q e he hq _
  cases e with
  | sentData | probed | skipped | rearmed base =>
    exact ⟨hq.confirmed, hq.since, hq.heard, hq.past⟩
  | heard => exact ⟨hq.confirmed, hq.since, hq.past, hq.past⟩
  | confirmed => exact ⟨rfl, hlater, Int.le_refl now, Int.le_refl now⟩
  | downgraded => exact absurd he hkeeps

theorem Fresh.not_txBlackholed {since : Int} (h : p.Fresh since now)
    (hrecent : now - since ≤ directTxBlackholeTtl) :
    p.txBlackholed now directTxBlackholeTtl = false := by
  have hsince := h.since
  have hage : ¬ directTxBlackholeTtl < now - p.lastDirectDataRx := by omega
  unfold txBlackholed
  simp [hage]

theorem Fresh.not_broken {since : Int} (h : p.Fresh since now)
    (hrecent : now - since ≤ directTxBlackholeTtl) : p.broken now = false := by
  have hsince := h.since
  have hheard := h.heard
  have hlonger : directTxBlackholeTtl ≤ directPathTtl := by decide
  have hage : ¬ directPathTtl < now - p.lastDirectRx := by omega
  unfold broken stale
  simp [hage, h.not_txBlackholed hrecent]

end PathState

namespace WireNode

variable {cfg : WireConfig} {now since : Int} {w id : SessionId} {n n' : WireNode}

structure Lone (w : SessionId) (key : List UInt8) (n : WireNode) : Prop where
  values : n.table.byUla.values = [w]
  session : ∃ s, n.table.heap.lookup w = some s ∧ s.peerPubkey = key ∧ s.endpoint.isSome = true
  only : ∀ id, (n.table.heap.lookup id).isSome = true → id = w

variable {key : List UInt8}

theorem Lone.of_table (h : n.Lone w key) (htable : n'.table = n.table) : n'.Lone w key :=
  ⟨htable ▸ h.values, htable ▸ h.session, htable ▸ h.only⟩

theorem Lone.snapshot (h : n.Lone w key) : ∃ s, n.table.snapshot = [(w, s)] := by
  obtain ⟨s, hs, -⟩ := h.session
  refine ⟨s, ?_⟩
  unfold SessionTable.snapshot
  rw [h.values]
  simp [hs]

theorem Lone.visited (h : n.Lone w key) (order : SessionId → Nat) :
    (n.table.visited order).map Prod.fst = [w] := by
  obtain ⟨s, hs⟩ := h.snapshot
  unfold SessionTable.visited
  rw [hs, List.mergeSort_singleton]
  rfl

theorem Lone.idleProbeTarget (h : n.Lone w key) (hconfirmed : (n.paths w).directConfirmed = true) :
    n.idleProbeTarget = some w := by
  obtain ⟨s, hs⟩ := h.snapshot
  unfold WireNode.idleProbeTarget
  simp [hs, hconfirmed]

theorem Lone.relayed_of_follows (h : n.Lone w key) (hconfirmed : (n.paths w).directConfirmed = true)
    {f : Sending} (hf : Follows cfg n f) : f.site ≠ .dataProbe ∧ (f.site = .wire → f.relayed = []) := by
  obtain ⟨s, hs, hsite⟩ := hf
  have hsession : f.session = w := h.only f.session (Option.isSome_iff_exists.mpr ⟨s, hs⟩)
  obtain ⟨s', hs', -, hendpoint⟩ := h.session
  rw [hsession] at hs hsite
  obtain rfl := Option.some.inj (hs'.symm.trans hs)
  cases hkind : f.site with
  | wire =>
    refine ⟨by simp, fun _ => ?_⟩
    simp only [hkind] at hsite
    rcases hsite with ⟨-, -, -, hrelayed⟩ | ⟨hfloor, -⟩ | ⟨-, -, hrelayed⟩
    · exact hrelayed
    · exact absurd ⟨hconfirmed, hendpoint⟩ hfloor
    · exact hrelayed
  | dataProbe =>
    simp only [hkind] at hsite
    exact absurd (hconfirmed.symm.trans hsite.1) (by simp)
  | floored | punch => exact ⟨by simp, by simp⟩

variable [Crates] [Tunnels]

theorem Lone.inbound (h : n.Lone w key) {op : WireOp} (hop : op.isInbound = true) :
    (n.step cfg now op).Lone w key := by
  cases op with
  | datagram order source bytes =>
    have hulas : (n.udpRecv cfg now order source bytes).table.byUla = n.table.byUla := by
      have hreceived := received cfg now n order source bytes
      generalize n.udpRecv cfg now order source bytes = n' at hreceived
      cases hreceived with
      | known hid hs hhandled => rw [hhandled.table]
      | learned hunknown hat htaken hhandled =>
        rw [hhandled.table]
        rfl
      | unclaimed => rfl
    refine ⟨?_, ?_, ?_⟩
    · show (n.udpRecv cfg now order source bytes).table.byUla.values = [w]
      rw [hulas]
      exact h.values
    · obtain ⟨s, hs, hkey, hendpoint⟩ := h.session
      show ∃ s, (n.udpRecv cfg now order source bytes).table.heap.lookup w = some s ∧ _
      rw [session_udpRecv, hs]
      refine ⟨_, rfl, ?_⟩
      split
      · rw [(s.sameSession_learn source).peerPubkey, PeerSession.endpoint_learn]
        exact ⟨hkey, rfl⟩
      · exact ⟨hkey, hendpoint⟩
    · intro id
      show ((n.udpRecv cfg now order source bytes).table.heap.lookup id).isSome = true → id = w
      rw [session_udpRecv, Option.isSome_map]
      exact h.only id
  | relayed buf => exact h.of_table (table_handleInbound buf)
  | upsert | remove | appRoutes | relayWake | tun | tick | converge | punch =>
    simp [WireOp.isInbound] at hop

theorem fresh_step (hinv : n.table.Inv) {op : WireOp} (hp : (n.paths w).Fresh since now)
    (hsound : ∀ order answers idle, op = .tick order answers idle → (n.paths w).broken now = false) :
    ((n.step cfg now op).paths w).Fresh since now := by
  obtain ⟨rest, hshows, hrest, -⟩ := shows_step hinv cfg now op w
  refine hshows.moves.fresh hp ?_
  intro hmem
  rcases List.mem_append.mp hmem with hmem | hmem
  · cases op with
    | datagram order source bytes =>
      simp only [leading] at hmem
      split at hmem <;> simp at hmem
    | tick order answers idle => simp [leading, hsound order answers idle rfl] at hmem
    | upsert | remove | appRoutes | relayWake | relayed | tun | converge | punch =>
      simp [leading] at hmem
  · have hturning := hrest _ hmem
    simp [PathEvent.isTurning] at hturning

theorem fresh_inbound (hinv : n.table.Inv) {op : WireOp} (hp : (n.paths w).Fresh since now)
    (hop : op.isInbound = true) : ((n.step cfg now op).paths w).Fresh since now := by
  refine fresh_step hinv hp ?_
  intro order answers idle heq
  rw [heq] at hop
  simp [WireOp.isInbound] at hop

end WireNode

structure Net.PairStart (ms : Members Bool) (w : Bool → SessionId) (start : Int) (net : Net Bool) :
    Prop extends net.Start ms start where
  owner : ∀ x, ms.owner (ms.key x) = some x
  lone : ∀ x, (net.node x).Lone (w x) (ms.key (!x))
  confirmed : ∀ x, ((net.node x).paths (w x)).directConfirmed = true
  dataTx : ∀ x, ((net.node x).paths (w x)).lastDirectDataTx = start
  dataRx : ∀ x, ((net.node x).paths (w x)).lastDirectDataRx = start
  directRx : ∀ x, start ≤ ((net.node x).paths (w x)).lastDirectRx

structure Net.Paired (ms : Members Bool) (w : Bool → SessionId) (net : Net Bool) : Prop where
  lone : ∀ x, (net.node x).Lone (w x) (ms.key (!x))
  fresh : ∀ x, ((net.node x).paths (w x)).Fresh (net.node x).clocks.lastInboundDataFrame net.now
  flights : ∀ m ∈ net.inFlight, m.frame.relayed = []

section Pair

variable {ms : Members Bool} {w : Bool → SessionId} {start : Int} {net₀ net : Net Bool}

theorem Net.PairStart.paired (h : net.PairStart ms w start) : net.Paired ms w := by
  refine ⟨h.lone, ?_, by simp [h.inFlight]⟩
  intro x
  have hrx := h.lastRx x
  have hdataRx := h.dataRx x
  have hdirectRx := h.directRx x
  have hnow := h.now
  exact ⟨h.confirmed x, by omega, by omega, by omega⟩

theorem Net.Paired.steady (h : net.Paired ms w) (howner : ∀ x, ms.owner (ms.key x) = some x)
    (hrecent : ∀ x, net.now - (net.node x).clocks.lastInboundDataFrame ≤ directTxBlackholeTtl)
    (op : NetOp Bool) : net.Steady ms (fun x => !x) op := by
  cases op with
  | tick x order answers idle =>
    refine ⟨?_, ?_⟩
    · intro id hid
      rw [(h.lone x).visited order, List.mem_singleton] at hid
      rw [hid]
      exact (h.fresh x).not_broken (hrecent x)
    · obtain ⟨s, hs, hkey, -⟩ := (h.lone x).session
      unfold Net.target Members.addressee
      rw [(h.lone x).idleProbeTarget (h.fresh x).confirmed]
      simp [hs, hkey, howner]
  | wait | arrive | control => trivial

variable [Crates] [Tunnels]

omit [Crates] [Tunnels] in
theorem Net.Paired.work (h : net.Paired ms w) {x : Bool} {n' : WireNode}
    (hlone : n'.Lone (w x) (ms.key (!x)))
    (hfresh : (n'.paths (w x)).Fresh n'.clocks.lastInboundDataFrame net.now)
    {sent left : List (Flight Bool)} (hsent : ∀ m ∈ sent, m.frame.relayed = [])
    (hleft : ∀ m ∈ left, m ∈ net.inFlight) (nextTick : Bool → Int) :
    (⟨net.now, Function.update net.node x n', nextTick, sent ++ left⟩ : Net Bool).Paired ms w := by
  refine ⟨?_, ?_, ?_⟩
  · exact (Function.forall_update_iff net.node fun x n => n.Lone (w x) (ms.key (!x))).mpr
      ⟨hlone, fun y _ => h.lone y⟩
  · exact (Function.forall_update_iff net.node
      fun x n => (n.paths (w x)).Fresh n.clocks.lastInboundDataFrame net.now).mpr
        ⟨hfresh, fun y _ => h.fresh y⟩
  · intro m hm
    rcases List.mem_append.mp hm with hm | hm
    · exact hsent m hm
    · exact h.flights m (hleft m hm)

theorem Net.Paired.tick (h : net.Paired ms w) (hnodes : ∀ x, (net.node x).Tended (ms.cfg x))
    {x : Bool} {order : SessionId → Nat} {answers : SessionId → TimerAnswers}
    {idle : SessionId → WgAction} (hup : Established answers idle)
    (hsteady : net.Steady ms (fun x => !x) (.tick x order answers idle)) :
    (net.step ms (.tick x order answers idle)).Paired ms w := by
  have hsound : ((net.node x).paths (w x)).broken net.now = false := by
    refine hsteady.1 (w x) ?_
    rw [(h.lone x).visited order]
    exact List.mem_singleton_self _
  have hfresh : (((net.node x).step (ms.cfg x) net.now (.tick order answers idle)).paths (w x)).Fresh
      (net.node x).clocks.lastInboundDataFrame net.now :=
    WireNode.fresh_step (hnodes x).table (h.fresh x) (fun _ _ _ _ => hsound)
  have hdirect : ∀ f, WireNode.Follows (ms.cfg x) (net.node x) f →
      f.site ≠ .dataProbe ∧ (f.site = .wire → f.relayed = []) :=
    fun f hf => (h.lone x).relayed_of_follows (h.fresh x).confirmed hf
  unfold Net.step Net.work
  simp only
  generalize hn' : (net.node x).step (ms.cfg x) net.now (.tick order answers idle) = n' at hfresh
  obtain ⟨hsends, extra, hextra, hcases⟩ :=
    (hnodes x).tick ms x hup hsteady.1 hsteady.2 hn'.symm
  refine h.work ((h.lone x).of_table hsends.table) (hsends.lastRx ▸ hfresh) ?_ (fun m hm => hm) _
  have hnone : ∀ m ∈ extra, m.frame.relayed = [] := by
    intro m hm
    obtain ⟨-, -, hsite, hfollows⟩ := hextra m hm
    exact absurd hsite (hdirect m.frame hfollows).1
  rcases hcases with ⟨-, -, hflights⟩ | ⟨-, -, f, hsite, hfollows, hflights⟩
  · rw [hflights]
    exact hnone
  · rw [hflights]
    intro m hm
    rcases List.mem_cons.mp hm with rfl | hm
    · exact (hdirect f hfollows).2 hsite
    · exact hnone m hm

theorem Net.Paired.arrive (h : net.Paired ms w) (hnodes : ∀ x, (net.node x).Tended (ms.cfg x))
    {m : Flight Bool} {order : SessionId → Nat} {source : Option SocketAddr}
    (hpermits : net.Permits ms (.arrive m order source)) :
    (net.step ms (.arrive m order source)).Paired ms w := by
  obtain ⟨hm, hway, hsilent, hone⟩ := hpermits
  have hsource : source.isSome = true := by
    by_contra hrelayed
    rw [if_neg hrelayed] at hway
    exact hway (h.flights m hm)
  have hop := ms.isInbound_arrival m order source
  have hlone : ((net.node m.dst).step (ms.cfg m.dst) net.now (ms.arrival m order source)).Lone
      (w m.dst) (ms.key (!m.dst)) := (h.lone m.dst).inbound hop
  have hfresh : (((net.node m.dst).step (ms.cfg m.dst) net.now (ms.arrival m order source)).paths
      (w m.dst)).Fresh (net.node m.dst).clocks.lastInboundDataFrame net.now :=
    WireNode.fresh_inbound (hnodes m.dst).table (h.fresh m.dst) hop
  have hinbound : WireNode.Inbound net.now source.isSome (net.node m.dst)
      ((net.node m.dst).step (ms.cfg m.dst) net.now (ms.arrival m order source)) :=
    WireNode.inbound_arrival m order source
  unfold Net.step Net.work
  simp only
  rw [hsilent]
  generalize (net.node m.dst).step (ms.cfg m.dst) net.now (ms.arrival m order source) = n'
    at hlone hfresh hinbound hone
  refine h.work hlone ?_ (by simp) (fun m' hm' => List.mem_of_mem_erase hm') _
  cases hinbound with
  | nothing hunheard =>
    have hnone := hunheard.deliveries
    omega
  | packet id hs hdelivered hrx hprobe hdataRx =>
    rw [hlone.only id hs] at hdataRx
    have hpast := hfresh.past
    have hsince := hfresh.since
    refine ⟨hfresh.confirmed, ?_, hfresh.heard, hpast⟩
    rw [hrx, hdataRx hsource]
    omega

theorem Net.Paired.control (h : net.Paired ms w) (hnodes : ∀ x, (net.node x).Tended (ms.cfg x))
    {x : Bool} {op : WireOp} (hpermits : net.Permits ms (.control x op)) :
    (net.step ms (.control x op)).Paired ms w := by
  obtain ⟨hop, hsilent, hnone⟩ := hpermits
  obtain ⟨direct, hinbound⟩ : ∃ direct, WireNode.Inbound net.now direct (net.node x)
      ((net.node x).step (ms.cfg x) net.now op) := WireNode.inbound_step hop
  have hfresh : (((net.node x).step (ms.cfg x) net.now op).paths (w x)).Fresh
      (net.node x).clocks.lastInboundDataFrame net.now :=
    WireNode.fresh_inbound (hnodes x).table (h.fresh x) hop
  unfold Net.step Net.work
  simp only
  rw [hsilent]
  refine h.work ((h.lone x).inbound hop) ?_ (by simp) (fun m hm => hm) _
  cases hinbound with
  | nothing hunheard =>
    rw [hunheard.lastRx]
    exact hfresh
  | packet id hs hdelivered => omega

theorem Net.Paired.step (h : net.Paired ms w) (hnodes : ∀ x, (net.node x).Tended (ms.cfg x))
    {op : NetOp Bool} (hpermits : net.Permits ms op) (hsteady : net.Steady ms (fun x => !x) op) :
    (net.step ms op).Paired ms w := by
  cases op with
  | wait t =>
    refine ⟨h.lone, fun x => ?_, h.flights⟩
    have hfresh := h.fresh x
    exact ⟨hfresh.confirmed, hfresh.since, hfresh.heard, Int.le_trans hfresh.past hpermits.1⟩
  | tick x order answers idle => exact h.tick hnodes hpermits.2 hsteady
  | arrive m order source => exact h.arrive hnodes hpermits
  | control x op => exact h.control hnodes hpermits

theorem Net.PairStart.reach (h₀ : net₀.PairStart ms w start)
    (h : Net.Reached ms (fun net op => net.Permits ms op ∧ net.Ready op) net₀ net) :
    Pulses.Reach idleTiming (fun x => !x) (fun _ => False) net₀.pulses net.pulses ∧
      net.Paired ms w := by
  obtain ⟨tr, hrun⟩ := h
  have hall : Pulses.Reach idleTiming (fun x => !x) (fun _ => False) net₀.pulses net.pulses ∧
      net.Paired ms w ∧ ∀ x, (net.node x).Tended (ms.cfg x) := by
    refine hrun.invariant (I := fun _ net => Pulses.Reach idleTiming (fun x => !x) (fun _ => False)
      net₀.pulses net.pulses ∧ net.Paired ms w ∧ ∀ x, (net.node x).Tended (ms.cfg x))
      ⟨.refl, h₀.paired, h₀.tended⟩ ?_
    intro tr net op _ ih _ hop
    obtain ⟨hreach, hpaired, hnodes⟩ := ih
    have hsteady : net.Steady ms (fun x => !x) op := by
      refine hpaired.steady h₀.owner ?_ op
      intro x
      have hsilence := Pulses.pair_silence_le idleTiming_sound h₀.pulses hreach x
      have hbound : idleTiming.after + idleTiming.period + 2 * idleTiming.delay ≤
          directTxBlackholeTtl := by decide
      exact Int.le_trans hsilence hbound
    have hstray : ∀ m : Flight Bool, m.frame.site = .dataProbe →
        WireNode.Follows (ms.cfg m.src) (net.node m.src) m.frame → False := by
      intro m hsite hfollows
      exact ((hpaired.lone m.src).relayed_of_follows (hpaired.fresh m.src).confirmed hfollows).1 hsite
    exact ⟨hreach.trans (Net.sim_step hnodes hstray hop.1 hop.2 hsteady),
      hpaired.step hnodes hop.1 hsteady, Net.tended_step hnodes hop.1 hsteady⟩
  exact ⟨hall.1, hall.2.1⟩

theorem idle_pair_stays_direct (h₀ : net₀.PairStart ms w start)
    (h : Net.Reached ms (fun net op => net.Permits ms op ∧ net.Ready op) net₀ net) (x : Bool) :
    ((net.node x).paths (w x)).directConfirmed = true ∧
      (net.node x).downgradeDirectIfTxBlackholed net.now (w x) = net.node x := by
  obtain ⟨hreach, hpaired⟩ := h₀.reach h
  have hsilence := Pulses.pair_silence_le idleTiming_sound h₀.pulses hreach x
  have hbound : idleTiming.after + idleTiming.period + 2 * idleTiming.delay ≤
      directTxBlackholeTtl := by decide
  have hfresh := hpaired.fresh x
  refine ⟨hfresh.confirmed, ?_⟩
  unfold WireNode.downgradeDirectIfTxBlackholed
  rw [hfresh.not_txBlackholed (Int.le_trans hsilence hbound), if_neg Bool.false_ne_true]

end Pair

section Example

attribute [local instance] referenceCrates framedTunnels

theorem pairStart_pairNet {lag : Int} (hlag : 0 ≤ lag ∧ lag ≤ timerInterval) :
    (pairNet true lag).PairStart pairMembers (fun _ => 0) pairStart := by
  refine ⟨start_pairNet true hlag, by decide, ?_, fun _ => rfl, fun _ => rfl, fun _ => rfl,
    fun _ => Int.le_refl _⟩
  intro x
  have hvalues : (pairNode true x).table.byUla.values = [0] := by
    cases x <;> decide
  have hkeys : (pairNode true x).table.heap.keys = [0] := by
    cases x <;> decide
  have hsession : ((pairNode true x).table.heap.lookup 0).map (fun s => (s.peerPubkey, s.endpoint)) =
      some (pairKey (!x), some (pairAddr (!x))) := by
    cases x <;> decide
  refine ⟨hvalues, ?_, ?_⟩
  · obtain ⟨s, hs, hfields⟩ := Option.map_eq_some_iff.mp hsession
    obtain ⟨hkey, hendpoint⟩ := Prod.mk.inj hfields
    exact ⟨s, hs, hkey, by rw [hendpoint]; rfl⟩
  · intro id hid
    have hmem := AList.mem_keys.mp (AList.lookup_isSome.mp hid)
    rwa [show (pairNet true lag).node x = pairNode true x from rfl, hkeys, List.mem_singleton] at hmem

theorem idle_pair_stays_direct_refreshed :
    ((refreshedNet true).node true).clocks.lastIdleProbe = 23600000 ∧
      (((refreshedNet true).node true).paths 0).directConfirmed = true ∧
      ((refreshedNet true).node true).downgradeDirectIfTxBlackholed (refreshedNet true).now 0 =
        (refreshedNet true).node true := by
  refine ⟨by decide +kernel, ?_⟩
  have hreached : Net.Reached pairMembers (fun net op => net.Permits pairMembers op ∧ net.Ready op)
      (pairNet true 0) (refreshedNet true) :=
    (reached_refreshedNet true).mono (fun _ _ hop => ⟨hop.1, (hop.2 rfl).1⟩)
  exact idle_pair_stays_direct (pairStart_pairNet (by decide)) hreached true

def flappingMoves : List PairMove :=
  [.rest 112, .tick true, .wait 100000, .tick false, .arrive, .wait 100000, .rest 37, .tick true,
    .wait 100000]

def flappingNet : Net Bool := flappingMoves.foldl Net.move (pairNet true 100000)

theorem idle_pair_downgraded :
    (pairNet true 100000).PairStart pairMembers (fun _ => 0) pairStart ∧
      Net.Reached pairMembers (Net.Permits pairMembers) (pairNet true 100000) flappingNet ∧
      flappingNet.nextTick false = flappingNet.now ∧
      ((flappingNet.node false).paths 0).directConfirmed = true ∧
      (((flappingNet.node false).downgradeDirectIfTxBlackholed flappingNet.now 0).paths
        0).directConfirmed = false := by
  have hallowed : PairMove.AllAllowed false (pairNet true 100000) flappingMoves := by
    decide +kernel
  refine ⟨pairStart_pairNet (by decide), ?_, by decide +kernel, by decide +kernel, by decide +kernel⟩
  exact (reached_moves ⟨[], .start⟩ hallowed).mono (fun _ _ hop => hop.1)

end Example

end ServiceMesh
