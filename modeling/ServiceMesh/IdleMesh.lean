import ServiceMesh.IdleNet

/-! How long a node of an idle mesh can go without hearing anything: for ever, unless the probes come
at the right time. -/

namespace ServiceMesh

open StdNet (Ipv6Addr SocketAddr)

def stillAnswers : SessionId → TimerAnswers := fun _ => ⟨false, .nothing, none, true, .nothing⟩

namespace WireNode

variable {cfg : WireConfig} {now last : Int} {id : SessionId} {n : WireNode} {s : PeerSession}

def Rests (last : Int) (n : WireNode) : Prop :=
  n.clocks.lastInboundDataFrame ≠ 0 ∧
    last < max n.clocks.lastInboundDataFrame n.clocks.lastIdleProbe + idleProbeAfter ∧
    ∀ c ∈ n.table.snapshot,
      if (n.paths c.1).directConfirmed = true
      then last ≤ (n.paths c.1).lastDirectRx + directPathTtl ∧
        last ≤ (n.paths c.1).lastDirectDataRx + directTxBlackholeTtl
      else c.2.endpoint = none

instance (last : Int) (n : WireNode) : Decidable (n.Rests last) := by
  unfold Rests
  infer_instance

theorem tickSession_eq_self (hs : n.table.heap.lookup id = some s) (hnow : now ≤ last)
    (hpath : if (n.paths id).directConfirmed = true
      then last ≤ (n.paths id).lastDirectRx + directPathTtl ∧
        last ≤ (n.paths id).lastDirectDataRx + directTxBlackholeTtl
      else s.endpoint = none) :
    n.tickSession cfg now stillAnswers id = n := by
  have hsound : (n.paths id).broken now = false := by
    rw [← Bool.not_eq_true, PathState.broken_iff]
    rintro ⟨hconfirmed, hbroken⟩
    rw [if_pos hconfirmed] at hpath
    omega
  have hrearm : n.maybeRearmExpiredSession cfg now id (stillAnswers id) = (n, false) := by
    unfold maybeRearmExpiredSession
    simp [hs, stillAnswers]
  have hprobe : n.maybeDirectDataProbe cfg now id (stillAnswers id) = n := by
    unfold maybeDirectDataProbe
    split
    · rename_i relay endpoint hrelay hendpoint
      have hconfirmed : (n.paths id).directConfirmed = true := by
        by_contra hunconfirmed
        rw [if_neg hunconfirmed] at hpath
        simp [hs, hpath] at hendpoint
      simp [hconfirmed]
    · rfl
  unfold tickSession
  simp only [downgrades_eq, hsound, Bool.false_eq_true, if_false, hrearm]
  exact hprobe

theorem tick_eq_self (h : n.Rests last) (hnow : now ≤ last) (order : SessionId → Nat)
    (idle : SessionId → WgAction) : n.tick cfg now order stillAnswers idle = n := by
  obtain ⟨hset, hquiet, hpaths⟩ := h
  have hfold : ∀ l : List (SessionId × PeerSession), (∀ c ∈ l, c ∈ n.table.snapshot) →
      (l.map Prod.fst).foldl (tickSession cfg now stillAnswers) n = n := by
    intro l hl
    induction l with
    | nil => rfl
    | cons c l ih =>
      have hc := hl c List.mem_cons_self
      obtain ⟨ula, hat⟩ := SessionTable.mem_snapshot_iff.mp hc
      have hs := (SessionTable.sessionAt_eq_some_iff.mp hat).2
      have hfirst : n.tickSession cfg now stillAnswers c.1 = n :=
        tickSession_eq_self hs hnow (hpaths c hc)
      rw [List.map_cons, List.foldl_cons, hfirst]
      exact ih (fun c' hc' => hl c' (List.mem_cons_of_mem c hc'))
  have hseed : n.clocks.seed n.hasPeers now = n.clocks := by
    unfold LivenessClocks.seed
    simp [hset]
  have hnone : n.clocks.shouldEmitIdleProbe n.hasPeers now idleProbeAfter = (n.clocks, false) := by
    unfold LivenessClocks.shouldEmitIdleProbe idleProbeDue
    rw [if_neg]
    intro hdue
    simp only [Bool.and_eq_true, decide_eq_true_eq] at hdue
    omega
  unfold tick
  simp only
  rw [hfold _ (fun c hc => by rwa [SessionTable.visited, List.mem_mergeSort] at hc), hseed]
  show n.maybeIdleProbe cfg now idle = n
  unfold maybeIdleProbe
  rw [hnone]

end WireNode

section Tick

variable {ι : Type} {ms : Members ι} {net : Net ι}

theorem Members.flights_self (now : Int) (i : ι) (n : WireNode) : ms.flights now i n n = [] := by
  unfold Members.flights WireNode.sentSince
  simp

variable [DecidableEq ι] [Crates] [Tunnels]

theorem Net.tick_eq_of_rests {i : ι} {last : Int} (h : (net.node i).Rests last)
    (hnow : net.now ≤ last) (order : SessionId → Nat) (idle : SessionId → WgAction) :
    net.step ms (.tick i order stillAnswers idle) =
      { net with nextTick := Function.update net.nextTick i (net.now + timerInterval) } := by
  have hsame : (net.node i).step (ms.cfg i) net.now (.tick order stillAnswers idle) = net.node i :=
    WireNode.tick_eq_self h hnow order idle
  unfold Net.step Net.work
  simp only [hsame, Members.flights_self, Function.update_eq_self, List.nil_append]

def Net.Reached (ms : Members ι) (C : Net ι → NetOp ι → Prop) (net₀ net : Net ι) : Prop :=
  ∃ tr, (idleNet ms net₀).Run C tr net

theorem Net.Reached.mono {C D : Net ι → NetOp ι → Prop} {net₀ : Net ι}
    (h : Net.Reached ms C net₀ net) (hCD : ∀ net op, C net op → D net op) :
    Net.Reached ms D net₀ net := by
  obtain ⟨tr, hrun⟩ := h
  exact ⟨tr, hrun.mono hCD⟩

theorem Net.Reached.step {C : Net ι → NetOp ι → Prop} {net₀ net' : Net ι}
    (h : Net.Reached ms C net₀ net) (op : NetOp ι) (hop : C net op) (heq : net.step ms op = net') :
    Net.Reached ms C net₀ net' := by
  obtain ⟨tr, hrun⟩ := h
  subst heq
  exact ⟨_, hrun.step op trivial hop⟩

end Tick

section Pair

@[reducible] def framedTunnels : Tunnels where
  decapsulate key
    | 4 :: datagram => Reference.decapsulate key datagram
    | _ => .error "InvalidPacket"
  producer
    | 4 :: datagram => (Reference.parseDatagram datagram).map Prod.fst
    | _ => none
  accepts_iff key datagram := by
    split
    · exact referenceTunnels.accepts_iff key _
    · simp
  encapsulate key packet := 4 :: Reference.encapsulate key packet
  decapsulate_probe := referenceTunnels.decapsulate_probe

attribute [local instance] referenceCrates framedTunnels

def pairKey (x : Bool) : List UInt8 := List.replicate 32 (if x then 2 else 1)

def pairUla (x : Bool) : Ipv6Addr := ⟨0xfd00, 0, 0, 0, 0, 0, 0, if x then 2 else 1⟩

def pairAddr (x : Bool) : SocketAddr := .v4 ⟨192, 0, 2, if x then 2 else 1⟩ 7

def pairPeer (direct x : Bool) : Client.PeerInfo :=
  ⟨if x then 2 else 1, pairKey x, pairUla x, if direct then some (pairAddr x) else none, []⟩

def pairMembers : Members Bool where
  cfg x := ⟨some ⟨false⟩, pairUla x⟩
  key := pairKey
  owner key := if key = pairKey true then some true
    else if key = pairKey false then some false else none

def pairStart : Int := 1000000

def pairPath (direct : Bool) : PathState :=
  { PathState.fresh with
    directConfirmed := direct
    lastDirectRx := pairStart
    lastDirectDataTx := pairStart
    lastDirectDataRx := pairStart }

def pairNode (direct x : Bool) : WireNode :=
  ⟨SessionTable.new.upsert (pairPeer direct (!x)), fun _ => pairPath direct, fun _ => [], [],
    ⟨pairStart, 0, 0⟩, []⟩

def pairNet (direct : Bool) (lag : Int) : Net Bool :=
  ⟨pairStart, pairNode direct, fun x => if x then pairStart else pairStart + lag, []⟩

theorem start_pairNet (direct : Bool) {lag : Int} (hlag : 0 ≤ lag ∧ lag ≤ timerInterval) :
    (pairNet direct lag).Start pairMembers pairStart := by
  have hinterval : timerInterval = 200000 := rfl
  have hprobe : (0 : Int) ≤ pairStart := by decide
  refine ⟨by decide, rfl, fun _ => rfl, fun _ => hprobe, ?_, rfl, ?_, ?_, fun _ _ _ _ => .inl rfl⟩
  · intro x
    show pairStart ≤ (if x then pairStart else pairStart + lag) ∧
      (if x then pairStart else pairStart + lag) ≤ pairStart + timerInterval
    split <;> omega
  · exact fun x => SessionTable.inv_new.upsert _
  · intro x y hne
    obtain rfl : y = !x := by
      cases x <;> cases y <;> simp at hne ⊢
    have hfirst : ((pairNode direct x).table.sessionAt (pairUla (!x))).map Prod.fst = some 0 := by
      clear hne hlag
      revert direct x
      decide
    have howner : pairMembers.addressee (pairNode direct x) 0 = some (!x) := by
      clear hne hlag hfirst
      revert direct x
      decide
    obtain ⟨⟨id, s⟩, hat, rfl⟩ := Option.map_eq_some_iff.mp hfirst
    exact ⟨pairUla (!x), 0, s, hat, howner⟩

def pairProbe (x : Bool) : List UInt8 :=
  4 :: Reference.encapsulate (pairKey x) (directProbePacket (pairUla x) (pairUla (!x)))

def pairTick (x : Bool) : NetOp Bool :=
  .tick x (fun _ => 0) stillAnswers (fun _ => .sendToPeer (pairProbe x))

theorem established_pairProbe (x : Bool) :
    Established stillAnswers (fun _ => .sendToPeer (pairProbe x)) := by
  refine ⟨fun _ => rfl, by simp [stillAnswers], fun _ => ⟨pairProbe x, rfl, ?_⟩⟩
  cases x <;> decide

def pairArrival (m : Flight Bool) : NetOp Bool :=
  .arrive m (fun _ => 0) (m.frame.udp.map (fun _ => pairAddr m.src))

inductive PairMove
  | wait (span : Int)
  | tick (x : Bool)
  | arrive
  | rest (rounds : Nat)

def Net.skip (net : Net Bool) (rounds : Nat) : Net Bool :=
  { net with
    now := net.now + rounds * timerInterval
    nextTick := fun x => net.nextTick x + rounds * timerInterval }

def Net.move (net : Net Bool) : PairMove → Net Bool
  | .wait span => net.step pairMembers (.wait (net.now + span))
  | .tick x => net.step pairMembers (pairTick x)
  | .arrive => net.inFlight.head?.elim net (fun m => net.step pairMembers (pairArrival m))
  | .rest rounds => net.skip rounds

def PairCondition (strict : Bool) (net : Net Bool) (op : NetOp Bool) : Prop :=
  net.Permits pairMembers op ∧
    (strict = true → net.Ready op ∧ net.Steady pairMembers (fun x => !x) op)

variable {strict : Bool} {net : Net Bool}

theorem pairCondition_of_rests {x : Bool} {last : Int} (hrests : (net.node x).Rests last)
    (hnow : net.now ≤ last) (htick : net.nextTick x = net.now)
    (htarget : net.target pairMembers x = some (!x)) : PairCondition strict net (pairTick x) := by
  refine ⟨⟨htick, established_pairProbe x⟩, fun _ => ⟨trivial, ?_, htarget⟩⟩
  intro id hid
  obtain ⟨c, hc, rfl⟩ := List.mem_map.mp hid
  rw [SessionTable.visited, List.mem_mergeSort] at hc
  have hpath := hrests.2.2 c hc
  rw [← Bool.not_eq_true, PathState.broken_iff]
  rintro ⟨hconfirmed, hbroken⟩
  rw [if_pos hconfirmed] at hpath
  omega

theorem reached_round {net₀ : Net Bool} {last : Int}
    (h : Net.Reached pairMembers (PairCondition strict) net₀ net) (hflying : net.inFlight = [])
    (hfirst : net.nextTick true = net.now)
    (hsecond : net.now ≤ net.nextTick false ∧ net.nextTick false ≤ net.now + timerInterval)
    (hrests : ∀ x, (net.node x).Rests last) (hlast : net.now + timerInterval ≤ last)
    (htarget : ∀ x, net.target pairMembers x = some (!x)) :
    Net.Reached pairMembers (PairCondition strict) net₀ (net.skip 1) := by
  have hinterval : timerInterval = 200000 := rfl
  obtain ⟨now, node, nextTick, inFlight⟩ := net
  simp only at hflying hfirst hsecond hrests hlast
  subst hflying
  have hbefore : now ≤ last := by omega
  have hbefore' : nextTick false ≤ last := by omega
  have h₁ : Net.Reached pairMembers (PairCondition strict) net₀
      ⟨now, node, Function.update nextTick true (now + timerInterval), []⟩ :=
    h.step (pairTick true) (pairCondition_of_rests (hrests true) hbefore hfirst (htarget true))
      (Net.tick_eq_of_rests (hrests true) hbefore _ _)
  have hticks : ∀ x, nextTick false ≤ Function.update nextTick true (now + timerInterval) x := by
    intro x
    cases x with
    | false => exact Int.le_refl _
    | true => exact hsecond.2
  have h₂ : Net.Reached pairMembers (PairCondition strict) net₀
      ⟨nextTick false, node, Function.update nextTick true (now + timerInterval), []⟩ :=
    h₁.step (.wait (nextTick false))
      ⟨⟨hsecond.1, hticks, by simp⟩, fun _ => ⟨trivial, trivial⟩⟩ rfl
  have h₃ : Net.Reached pairMembers (PairCondition strict) net₀
      ⟨nextTick false, node, Function.update (Function.update nextTick true (now + timerInterval))
        false (nextTick false + timerInterval), []⟩ :=
    h₂.step (pairTick false) (pairCondition_of_rests (hrests false) hbefore' rfl (htarget false))
      (Net.tick_eq_of_rests (hrests false) hbefore' _ _)
  refine h₃.step (.wait (now + timerInterval)) ⟨⟨?_, ?_, by simp⟩, fun _ => ⟨trivial, trivial⟩⟩ ?_
  · exact hsecond.2
  · intro x
    cases x with
    | false =>
      show now + timerInterval ≤ nextTick false + timerInterval
      omega
    | true => exact Int.le_refl _
  · have hnext : Function.update (Function.update nextTick true (now + timerInterval)) false
        (nextTick false + timerInterval) = fun x => nextTick x + ((1 : Nat) : Int) * timerInterval := by
      funext x
      cases x with
      | false =>
        show nextTick false + timerInterval = _
        omega
      | true =>
        show now + timerInterval = _
        omega
    have hnow : now + timerInterval = now + ((1 : Nat) : Int) * timerInterval := by omega
    unfold Net.step Net.skip
    simp only
    rw [← hnext, ← hnow]

theorem reached_skip {net₀ : Net Bool} (rounds : Nat)
    (h : Net.Reached pairMembers (PairCondition strict) net₀ net) (hflying : net.inFlight = [])
    (hfirst : net.nextTick true = net.now)
    (hsecond : net.now ≤ net.nextTick false ∧ net.nextTick false ≤ net.now + timerInterval)
    (hrests : ∀ x, (net.node x).Rests (net.now + rounds * timerInterval))
    (htarget : ∀ x, net.target pairMembers x = some (!x)) :
    Net.Reached pairMembers (PairCondition strict) net₀ (net.skip rounds) := by
  have hinterval : timerInterval = 200000 := rfl
  -- the deadline is the same for all rounds
  have hrounds : ∀ k, k ≤ rounds →
      Net.Reached pairMembers (PairCondition strict) net₀ (net.skip k) := by
    intro k
    induction k with
    | zero =>
      intro _
      have hzero : net.skip 0 = net := by simp [Net.skip]
      rw [hzero]
      exact h
    | succ k ih =>
      intro hk
      have hfirst' : net.nextTick true + k * timerInterval = net.now + k * timerInterval := by omega
      have hsecond' : net.now + k * timerInterval ≤ net.nextTick false + k * timerInterval ∧
          net.nextTick false + k * timerInterval ≤ net.now + k * timerInterval + timerInterval := by
        omega
      have hlast : net.now + k * timerInterval + timerInterval ≤
          net.now + rounds * timerInterval := by
        rw [hinterval]
        omega
      have hround := reached_round (ih (Nat.le_of_succ_le hk)) hflying hfirst' hsecond' hrests hlast
        htarget
      have hspan : ∀ t : Int, t + k * timerInterval + ((1 : Nat) : Int) * timerInterval =
          t + ((k + 1 : Nat) : Int) * timerInterval := by
        intro t
        rw [hinterval]
        omega
      have hone : (net.skip k).skip 1 = net.skip (k + 1) := by
        unfold Net.skip
        simp only [hspan]
      rw [← hone]
      exact hround
  exact hrounds rounds (Nat.le_refl rounds)

instance (ms : Members Bool) (net : Net Bool) (i : Bool) (op : WireOp) (packets : Nat) :
    Decidable (Takes ms net i op packets) :=
  decidable_of_iff (_ ∧ _) ⟨fun h => ⟨h.1, h.2⟩, fun h => ⟨h.silent, h.delivered⟩⟩

def PairMove.Allowed (strict : Bool) (net : Net Bool) : PairMove → Prop
  | .wait span => 0 ≤ span ∧ (∀ x, net.now + span ≤ net.nextTick x) ∧
      ∀ m ∈ net.inFlight, net.now + span ≤ m.sentAt + maxDelay
  | .tick x => net.nextTick x = net.now ∧
      (strict = true → net.Steady pairMembers (fun x => !x) (pairTick x))
  | .arrive => ∀ m ∈ net.inFlight.head?,
      Takes pairMembers net m.dst (pairMembers.arrival m (fun _ => 0)
        (m.frame.udp.map (fun _ => pairAddr m.src))) 1 ∧
      (m.frame.udp.isSome = true ∨ m.frame.relayed ≠ []) ∧
      (strict = true → net.Ready (pairArrival m))
  | .rest rounds => net.inFlight = [] ∧ net.nextTick true = net.now ∧
      (net.now ≤ net.nextTick false ∧ net.nextTick false ≤ net.now + timerInterval) ∧
      (∀ x, (net.node x).Rests (net.now + rounds * timerInterval)) ∧
      ∀ x, net.target pairMembers x = some (!x)

instance decidableSteady (net : Net Bool) (x : Bool) :
    Decidable (net.Steady pairMembers (fun x => !x) (pairTick x)) := by
  unfold pairTick Net.Steady
  infer_instance

instance decidableReady (net : Net Bool) (m : Flight Bool) :
    Decidable (net.Ready (pairArrival m)) := by
  unfold pairArrival Net.Ready
  infer_instance

instance decidableAllowed (strict : Bool) (net : Net Bool) : ∀ move : PairMove,
    Decidable (move.Allowed strict net)
  | .wait _ | .tick _ | .arrive | .rest _ => by
    unfold PairMove.Allowed
    infer_instance

theorem reached_move {net₀ : Net Bool} {move : PairMove}
    (h : Net.Reached pairMembers (PairCondition strict) net₀ net)
    (hallowed : move.Allowed strict net) :
    Net.Reached pairMembers (PairCondition strict) net₀ (net.move move) := by
  cases move with
  | wait span =>
    obtain ⟨hspan, hticks, hflights⟩ := hallowed
    refine h.step (.wait (net.now + span)) ⟨⟨?_, hticks, ?_⟩, fun _ => ⟨trivial, trivial⟩⟩ rfl
    · omega
    · exact fun m hm _ => hflights m hm
  | tick x =>
    exact h.step (pairTick x)
      ⟨⟨hallowed.1, established_pairProbe x⟩, fun hs => ⟨trivial, hallowed.2 hs⟩⟩ rfl
  | arrive =>
    cases hflying : net.inFlight.head? with
    | none =>
      have hsame : net.move .arrive = net := by simp [Net.move, hflying]
      rw [hsame]
      exact h
    | some m =>
      have hm : m ∈ net.inFlight := List.mem_of_head? hflying
      obtain ⟨htakes, hways, hready⟩ := hallowed m hflying
      have hmove : net.move .arrive = net.step pairMembers (pairArrival m) := by
        simp [Net.move, hflying]
      rw [hmove]
      refine h.step (pairArrival m) ⟨⟨hm, ?_, htakes⟩, fun hs => ⟨hready hs, trivial⟩⟩ rfl
      cases hudp : m.frame.udp with
      | none => simpa [hudp] using hways
      | some addr => simp
  | rest rounds =>
    obtain ⟨hflying, hfirst, hsecond, hrests, htarget⟩ := hallowed
    exact reached_skip rounds h hflying hfirst hsecond hrests htarget

def PairMove.AllAllowed (strict : Bool) : Net Bool → List PairMove → Prop
  | _, [] => True
  | net, move :: moves => move.Allowed strict net ∧ AllAllowed strict (net.move move) moves

instance decidableAllAllowed (strict : Bool) : ∀ (net : Net Bool) (moves : List PairMove),
    Decidable (PairMove.AllAllowed strict net moves)
  | _, [] => .isTrue trivial
  | net, move :: moves =>
    have := decidableAllAllowed strict (net.move move) moves
    inferInstanceAs (Decidable (_ ∧ _))

theorem reached_moves {net₀ : Net Bool} {moves : List PairMove}
    (h : Net.Reached pairMembers (PairCondition strict) net₀ net)
    (hallowed : PairMove.AllAllowed strict net moves) :
    Net.Reached pairMembers (PairCondition strict) net₀ (moves.foldl Net.move net) := by
  induction moves generalizing net with
  | nil => exact h
  | cons move moves ih => exact ih (reached_move h hallowed.1) hallowed.2

end Pair

section Verdict

variable {ι : Type} [DecidableEq ι] [Crates] [Tunnels] {ms : Members ι} {net₀ net : Net ι}
  {start : Int} {target : ι → ι}

theorem Net.Start.reach (h₀ : net₀.Start ms start)
    (h : Net.Reached ms (fun net op => net.Permits ms op ∧ net.Ready op ∧ net.Steady ms target op)
      net₀ net) :
    Pulses.Reach idleTiming target (fun m => m.sure = false) net₀.pulses net.pulses := by
  obtain ⟨tr, hrun⟩ := h
  have hboth : Pulses.Reach idleTiming target (fun m => m.sure = false) net₀.pulses net.pulses ∧
      ∀ i, (net.node i).Tended (ms.cfg i) := by
    refine hrun.invariant (I := fun _ net => Pulses.Reach idleTiming target (fun m => m.sure = false)
      net₀.pulses net.pulses ∧ ∀ i, (net.node i).Tended (ms.cfg i)) ⟨.refl, h₀.tended⟩ ?_
    intro tr net op _ ih _ hop
    have hstray : ∀ m : Flight ι, m.frame.site = .dataProbe →
        WireNode.Follows (ms.cfg m.src) (net.node m.src) m.frame → m.pulse.sure = false := by
      intro m hsite _
      simp [Flight.pulse, hsite]
    exact ⟨ih.1.trans (Net.sim_step ih.2 hstray hop.1 hop.2.1 hop.2.2),
      Net.tended_step ih.2 hop.1 hop.2.2⟩
  exact hboth.1

theorem idle_mesh_stays_healthy (h₀ : net₀.Start ms start)
    (h : Net.Reached ms (fun net op => net.Permits ms op ∧ net.Ready op ∧ net.Steady ms target op)
      net₀ net)
    (honto : Function.Surjective target) (i : ι) :
    (net.node i).dataplaneHealthy net.now dataplaneRxSilenceThreshold = true := by
  obtain ⟨k, hk⟩ := honto i
  have hsilence := Pulses.silence_le idleTiming_sound h₀.pulses (h₀.reach h) hk
  have hbound : 2 * (idleTiming.after + idleTiming.period) + idleTiming.delay <
      dataplaneRxSilenceThreshold := by decide
  have hrecent : net.now - (net.node i).clocks.lastInboundDataFrame < dataplaneRxSilenceThreshold :=
    Int.lt_of_le_of_lt hsilence hbound
  unfold WireNode.dataplaneHealthy LivenessClocks.dataplaneHealthy
  simp [hrecent]

end Verdict

section Example

attribute [local instance] referenceCrates framedTunnels

def refreshingMoves : List PairMove :=
  [.rest 112, .tick true, .tick false, .wait 200000, .tick true, .tick false, .arrive, .arrive]

def refreshedNet (direct : Bool) : Net Bool := refreshingMoves.foldl Net.move (pairNet direct 0)

theorem reached_refreshedNet (direct : Bool) :
    Net.Reached pairMembers (PairCondition true) (pairNet direct 0) (refreshedNet direct) := by
  refine reached_moves ⟨[], .start⟩ ?_
  cases direct <;> decide +kernel

theorem idle_mesh_stays_healthy_pair :
    (refreshedNet false).now = 23600000 ∧
      ((refreshedNet false).node true).clocks.lastInboundDataFrame = 23600000 ∧
      ((refreshedNet false).node true).dataplaneHealthy (refreshedNet false).now
        dataplaneRxSilenceThreshold = true := by
  refine ⟨by decide +kernel, by decide +kernel, ?_⟩
  have hreached : Net.Reached pairMembers (fun net op => net.Permits pairMembers op ∧ net.Ready op ∧
      net.Steady pairMembers (fun x => !x) op) (pairNet false 0) (refreshedNet false) :=
    (reached_refreshedNet false).mono (fun _ _ hop => ⟨hop.1, hop.2 rfl⟩)
  exact idle_mesh_stays_healthy (start_pairNet false (by decide)) hreached
    (fun x => ⟨!x, Bool.not_not x⟩) true

def starvingMoves : List PairMove :=
  let cycle : List PairMove := [.rest 111, .tick true, .wait 100000, .tick false, .wait 100000,
    .tick true, .wait 100000, .tick false, .wait 50000, .arrive, .wait 50000]
  cycle ++ cycle ++ cycle ++ [.rest 111]

def starvedNet : Net Bool := starvingMoves.foldl Net.move (pairNet false 100000)

theorem idle_pair_reported_dead :
    (pairNet false 100000).Start pairMembers pairStart ∧
      Net.Reached pairMembers (Net.Permits pairMembers) (pairNet false 100000) starvedNet ∧
      (starvedNet.node false).dataplaneHealthy starvedNet.now dataplaneRxSilenceThreshold = false := by
  have hallowed : PairMove.AllAllowed false (pairNet false 100000) starvingMoves := by
    decide +kernel
  refine ⟨start_pairNet false (by decide), ?_, by decide +kernel⟩
  exact (reached_moves ⟨[], .start⟩ hallowed).mono (fun _ _ hop => hop.1)

end Example

end ServiceMesh
