import ServiceMesh.Transmit

/-! The verdict that the data plane is dead, against the history of the node: how long it had
peers, and how long it heard nothing from them. -/

namespace ServiceMesh

open StdNet (Ipv6Addr SocketAddr)

namespace WireNode

def dataplaneHealthy (n : WireNode) (now threshold : Int) : Bool :=
  n.clocks.dataplaneHealthy n.hasPeers now threshold

/-- The node had peers at every moment from `start` on: after each step past it, and after the last
one that is not. The latest step comes first. -/
def NonEmptySince (start : Int) : List ((Int × WireOp) × Bool) → Prop
  | [] => False
  | (op, hasPeers) :: tr => hasPeers = true ∧ (op.1 ≤ start ∨ NonEmptySince start tr)

instance decidableNonEmptySince (start : Int) : ∀ tr, Decidable (NonEmptySince start tr)
  | [] => .isFalse id
  | (op, hasPeers) :: tr =>
    have := decidableNonEmptySince start tr
    inferInstanceAs (Decidable (hasPeers = true ∧ (op.1 ≤ start ∨ NonEmptySince start tr)))

def SilentSince (start : Int) (log : List WireEvent) : Prop :=
  ∀ t id source packet, WireEvent.delivered t id source packet ∈ log → t ≤ start

theorem NonEmptySince.mono {start start' : Int} (hle : start ≤ start')
    {tr : List ((Int × WireOp) × Bool)} (h : NonEmptySince start tr) : NonEmptySince start' tr := by
  induction tr with
  | nil => exact h
  | cons x tr ih => exact ⟨h.1, h.2.imp (fun ht => Int.le_trans ht hle) ih⟩

theorem hasPeers_of_subset {n n' : WireNode} (hsub : n'.table.ulas ⊆ n.table.ulas)
    (hpeers : n'.hasPeers = true) : n.hasPeers = true := by
  cases hulas : n.table.ulas with
  | nil =>
    rw [hulas, List.subset_nil] at hsub
    simp [hasPeers, hsub] at hpeers
  | cons ula rest => simp [hasPeers, hulas]

structure Advances (now : Int) (n n' : WireNode) : Prop where
  forward : n.clocks.lastInboundDataFrame ≤ n'.clocks.lastInboundDataFrame
  clock : n'.clocks.lastInboundDataFrame = n.clocks.lastInboundDataFrame ∨
    n'.clocks.lastInboundDataFrame = now
  silent : SilentSince n.clocks.lastInboundDataFrame n.log →
    SilentSince n'.clocks.lastInboundDataFrame n'.log
  peers : n'.hasPeers = true → n.hasPeers = true

variable {cfg : WireConfig} {now : Int} {n n' n'' : WireNode}

theorem Advances.trans (h : Advances now n n') (h' : Advances now n' n'') : Advances now n n'' := by
  refine ⟨h.forward.trans h'.forward, ?_, fun hs => h'.silent (h.silent hs),
    fun hp => h.peers (h'.peers hp)⟩
  rcases h'.clock with hsame | hset
  · rw [hsame]
    exact h.clock
  · exact .inr hset

theorem Advances.of_eq (hclock : n'.clocks.lastInboundDataFrame = n.clocks.lastInboundDataFrame)
    (hlog : ∃ sent : List Sending, n'.log = sent.map WireEvent.sent ++ n.log)
    (hpeers : n'.hasPeers = true → n.hasPeers = true) : Advances now n n' := by
  refine ⟨Int.le_of_eq hclock.symm, .inl hclock, ?_, hpeers⟩
  intro hsilent t id source packet hmem
  obtain ⟨sent, heq⟩ := hlog
  rw [heq, List.mem_append] at hmem
  rcases hmem with hmem | hmem
  · simp at hmem
  · rw [hclock]
    exact hsilent t id source packet hmem

theorem Sends.advances (h : Sends cfg n n') : Advances now n n' := by
  obtain ⟨sent, hlog, -⟩ := h.log
  refine .of_eq h.lastRx ⟨sent, hlog⟩ ?_
  unfold hasPeers
  rw [h.table]
  exact fun hp => hp

theorem advances_noteInboundDataFrame :
    Advances now n (n.setClocks (n.clocks.noteInboundDataFrame now)) := by
  have hset : (n.setClocks (n.clocks.noteInboundDataFrame now)).clocks.lastInboundDataFrame =
      max n.clocks.lastInboundDataFrame now := rfl
  refine ⟨?_, ?_, ?_, fun hp => hp⟩
  · rw [hset]
    exact Int.le_max_left _ _
  · rw [hset]
    omega
  · intro hsilent t id source packet hmem
    have hold := hsilent t id source packet hmem
    rw [hset]
    omega

theorem advances_seed : Advances now n (n.setClocks (n.clocks.seed n.hasPeers now)) := by
  unfold LivenessClocks.seed
  split
  · exact advances_noteInboundDataFrame
  · exact .of_eq rfl ⟨[], rfl⟩ (fun hp => hp)

theorem advances_downgradePath (id : SessionId) : Advances now n (n.downgradePath now id) :=
  .of_eq rfl ⟨[], rfl⟩ (fun hp => hp)

theorem advances_deliver (id : SessionId) (source : Option SocketAddr) (packet : List UInt8) :
    Advances now n (n.deliver now id source packet) := by
  have hset : Advances now n (n.setClocks (n.clocks.noteInboundDataFrame now)) :=
    advances_noteInboundDataFrame
  have hclocks : (n.deliver now id source packet).clocks = n.clocks.noteInboundDataFrame now := by
    cases source <;> rfl
  have hlog : (n.deliver now id source packet).log = .delivered now id source packet :: n.log := by
    cases source <;> rfl
  have hpeers : (n.deliver now id source packet).hasPeers = n.hasPeers := by
    cases source <;> rfl
  refine ⟨hclocks ▸ hset.forward, hclocks ▸ hset.clock, ?_, fun hp => hpeers ▸ hp⟩
  intro hsilent t id' source' packet' hmem
  rw [hclocks]
  rw [hlog, List.mem_cons] at hmem
  rcases hmem with heq | hmem
  · obtain ⟨rfl, -⟩ := WireEvent.delivered.inj heq
    exact Int.le_max_right _ _
  · exact hset.silent hsilent t id' source' packet' hmem

variable [Tunnels]

theorem Handled.advances {id : SessionId} {source : Option SocketAddr} {datagram : List UInt8}
    (h : Handled cfg now id source datagram n n') : Advances now n n' := by
  rcases h with ⟨-, hsends⟩ | ⟨packet, n₁, -, hsends₁, -, hsends⟩
  · exact hsends.advances
  · exact (hsends₁.advances.trans (advances_deliver id source packet)).trans hsends.advances

variable [Crates]

theorem advances_step {op : WireOp} (hop : ∀ info, op ≠ .upsert info) :
    Advances now n (n.step cfg now op) := by
  cases op with
  | upsert info => exact absurd rfl (hop info)
  | remove ula =>
    refine .of_eq rfl ⟨[], rfl⟩ (hasPeers_of_subset ?_)
    show (n.table.remove ula).1.byUla.keys ⊆ n.table.byUla.keys
    unfold SessionTable.remove
    split
    · exact List.Subset.refl _
    · exact AList.keys_subset_keys_of_entries_subset_entries (List.kerase_sublist ula _).subset
  | appRoutes hostUla advertised =>
    have hsame := (n.table.reconcileAppRoutes_spec hostUla advertised).byUla
    refine .of_eq rfl ⟨[], rfl⟩ (hasPeers_of_subset ?_)
    show (n.table.reconcileAppRoutes hostUla advertised).byUla.keys ⊆ n.table.byUla.keys
    rw [hsame]
    exact List.Subset.refl _
  | relayWake ula => exact .of_eq rfl ⟨[], rfl⟩ (fun hp => hp)
  | datagram order source bytes =>
    have hreceived := received cfg now n order source bytes
    show Advances now n (n.udpRecv cfg now order source bytes)
    generalize n.udpRecv cfg now order source bytes = n' at hreceived
    cases hreceived with
    | known hid hs hhandled => exact hhandled.advances
    | @learned ula id s _ hunknown hat htaken hhandled =>
      have hlearned : Advances now n (n.setTable (n.table.learnEndpoint id source)) :=
        .of_eq rfl ⟨[], rfl⟩ (fun hp => hp)
      exact hlearned.trans hhandled.advances
    | unclaimed => exact .of_eq rfl ⟨[], rfl⟩ (fun hp => hp)
  | relayed buf =>
    show Advances now n (n.handleInbound cfg now buf)
    rcases handled_handleInbound cfg now n buf with heq | ⟨id, payload, hhandled⟩
    · rw [heq]
      exact .of_eq rfl ⟨[], rfl⟩ (fun hp => hp)
    · exact hhandled.advances
  | tun packet answer held => exact (sends_tunRead packet answer held).advances
  | tick order answers idle =>
    have hself : Advances now n n := .of_eq rfl ⟨[], rfl⟩ (fun hp => hp)
    show Advances now n (n.tick cfg now order answers idle)
    exact tick_induction (P := Advances now n) (fun hsends h => h.trans hsends.advances)
      (fun id h => h.trans (advances_downgradePath id)) (fun h => h.trans advances_seed)
      order answers idle hself
  | converge answer => exact (sends_converge answer).advances
  | punch order myPeerId event inits =>
    obtain ⟨sent, heq, -⟩ := punch_cases cfg n now order myPeerId event inits
    rw [heq]
    exact .of_eq rfl ⟨sent, rfl⟩ (fun hp => hp)

def FillsUnset (n : WireNode) (op : Int × WireOp) : Prop :=
  match op.2 with
  | .upsert _ => n.hasPeers = true ∨ n.clocks.lastInboundDataFrame = 0
  | _ => True

structure Accounted (tr : List ((Int × WireOp) × Bool)) (n : WireNode) : Prop where
  silent : SilentSince n.clocks.lastInboundDataFrame n.log
  nonEmpty : n.hasPeers = true → n.clocks.lastInboundDataFrame ≠ 0 →
    NonEmptySince n.clocks.lastInboundDataFrame tr

theorem Accounted.step {tr : List ((Int × WireOp) × Bool)} (h : Accounted tr n) {op : WireOp}
    (hfills : n.FillsUnset (now, op)) :
    Accounted (((now, op), (n.step cfg now op).hasPeers) :: tr) (n.step cfg now op) := by
  by_cases hop : ∀ info, op ≠ .upsert info
  · have hadvances : Advances now n (n.step cfg now op) := advances_step hop
    refine ⟨hadvances.silent h.silent, ?_⟩
    intro hpeers hset
    refine ⟨hpeers, ?_⟩
    rcases hadvances.clock with hsame | hnow
    · rw [hsame] at hset ⊢
      exact .inr (h.nonEmpty (hadvances.peers hpeers) hset)
    · exact .inl (Int.le_of_eq hnow.symm)
  · push Not at hop
    obtain ⟨info, rfl⟩ := hop
    refine ⟨h.silent, ?_⟩
    intro hpeers hset
    refine ⟨hpeers, .inr ?_⟩
    exact h.nonEmpty (hfills.resolve_right hset) hset

end WireNode

def clockedNode [Crates] [Tunnels] (cfg : WireConfig) : Machine WireNode (Int × WireOp) Bool :=
  { wireNode cfg with admits := fun tr op => 0 < op.1 ∧ ∀ x ∈ tr, x.1.1 ≤ op.1 }

/-- A clock that is set, and was unset whenever the table filled up, gives the verdict only after a
whole window with peers and without a packet. -/
theorem dead_verdict_follows_silence [Crates] [Tunnels] {cfg : WireConfig}
    {tr : List ((Int × WireOp) × Bool)} {n : WireNode}
    (h : (clockedNode cfg).Run WireNode.FillsUnset tr n) (hset : n.clocks.lastInboundDataFrame ≠ 0)
    {now threshold : Int} (hdead : n.dataplaneHealthy now threshold = false) :
    WireNode.NonEmptySince (now - threshold) tr ∧
      WireNode.SilentSince (now - threshold) n.log := by
  have haccounted : WireNode.Accounted tr n := by
    refine h.invariant (I := WireNode.Accounted) ⟨?_, ?_⟩ ?_
    · intro t id source packet hmem
      simp [clockedNode, wireNode, WireNode.init] at hmem
    · intro _ hclock
      exact absurd rfl hclock
    · intro tr n op _ ih _ hfills
      exact ih.step hfills
  simp only [WireNode.dataplaneHealthy, LivenessClocks.dataplaneHealthy, Bool.or_eq_false_iff, Bool.not_eq_false',
    decide_eq_false_iff_not] at hdead
  obtain ⟨⟨hpeers, -⟩, hwindow⟩ := hdead
  have hbefore : n.clocks.lastInboundDataFrame ≤ now - threshold := by omega
  refine ⟨(haccounted.nonEmpty hpeers hset).mono hbefore, ?_⟩
  intro t id source packet hmem
  exact Int.le_trans (haccounted.silent t id source packet hmem) hbefore

section Example

attribute [local instance] referenceCrates referenceTunnels

def watchedConfig : WireConfig := ⟨some ⟨false⟩, wireUla⟩

def watchedRun (ops : List (Int × WireOp)) : List ((Int × WireOp) × Bool) × WireNode :=
  (clockedNode watchedConfig).exec [] (clockedNode watchedConfig).init ops

def quietTick : WireOp :=
  .tick (fun _ => 0) (fun _ => ⟨false, .nothing, none, false, .nothing⟩) (fun _ => .nothing)

def refilledOps : List (Int × WireOp) :=
  [(1000000, .upsert wirePeer), (1000001, quietTick), (1000002, .remove wirePeer.ula),
    (100000000, .upsert wirePeer), (100000001, quietTick), (100000002, wireOutbound)]

def unseededOps : List (Int × WireOp) := [(100000000, .upsert wirePeer), (100000001, wireOutbound)]

theorem dead_verdict_without_silence :
    ((watchedRun refilledOps).2.dataplaneHealthy 100000003 dataplaneRxSilenceThreshold = false ∧
      ¬ WireNode.NonEmptySince (100000003 - dataplaneRxSilenceThreshold)
        (watchedRun refilledOps).1) ∧
    (watchedRun unseededOps).2.dataplaneHealthy 100000002 dataplaneRxSilenceThreshold = false ∧
      ¬ WireNode.NonEmptySince (100000002 - dataplaneRxSilenceThreshold)
        (watchedRun unseededOps).1 := by
  refine ⟨⟨by decide +kernel, by decide +kernel⟩, by decide +kernel, by decide +kernel⟩

def silentOps : List (Int × WireOp) :=
  [(1000000, .upsert wirePeer), (1000001, quietTick), (2000000, wireOutbound)]

theorem dead_verdict_follows_silence_seeded :
    WireNode.NonEmptySince (100000000 - dataplaneRxSilenceThreshold) (watchedRun silentOps).1 := by
  have hadmissible : (clockedNode watchedConfig).Admissible WireNode.FillsUnset []
      (clockedNode watchedConfig).init silentOps := by
    refine ⟨⟨by decide, by simp⟩, .inr rfl, ⟨by decide, ?_⟩, trivial, ⟨by decide, ?_⟩, trivial, trivial⟩
    · simp
    · simp
  exact (dead_verdict_follows_silence (Machine.Run.exec .start hadmissible) (by decide +kernel)
    (by decide +kernel)).1

end Example

end ServiceMesh
