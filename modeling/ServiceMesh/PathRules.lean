import ServiceMesh.DeadVerdict
import ServiceMesh.Roaming

/-! The direct path of a session as a state machine: what turns it on, what turns it off, and what
leaves it alone. -/

namespace ServiceMesh

open StdNet (Ipv6Addr SocketAddr)

namespace PathState

variable {now : Int} {p p' : PathState} {events : List PathEvent}

theorem broken_iff : p.broken now = true ↔ p.directConfirmed = true ∧
    (directPathTtl < now - p.lastDirectRx ∨
      p.lastDirectDataTx ≠ 0 ∧ now - p.lastDirectDataTx ≤ directTxBlackholeTtl ∧
        directTxBlackholeTtl < now - p.lastDirectDataRx) := by
  simp only [broken, stale, txBlackholed, Bool.or_eq_true, Bool.and_eq_true, decide_eq_true_eq]
  tauto

theorem lt_directSuppressedUntil_noteHandshakeFailure (p : PathState) (now : Int) :
    now < (p.noteHandshakeFailure now).directSuppressedUntil := by
  have hpos := backoff_pos (min p.failedHandshakes 30)
  show now < now + min (directBackoffBase * 2 ^ min p.failedHandshakes 30) directBackoffCap
  omega

structure Backs (p p' : PathState) : Prop where
  confirmed : p'.directConfirmed = p.directConfirmed
  rx : p'.lastDirectRx = p.lastDirectRx
  dataRx : p'.lastDirectDataRx = p.lastDirectDataRx
  failures : p.failedHandshakes ≤ p'.failedHandshakes
  suppressed : p.directSuppressedUntil ≤ p'.directSuppressedUntil

theorem Moves.backs (h : Moves now p events p') (hkind : ∀ e ∈ events, PathEvent.ofSending e = true) :
    Backs p p' := by
  refine h.invariant (I := Backs p) ?_ ⟨rfl, rfl, rfl, Nat.le_refl _, Int.le_refl _⟩
  intro q e he hq hallows
  have hsending := hkind e he
  cases e with
  | sentData => exact ⟨hq.confirmed, hq.rx, hq.dataRx, hq.failures, hq.suppressed⟩
  | probed =>
    have hopened := lt_directSuppressedUntil_noteHandshakeFailure { q with lastProbe := now } now
    have hclosed : q.directSuppressedUntil ≤ now := hallows.unsuppressed
    have hlonger : p.directSuppressedUntil ≤ now := Int.le_trans hq.suppressed hclosed
    exact ⟨hq.confirmed, hq.rx, hq.dataRx, Nat.le_succ_of_le hq.failures,
      Int.le_trans hlonger (Int.le_of_lt hopened)⟩
  | skipped | heard | confirmed | downgraded | rearmed base => simp [PathEvent.ofSending] at hsending

theorem Moves.confirmed_of_ofTimer (h : Moves now p events p')
    (hkind : ∀ e ∈ events, PathEvent.ofTimer e = true) :
    p'.directConfirmed = p.directConfirmed := by
  refine h.invariant (I := fun q => q.directConfirmed = p.directConfirmed) ?_ rfl
  intro q e he hq _
  have htimer := hkind e he
  cases e with
  | sentData | probed | skipped | rearmed base => exact hq
  | heard | confirmed | downgraded => simp [PathEvent.ofTimer] at htimer

theorem Moves.suppressed_of_downgraded (h : Moves now p (.downgraded :: events) p')
    (hkind : ∀ e ∈ events, PathEvent.ofTimer e = true) :
    now < p'.directSuppressedUntil := by
  cases h with
  | next _ hallows hrest =>
    have hopened : now < (p.downgrade now).directSuppressedUntil :=
      lt_directSuppressedUntil_noteHandshakeFailure _ now
    have hboth : p'.directConfirmed = false ∧ now < p'.directSuppressedUntil := by
      refine hrest.invariant
        (I := fun q => q.directConfirmed = false ∧ now < q.directSuppressedUntil) ?_ ⟨rfl, hopened⟩
      intro q e he hq hallows
      have htimer := hkind e he
      cases e with
      | sentData | rearmed base => exact hq
      | probed | skipped => exact absurd hallows.unsuppressed (Int.not_le.mpr hq.2)
      | heard | confirmed | downgraded => simp [PathEvent.ofTimer] at htimer
    exact hboth.2

end PathState

def WireOp.isRoster : WireOp → Bool
  | .upsert _ | .remove _ | .appRoutes _ _ => true
  | _ => false

namespace WireNode

variable [Tunnels] {cfg : WireConfig} {now : Int} {id w : SessionId} {n n' : WireNode}

/-- A packet of the session came off the socket from this address, in a datagram that was
processed since `n`, and its source was allowed. -/
def Delivers (now : Int) (w : SessionId) (source : SocketAddr) (bytes : List UInt8)
    (n n' : WireNode) : Prop :=
  ∃ packet later, n.Opens w bytes packet ∧
    n'.log = later ++ .delivered now w (some source) packet :: n.log

theorem Handled.confirmed {source : SocketAddr} {datagram : List UInt8}
    (h : Handled cfg now id (some source) datagram n n') (w : SessionId) :
    (n'.paths w).directConfirmed = (n.paths w).directConfirmed ∨
      (n'.paths w).directConfirmed = true ∧ w = id ∧ Delivers now w source datagram n n' := by
  rcases h with ⟨-, hsends⟩ | ⟨packet, n₁, hopens, hsends₁, hlog, hsends⟩
  · exact .inl (hsends.confirmed w)
  · by_cases hw : w = id
    · subst hw
      obtain ⟨sent, hsent, -⟩ := hsends.log
      refine .inr ⟨?_, rfl, packet, sent.map .sent, hopens, ?_⟩
      · rw [hsends.confirmed w]
        exact congrArg PathState.directConfirmed paths_setPath_self
      · rw [hsent, ← hlog]
        rfl
    · left
      rw [hsends.confirmed w, ← hsends₁.confirmed w]
      exact congrArg PathState.directConfirmed (paths_setPath_of_ne hw)

theorem confirmed_udpRecv (order : SessionId → Nat) (source : SocketAddr) (bytes : List UInt8)
    (w : SessionId) :
    ((n.udpRecv cfg now order source bytes).paths w).directConfirmed =
        (n.paths w).directConfirmed ∨
      ((n.udpRecv cfg now order source bytes).paths w).directConfirmed = true ∧
        Delivers now w source bytes n (n.udpRecv cfg now order source bytes) := by
  have hreceived := received cfg now n order source bytes
  generalize n.udpRecv cfg now order source bytes = n' at hreceived
  cases hreceived with
  | known hid hs hhandled => exact (hhandled.confirmed w).imp_right (And.imp_right And.right)
  | learned hunknown hat htaken hhandled =>
    rcases hhandled.confirmed w with hsame | ⟨hconfirmed, rfl, packet, later, hopens, hlog⟩
    · exact .inl hsame
    · exact .inr ⟨hconfirmed, packet, later, opens_learnEndpoint.mp hopens, hlog⟩
  | unclaimed => exact .inl rfl

theorem confirmed_step [Crates] (hinv : n.table.Inv) (cfg : WireConfig) (now : Int) (op : WireOp)
    (w : SessionId) :
    ((n.step cfg now op).paths w).directConfirmed = (n.paths w).directConfirmed ∨
    (((n.step cfg now op).paths w).directConfirmed = true ∧
      ∃ order source bytes, op = .datagram order source bytes ∧
        Delivers now w source bytes n (n.step cfg now op)) ∨
    (∃ order answers idle, op = .tick order answers idle ∧ (n.paths w).broken now = true ∧
      now < ((n.step cfg now op).paths w).directSuppressedUntil ∧
      ∀ s, (n.step cfg now op).table.heap.lookup w = some s → s.endpointLearned = false) := by
  cases op with
  | upsert | remove | appRoutes | relayWake => exact .inl rfl
  | datagram order source bytes =>
    rcases confirmed_udpRecv order source bytes w with hsame | ⟨hconfirmed, hdelivers⟩
    · exact .inl hsame
    · exact .inr (.inl ⟨hconfirmed, order, source, bytes, rfl, hdelivers⟩)
  | relayed buf =>
    obtain ⟨events, hshows, hkind⟩ : Shown PathEvent.ofSending now w n (n.handleInbound cfg now buf) :=
      shown_handleInbound buf w
    exact .inl (hshows.moves.backs hkind).confirmed
  | tun packet answer held =>
    have hsends : Sends cfg n (n.tunRead cfg now packet answer held) := sends_tunRead ..
    exact .inl (hsends.confirmed w)
  | tick order answers idle =>
    obtain ⟨⟨rest, hshows, hkind, -⟩, hsession⟩ := shows_tick hinv cfg now order answers idle w
    by_cases hdown : w ∈ (n.table.visited order).map Prod.fst ∧ (n.paths w).broken now = true
    · rw [if_pos hdown] at hshows
      simp only [hdown, and_self, if_true] at hsession
      refine .inr (.inr ⟨order, answers, idle, rfl, hdown.2, hshows.moves.suppressed_of_downgraded hkind, ?_⟩)
      intro s hs
      obtain ⟨s₀, -, rfl⟩ := Option.map_eq_some_iff.mp (hsession.symm.trans hs)
      rfl
    · rw [if_neg hdown] at hshows
      exact .inl (hshows.moves.confirmed_of_ofTimer hkind)
  | converge answer =>
    have hsends : Sends cfg n (n.converge cfg now answer) := sends_converge ..
    exact .inl (hsends.confirmed w)
  | punch order myPeerId event inits =>
    obtain ⟨sent, heq, -⟩ := punch_cases cfg n now order myPeerId event inits
    rw [heq]
    exact .inl rfl

theorem learned_endpoint_step [Crates] (hinv : n.table.Inv) {op : WireOp} (hop : op.isRoster = true)
    {s : PeerSession} (hs : n.table.heap.lookup w = some s) (hlearned : s.endpointLearned = true) :
    ∃ s', (n.step cfg now op).table.heap.lookup w = some s' ∧ s'.endpoint = s.endpoint := by
  cases op with
  | upsert info =>
    obtain ⟨s', hs', -, hendpoint⟩ := hinv.endpoint_upsert info hs
    exact ⟨s', hs', hendpoint.resolve_right (fun hmoved => by simp [hlearned] at hmoved)⟩
  | remove ula => exact ⟨s, (congrArg (AList.lookup w) (n.table.heap_remove ula)).trans hs, rfl⟩
  | appRoutes hostUla advertised => exact n.table.endpoint_reconcileAppRoutes hostUla advertised hs
  | relayWake | datagram | relayed | tun | tick | converge | punch => simp [WireOp.isRoster] at hop

end WireNode

/-- A path is confirmed only by a packet off the socket; a frame off the relay moves neither the
path nor any endpoint; a path is given up only by the timer, which then lets go of a learned
endpoint and suppresses the next probes; and a learned endpoint outlasts what the roster says. -/
theorem direct_path_rules [Crates] [Tunnels] {cfg : WireConfig} {tr : List ((Int × WireOp) × Bool)}
    {n : WireNode} (h : (wireNode cfg).Reach tr n) (now : Int) (op : WireOp) (w : SessionId) :
    ((n.paths w).directConfirmed = false →
      ((n.step cfg now op).paths w).directConfirmed = true →
      ∃ order source bytes, op = .datagram order source bytes ∧
        WireNode.Delivers now w source bytes n (n.step cfg now op)) ∧
    (∀ buf, op = .relayed buf →
      PathState.Backs (n.paths w) ((n.step cfg now op).paths w) ∧
        (n.step cfg now op).table = n.table) ∧
    ((n.paths w).directConfirmed = true →
      ((n.step cfg now op).paths w).directConfirmed = false →
      (∃ order answers idle, op = .tick order answers idle) ∧
      (directPathTtl < now - (n.paths w).lastDirectRx ∨
        (n.paths w).lastDirectDataTx ≠ 0 ∧
          now - (n.paths w).lastDirectDataTx ≤ directTxBlackholeTtl ∧
          directTxBlackholeTtl < now - (n.paths w).lastDirectDataRx) ∧
      (∀ s, (n.step cfg now op).table.heap.lookup w = some s → s.endpointLearned = false) ∧
      now < ((n.step cfg now op).paths w).directSuppressedUntil) ∧
    (op.isRoster = true → ∀ s, n.table.heap.lookup w = some s → s.endpointLearned = true →
      ∃ s', (n.step cfg now op).table.heap.lookup w = some s' ∧ s'.endpoint = s.endpoint) := by
  have hinv : n.table.Inv := by
    refine h.invariant (I := fun _ n => n.table.Inv) SessionTable.inv_new ?_
    intro _ n op _ ih _ _
    exact WireNode.inv_step ih op.2
  have hcases := WireNode.confirmed_step hinv cfg now op w
  refine ⟨?_, ?_, ?_, fun hop s hs hlearned => WireNode.learned_endpoint_step hinv hop hs hlearned⟩
  · intro hbefore hafter
    rcases hcases with hsame | ⟨-, hdatagram⟩ | ⟨order, answers, idle, -, hbroken, -⟩
    · rw [hbefore, hafter] at hsame
      exact absurd hsame (by decide)
    · exact hdatagram
    · have hconfirmed := (PathState.broken_iff.mp hbroken).1
      rw [hbefore] at hconfirmed
      exact absurd hconfirmed (by decide)
  · intro buf hop
    subst hop
    obtain ⟨events, hshows, hkind⟩ : WireNode.Shown PathEvent.ofSending now w n
        (n.handleInbound cfg now buf) := WireNode.shown_handleInbound buf w
    exact ⟨hshows.moves.backs hkind, WireNode.table_handleInbound buf⟩
  · intro hbefore hafter
    rcases hcases with hsame | ⟨hconfirmed, -⟩ |
      ⟨order, answers, idle, hop, hbroken, hsuppressed, hlearned⟩
    · rw [hbefore, hafter] at hsame
      exact absurd hsame (by decide)
    · rw [hafter] at hconfirmed
      exact absurd hconfirmed (by decide)
    · exact ⟨⟨order, answers, idle, hop⟩, (PathState.broken_iff.mp hbroken).2, hlearned, hsuppressed⟩

section Example

attribute [local instance] referenceCrates referenceTunnels

def heardRun : List ((Int × WireOp) × Bool) × WireNode :=
  (wireNode flooredConfig).exec [] (wireNode flooredConfig).init roamedOps

theorem direct_path_rules_stale :
    (∀ s, (heardRun.2.step flooredConfig 36000000 quietTick).table.heap.lookup 0 = some s →
      s.endpointLearned = false) ∧
    36000000 < ((heardRun.2.step flooredConfig 36000000 quietTick).paths 0).directSuppressedUntil := by
  have hreach : (wireNode flooredConfig).Reach heardRun.1 heardRun.2 :=
    Machine.Run.exec .start ⟨trivial, trivial, trivial, trivial, trivial⟩
  have hrules := (direct_path_rules hreach 36000000 quietTick 0).2.2.1 (by decide +kernel)
    (by decide +kernel)
  exact hrules.2.2

end Example

end ServiceMesh
