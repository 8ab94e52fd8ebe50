import ServiceMesh.SessionPath

/-! Tunnels that have given up are re-armed on the timer. The wait before the next time is meant to
grow with the re-arms since the peer was last heard, over whichever transport; the path remembers
only what it heard directly. -/

namespace ServiceMesh

open StdNet (Ipv6Addr SocketAddr)

inductive RearmSign
  | valid
  | rearmed (t : Int)
deriving DecidableEq, Repr

namespace RearmSign

def counted (k : Nat) : RearmSign → Nat
  | valid => 0
  | rearmed _ => k + 1

def latest (last : Int) : RearmSign → Int
  | valid => last
  | rearmed t => t

end RearmSign

def rearmsSince (log : List RearmSign) : Nat := log.foldl RearmSign.counted 0

def latestRearm (log : List RearmSign) : Int := log.foldl RearmSign.latest 0

namespace WireNode

section

variable [Tunnels]

def hearsRelayed (n : WireNode) (buf : List UInt8) (w : SessionId) : Bool :=
  match decodeRelayFrame buf with
  | none => false
  | some (src, payload) =>
    (n.table.deref (n.table.byPubkey.lookup src)).any (fun c =>
      c.1 = w && !payload.isEmpty && !(n.decapsulate c.1 payload).2.isError)

def rearmSigns (cfg : WireConfig) (w : SessionId) (n : WireNode) : Int × WireOp → List RearmSign
  | (_, .datagram order source bytes) =>
    if bytes ≠ [] ∧ n.hears order source bytes w = true then [.valid] else []
  | (_, .relayed buf) => if n.hearsRelayed buf w = true then [.valid] else []
  | (now, .tick order answers idle) =>
    if n.rearms cfg now w (.tick order answers idle) = true then [.rearmed now] else []
  | _ => []

/-- What the path does not hear of, or hears though it is nothing, finds it without a streak. -/
def FollowsSilence (w : SessionId) (n : WireNode) : Int × WireOp → Prop
  | (_, .datagram order source bytes) =>
    bytes = [] → n.hears order source bytes w = true → (n.paths w).rearmStreak = 0
  | (_, .relayed buf) => n.hearsRelayed buf w = true → (n.paths w).rearmStreak = 0
  | _ => True

end

end WireNode

theorem escalatingBackoff_eq {cap window : Int} (hwindow : 0 < window) (streak : Nat) :
    escalatingBackoff cap streak window = min (window * 2 ^ streak) cap := by
  induction streak generalizing window with
  | zero =>
    rw [escalatingBackoff, pow_zero, mul_one]
    omega
  | succ streak ih =>
    have hpow : (1 : Int) ≤ 2 ^ streak := one_le_pow₀ (by omega)
    have hdouble : window * 2 ^ (streak + 1) = 2 * window * 2 ^ streak := by ring
    rw [escalatingBackoff, hdouble]
    by_cases hlow : 2 * window < cap
    · rw [if_pos hlow, ih (by omega)]
    · have hle : 2 * window ≤ 2 * window * 2 ^ streak := le_mul_of_one_le_right (by omega) hpow
      rw [if_neg hlow]
      omega

theorem rearmBase_pos (eager : Bool) : 0 < WireNode.rearmBase eager := by
  cases eager <;> decide

theorem PathState.Moves.rearm {now : Int} {p p' : PathState} {events : List PathEvent}
    (h : PathState.Moves now p events p') (hquiet : ∀ e ∈ events, e.isTurning = false) :
    p'.rearmStreak = p.rearmStreak + events.countP PathEvent.isRearm ∧
      p'.lastRearm = if events.countP PathEvent.isRearm = 0 then p.lastRearm else now := by
  induction h with
  | done p => simp
  | @next p p' events e _ _ ih =>
    obtain ⟨hstreak, hlast⟩ := ih (fun e' he' => hquiet e' (List.mem_cons_of_mem e he'))
    have hfirst := hquiet e List.mem_cons_self
    rw [hstreak, hlast, List.countP_cons]
    cases e with
    | heard | downgraded => simp [PathEvent.isTurning] at hfirst
    | rearmed base =>
      refine ⟨?_, ?_⟩
      · simp only [PathState.after, PathEvent.isRearm, if_true]
        omega
      · simp [PathState.after, PathEvent.isRearm]
    | sentData | probed | skipped | confirmed => exact ⟨rfl, rfl⟩

structure Counted (log : List RearmSign) (p : PathState) : Prop where
  streak : p.rearmStreak = rearmsSince log
  last : p.lastRearm = latestRearm log

theorem rearmsSince_append (log signs : List RearmSign) :
    rearmsSince (log ++ signs) = signs.foldl RearmSign.counted (rearmsSince log) :=
  List.foldl_append ..

theorem latestRearm_append (log signs : List RearmSign) :
    latestRearm (log ++ signs) = signs.foldl RearmSign.latest (latestRearm log) :=
  List.foldl_append ..

namespace Counted

variable {log : List RearmSign} {p p' : PathState} {now : Int}

theorem unchanged (h : Counted log p) (hstreak : p'.rearmStreak = p.rearmStreak)
    (hlast : p'.lastRearm = p.lastRearm) : Counted log p' :=
  ⟨hstreak.trans h.streak, hlast.trans h.last⟩

theorem valid (h : Counted log p) (hstreak : p'.rearmStreak = 0)
    (hlast : p'.lastRearm = p.lastRearm) : Counted (log ++ [.valid]) p' := by
  refine ⟨?_, ?_⟩
  · rw [hstreak, rearmsSince_append]
    rfl
  · rw [hlast, h.last, latestRearm_append]
    rfl

theorem rearmed (h : Counted log p) (hstreak : p'.rearmStreak = p.rearmStreak + 1)
    (hlast : p'.lastRearm = now) : Counted (log ++ [.rearmed now]) p' := by
  refine ⟨?_, ?_⟩
  · rw [hstreak, h.streak, rearmsSince_append]
    rfl
  · rw [hlast, latestRearm_append]
    rfl

end Counted

namespace WireNode

variable [Crates] [Tunnels] {cfg : WireConfig} {w : SessionId} {n : WireNode}

theorem counted_step (hinv : n.table.Inv) {log : List RearmSign} (h : Counted log (n.paths w))
    {op : Int × WireOp} (hfollows : n.FollowsSilence w op) :
    Counted (log ++ n.rearmSigns cfg w op) ((n.step cfg op.1 op.2).paths w) := by
  obtain ⟨now, op⟩ := op
  obtain ⟨rest, hshows, hquiet, hcount⟩ := shows_step hinv cfg now op w
  obtain ⟨p, hfirst, hlast⟩ := hshows.moves.split
  obtain ⟨hstreak, hrearm⟩ := hlast.rearm hquiet
  rw [hcount] at hstreak hrearm
  cases op with
  | datagram order source bytes =>
    have hrearm' : ((n.step cfg now (.datagram order source bytes)).paths w).lastRearm =
        p.lastRearm := hrearm
    simp only [leading] at hfirst
    simp only [rearmSigns]
    by_cases hhears : n.hears order source bytes w = true
    · rw [if_pos hhears] at hfirst
      cases hfirst with
      | next _ _ hend =>
        cases hend
        by_cases hempty : bytes = []
        · rw [if_neg (fun hvalid => hvalid.1 hempty), List.append_nil]
          exact h.unchanged (hstreak.trans (hfollows hempty hhears).symm) hrearm'
        · rw [if_pos ⟨hempty, hhears⟩]
          exact h.valid hstreak hrearm'
    · rw [if_neg hhears] at hfirst
      cases hfirst
      rw [if_neg (fun hvalid => hhears hvalid.2), List.append_nil]
      exact h.unchanged hstreak hrearm'
  | relayed buf =>
    cases hfirst
    simp only [rearmSigns]
    by_cases hhears : n.hearsRelayed buf w = true
    · rw [if_pos hhears]
      exact h.valid (hstreak.trans (hfollows hhears)) hrearm
    · rw [if_neg hhears, List.append_nil]
      exact h.unchanged hstreak hrearm
  | tick order answers idle =>
    have hsame : p.rearmStreak = (n.paths w).rearmStreak ∧ p.lastRearm = (n.paths w).lastRearm := by
      simp only [leading] at hfirst
      split at hfirst
      · cases hfirst with
        | next _ _ hend =>
          cases hend
          exact ⟨rfl, rfl⟩
      · cases hfirst
        exact ⟨rfl, rfl⟩
    rw [hsame.1] at hstreak
    rw [hsame.2] at hrearm
    simp only [rearmSigns]
    cases hrearms : n.rearms cfg now w (.tick order answers idle) with
    | true =>
      rw [hrearms] at hstreak hrearm
      exact h.rearmed hstreak hrearm
    | false =>
      rw [hrearms] at hstreak hrearm
      rw [if_neg Bool.false_ne_true, List.append_nil]
      exact h.unchanged hstreak hrearm
  | upsert | remove | appRoutes | relayWake | tun | converge | punch =>
    cases hfirst
    show Counted (log ++ []) _
    rw [List.append_nil]
    exact h.unchanged hstreak hrearm

end WireNode

/-- In every run in which the path misses no valid datagram and takes no empty one for valid while
it has a streak, a re-arm waits as the re-arms since the last valid datagram call for. -/
theorem rearm_wait_follows_silence [Crates] [Tunnels] {cfg : WireConfig} {id : SessionId}
    {tr : List ((Int × WireOp) × Bool)} {x : WireNode × List RearmSign}
    (h : ((wireNode cfg).observed (WireNode.rearmSigns cfg id)).Run
      (fun x op => x.1.FollowsSilence id op) tr x)
    (hrelay : cfg.relay.isSome = true) {s : PeerSession}
    (hs : x.1.table.heap.lookup id = some s) (now : Int) {order : SessionId → Nat}
    (hvisited : id ∈ (x.1.table.visited order).map Prod.fst) {answers : SessionId → TimerAnswers}
    (hexpired : (answers id).expired = true) (idle : SessionId → WgAction) :
    x.1.rearms cfg now id (.tick order answers idle) = true ↔
      min (WireNode.rearmBase (!isEphemeralPeer s.ula) * 2 ^ rearmsSince x.2)
        expiredRearmBackoffCap ≤ now - latestRearm x.2 := by
  have hcounted : x.1.table.Inv ∧ Counted x.2 (x.1.paths id) := by
    refine h.invariant (I := fun _ x => x.1.table.Inv ∧ Counted x.2 (x.1.paths id))
      ⟨SessionTable.inv_new, rfl, rfl⟩ ?_
    intro tr x op _ ih _ hfollows
    exact ⟨WireNode.inv_step ih.1 op.2, WireNode.counted_step ih.1 ih.2 hfollows⟩
  obtain ⟨hstreak, hlast⟩ := hcounted.2
  rw [WireNode.rearms, WireNode.maybeRearmExpiredSession_snd, hs, Option.any_some, hexpired, hrelay,
    hstreak, hlast, rearmInterval, escalatingBackoff_eq (rearmBase_pos _)]
  simp [hvisited]

section Example

attribute [local instance] referenceCrates referenceTunnels

def wedgedConfig : WireConfig := ⟨some ⟨true⟩, wireUla⟩

def wedgedRun (ops : List (Int × WireOp)) :
    List ((Int × WireOp) × Bool) × WireNode × List RearmSign :=
  ((wireNode wedgedConfig).observed (WireNode.rearmSigns wedgedConfig 0)).exec []
    ((wireNode wedgedConfig).observed (WireNode.rearmSigns wedgedConfig 0)).init ops

def expiredAnswers (_ : SessionId) : TimerAnswers := ⟨true, .sendToPeer [1], none, false, .nothing⟩

def expiredTick : WireOp := .tick (fun _ => 0) expiredAnswers (fun _ => .nothing)

def wedgedOps : List (Int × WireOp) :=
  [(1000000, .upsert wirePeer), (10000000, expiredTick), (15000000, expiredTick),
    (20000000, expiredTick)]

theorem rearm_wait_follows_silence_wedged :
    (wedgedRun wedgedOps).2.2 = [.rearmed 10000000, .rearmed 20000000] ∧
      (wedgedRun wedgedOps).2.1.rearms wedgedConfig 40000000 0 expiredTick = true := by
  have hrun : ((wireNode wedgedConfig).observed (WireNode.rearmSigns wedgedConfig 0)).Run
      (fun x op => x.1.FollowsSilence 0 op) (wedgedRun wedgedOps).1 (wedgedRun wedgedOps).2 := by
    refine Machine.Run.exec .start ?_
    exact ⟨trivial, trivial, trivial, trivial, trivial, trivial, trivial, trivial, trivial⟩
  have hsession : (wedgedRun wedgedOps).2.1.table.heap.lookup 0 =
      some ⟨1, wirePeer.ula, wirePeer.wgPublicKey, {wirePeer.ula}, some wireAddr, false⟩ := by
    decide +kernel
  refine ⟨by decide +kernel, ?_⟩
  exact (rearm_wait_follows_silence hrun rfl hsession 40000000 (by decide +kernel) rfl _).mpr
    (by decide +kernel)

def answeredOps : List (Int × WireOp) :=
  [(1000000, .upsert wirePeer), (10000000, expiredTick),
    (11000000, .relayed (encodeRelayFrame wirePeer.wgPublicKey wireDatagram))]

/-- The streak outlives the datagram: the next expiry waits twice as long as it should. -/
theorem relayed_answer_keeps_streak :
    (wedgedRun answeredOps).2.2 = [.rearmed 10000000, .valid] ∧
      ((wedgedRun answeredOps).2.1.paths 0).rearmStreak = 1 ∧
      (wedgedRun answeredOps).2.1.rearms wedgedConfig 15500000 0 expiredTick = false ∧
      min (WireNode.rearmBase (!isEphemeralPeer wirePeer.ula) *
        2 ^ rearmsSince (wedgedRun answeredOps).2.2) expiredRearmBackoffCap ≤
          15500000 - latestRearm (wedgedRun answeredOps).2.2 := by
  decide +kernel

end Example

end ServiceMesh
