import ServiceMesh.Transmit

/-! One session of a node, followed through what the node does: what becomes of the session's direct
path, told as a list of events that the path allows, together with the probes that were sent for it.
-/

namespace ServiceMesh

open StdNet (Ipv6Addr SocketAddr)

inductive PathEvent
  | sentData
  | probed
  /-- A slot was claimed for a probe that was not sent. -/
  | skipped
  | heard
  | confirmed
  | downgraded
  | rearmed (base : Int)
deriving DecidableEq, Repr

namespace PathEvent

def ofSending : PathEvent → Bool
  | sentData | probed => true
  | _ => false

def ofTimer : PathEvent → Bool
  | sentData | probed | skipped | rearmed _ => true
  | _ => false

def isTurning : PathEvent → Bool
  | heard | downgraded => true
  | _ => false

def isRearm : PathEvent → Bool
  | rearmed _ => true
  | _ => false

theorem ofTimer_of_ofSending {e : PathEvent} (h : e.ofSending = true) : e.ofTimer = true := by
  cases e <;> simp_all [ofSending, ofTimer]

theorem isTurning_of_ofTimer {e : PathEvent} (h : e.ofTimer = true) : e.isTurning = false := by
  cases e <;> simp_all [isTurning, ofTimer]

theorem countP_isRearm_of_ofSending {events : List PathEvent}
    (h : ∀ e ∈ events, e.ofSending = true) : events.countP isRearm = 0 := by
  rw [List.countP_eq_zero]
  intro e he hrearm
  have hkind := h e he
  cases e <;> simp [ofSending, isRearm] at hkind hrearm

end PathEvent

theorem backoff_pos (k : Nat) : 0 < min (directBackoffBase * 2 ^ k) directBackoffCap := by
  have hpow : (1 : Int) ≤ 2 ^ k := one_le_pow₀ (by omega)
  have hbase : directBackoffBase = 2000000 := rfl
  have hcap : directBackoffCap = 300000000 := rfl
  rw [hbase, hcap]
  omega

namespace PathState

def after (now : Int) (p : PathState) : PathEvent → PathState
  | .sentData => p.noteDirectTx now
  | .probed => { p with lastProbe := now }.noteHandshakeFailure now
  | .skipped => { p with lastProbe := now }
  | .heard => p.noteDirectRx now
  | .confirmed => p.confirmDirect now
  | .downgraded => p.downgrade now
  | .rearmed _ => { p with lastRearm := now, rearmStreak := p.rearmStreak + 1 }

def broken (now : Int) (p : PathState) : Bool :=
  p.stale now directPathTtl || p.txBlackholed now directTxBlackholeTtl

structure Probeable (now : Int) (p : PathState) : Prop where
  unconfirmed : p.directConfirmed = false
  unsuppressed : p.directSuppressedUntil ≤ now
  due : directProbeInterval ≤ now - p.lastProbe

def Allows (now : Int) (p : PathState) : PathEvent → Prop
  | .sentData => p.directConfirmed = true
  | .probed | .skipped => p.Probeable now
  | .heard => True
  -- the packet that confirms the path was heard just before
  | .confirmed => p.failedHandshakes = 0
  | .downgraded => p.broken now = true
  | .rearmed base => rearmInterval p.rearmStreak base expiredRearmBackoffCap ≤ now - p.lastRearm

/-- The events happen one after the other, each of them where the path allows it. -/
inductive Moves (now : Int) : PathState → List PathEvent → PathState → Prop
  | done (p : PathState) : Moves now p [] p
  | next {p p' : PathState} {events : List PathEvent} (e : PathEvent) :
      p.Allows now e → Moves now (p.after now e) events p' → Moves now p (e :: events) p'

variable {now : Int} {p p' p'' : PathState}

theorem Moves.trans {events events' : List PathEvent} (h : Moves now p events p')
    (h' : Moves now p' events' p'') : Moves now p (events ++ events') p'' := by
  induction h with
  | done p => exact h'
  | next e hallows _ ih => exact .next e hallows (ih h')

theorem Moves.split {events events' : List PathEvent} (h : Moves now p (events ++ events') p'') :
    ∃ p', Moves now p events p' ∧ Moves now p' events' p'' := by
  induction events generalizing p with
  | nil => exact ⟨p, .done p, h⟩
  | cons e events ih =>
    cases h with
    | next _ hallows hrest =>
      obtain ⟨p', hfirst, hlast⟩ := ih hrest
      exact ⟨p', .next e hallows hfirst, hlast⟩

theorem Moves.single {e : PathEvent} (h : p.Allows now e) : Moves now p [e] (p.after now e) :=
  .next e h (.done _)

theorem Moves.invariant {I : PathState → Prop} {events : List PathEvent} (h : Moves now p events p')
    (hkeep : ∀ q e, e ∈ events → I q → q.Allows now e → I (q.after now e)) (hp : I p) : I p' := by
  induction h with
  | done p => exact hp
  | next e hallows _ ih =>
    exact ih (fun q e' he' => hkeep q e' (List.mem_cons_of_mem e he'))
      (hkeep _ e List.mem_cons_self hp hallows)

end PathState

def Sending.isProbe (f : Sending) : Bool :=
  f.udp.isSome && (f.site = .dataProbe || (f.site = .wire && !f.relayed.isEmpty))

def WireEvent.probes (id : SessionId) : WireEvent → Bool
  | .sent f => f.session = id && f.isProbe
  | .delivered .. => false

namespace WireNode

def probeCount (n : WireNode) (id : SessionId) : Nat := n.log.countP (WireEvent.probes id)

/-- The events tell what became of the session's path, and every probe of it is among them. -/
structure Shows (now : Int) (id : SessionId) (n n' : WireNode) (events : List PathEvent) : Prop where
  moves : PathState.Moves now (n.paths id) events (n'.paths id)
  probes : n'.probeCount id = n.probeCount id + events.count .probed

def Shown (kind : PathEvent → Bool) (now : Int) (id : SessionId) (n n' : WireNode) : Prop :=
  ∃ events, Shows now id n n' events ∧ ∀ e ∈ events, kind e = true

variable {cfg : WireConfig} {now : Int} {id w : SessionId} {n n' n'' : WireNode}
  {kind kind' : PathEvent → Bool}

theorem Shows.of_eq (hpath : n'.paths id = n.paths id) (hprobes : n'.probeCount id = n.probeCount id) :
    Shows now id n n' [] :=
  ⟨hpath ▸ .done _, hprobes⟩

theorem Shows.trans {events events' : List PathEvent} (h : Shows now id n n' events)
    (h' : Shows now id n' n'' events') : Shows now id n n'' (events ++ events') :=
  ⟨h.moves.trans h'.moves, by rw [h'.probes, h.probes, List.count_append, Nat.add_assoc]⟩

theorem Shown.of_eq (hpath : n'.paths id = n.paths id)
    (hprobes : n'.probeCount id = n.probeCount id) : Shown kind now id n n' :=
  ⟨[], .of_eq hpath hprobes, by simp⟩

theorem Shown.refl (n : WireNode) : Shown kind now id n n := .of_eq rfl rfl

theorem Shown.trans (h : Shown kind now id n n') (h' : Shown kind now id n' n'') :
    Shown kind now id n n'' := by
  obtain ⟨events, hshows, hkind⟩ := h
  obtain ⟨events', hshows', hkind'⟩ := h'
  refine ⟨events ++ events', hshows.trans hshows', ?_⟩
  intro e he
  rcases List.mem_append.mp he with he | he
  · exact hkind e he
  · exact hkind' e he

theorem probeCount_emit (n : WireNode) (f : Sending) (w : SessionId) :
    (n.emit (.sent f)).probeCount w =
      n.probeCount w + if f.session = w ∧ f.isProbe = true then 1 else 0 := by
  show (WireEvent.sent f :: n.log).countP (WireEvent.probes w) = _
  rw [List.countP_cons]
  simp only [WireEvent.probes, Bool.and_eq_true, decide_eq_true_eq]
  rfl

theorem probeCount_emit_of_not {f : Sending} (h : ¬ (f.session = w ∧ f.isProbe = true)) :
    (n.emit (.sent f)).probeCount w = n.probeCount w := by
  rw [probeCount_emit, if_neg h, Nat.add_zero]

theorem paths_setPath_of_ne {p : PathState} (h : w ≠ id) : (n.setPath id p).paths w = n.paths w :=
  Function.update_of_ne h _ _

@[simp] theorem paths_setPath_self {p : PathState} : (n.setPath id p).paths id = p :=
  Function.update_self _ _ _

variable (bytes : List UInt8)

theorem paths_noteSend : (n.noteSend now bytes).paths = n.paths := by
  unfold noteSend
  split <;> rfl

theorem log_noteSend : (n.noteSend now bytes).log = n.log := by
  unfold noteSend
  split <;> rfl

theorem shown_noteSend : Shown kind now w n (n.noteSend now bytes) :=
  .of_eq (congrFun (paths_noteSend bytes) w)
    (congrArg (List.countP (WireEvent.probes w)) (log_noteSend bytes))

theorem shouldProbeDirect_cases (p : PathState) (now : Int) :
    (p.shouldProbeDirect now directProbeInterval = ({ p with lastProbe := now }, true) ∧
      directProbeInterval ≤ now - p.lastProbe) ∨
    p.shouldProbeDirect now directProbeInterval = (p, false) := by
  unfold PathState.shouldProbeDirect
  by_cases hdue : directProbeInterval ≤ now - p.lastProbe
  · exact .inl ⟨if_pos hdue, hdue⟩
  · exact .inr (if_neg hdue)

theorem directSuppressed_eq_false_iff {p : PathState} :
    p.directSuppressed now = false ↔ p.directSuppressedUntil ≤ now := by
  simp [PathState.directSuppressed]

theorem probeBeside_cases (relay : RelayHandle) (now : Int) (endpoint : Option SocketAddr)
    (p : PathState) :
    probeBeside relay now endpoint p = (p, none) ∨
      ∃ addr, endpoint = some addr ∧ p.directSuppressedUntil ≤ now ∧
        directProbeInterval ≤ now - p.lastProbe ∧
        probeBeside relay now endpoint p = (p.after now .probed, some addr) := by
  unfold probeBeside
  by_cases hclosed : (relay.relayOnly || p.directSuppressed now) = true
  · exact .inl (if_pos hclosed)
  · rw [if_neg hclosed]
    cases endpoint with
    | none => exact .inl rfl
    | some addr =>
      rcases shouldProbeDirect_cases p now with ⟨hclaim, hdue⟩ | hclaim
      · simp only [Bool.or_eq_true, not_or, Bool.not_eq_true] at hclosed
        refine .inr ⟨addr, rfl, directSuppressed_eq_false_iff.mp hclosed.2, hdue, ?_⟩
        simp only [hclaim]
        rfl
      · exact .inl (by simp only [hclaim])

theorem sendWire_other (h : w ≠ id) (bytes : List UInt8) :
    (n.sendWire cfg now id bytes).paths w = n.paths w ∧
      (n.sendWire cfg now id bytes).probeCount w = n.probeCount w := by
  have hnoted : (n.noteSend now bytes).paths w = n.paths w ∧
      (n.noteSend now bytes).probeCount w = n.probeCount w :=
    ⟨congrFun (paths_noteSend bytes) w,
      congrArg (List.countP (WireEvent.probes w)) (log_noteSend bytes)⟩
  have hframe : ∀ (m : WireNode) (f : Sending), f.session = id →
      (m.emit (.sent f)).probeCount w = m.probeCount w := by
    intro m f hf
    exact probeCount_emit_of_not (fun hw => h (hw.1.symm.trans hf))
  unfold sendWire
  split
  · exact ⟨rfl, rfl⟩
  · rename_i s hs
    simp only
    generalize n.noteSend now bytes = n₁ at hnoted
    split
    · split
      · exact ⟨(paths_setPath_of_ne h).trans hnoted.1, (hframe _ _ rfl).trans hnoted.2⟩
      · exact ⟨hnoted.1, (hframe _ _ rfl).trans hnoted.2⟩
    · split
      · exact ⟨(paths_setPath_of_ne h).trans hnoted.1, (hframe _ _ rfl).trans hnoted.2⟩
      · split
        · exact ⟨hnoted.1, (hframe _ _ rfl).trans hnoted.2⟩
        · exact hnoted

theorem shown_sendWire (w : SessionId) :
    Shown PathEvent.ofSending now w n (n.sendWire cfg now id bytes) := by
  by_cases hw : w = id
  swap
  · exact .of_eq (sendWire_other hw bytes).1 (sendWire_other hw bytes).2
  subst hw
  unfold sendWire
  split
  · exact .refl n
  · rename_i s hs
    have hnoted : Shown PathEvent.ofSending now w n (n.noteSend now bytes) := shown_noteSend bytes
    simp only
    generalize n.noteSend now bytes = n₁ at hnoted
    refine hnoted.trans ?_
    split
    · rename_i endpoint hconfirmed hendpoint
      split
      · refine ⟨[.sentData], ⟨?_, probeCount_emit_of_not (by simp [Sending.isProbe])⟩,
          by simp [PathEvent.ofSending]⟩
        show PathState.Moves now (n₁.paths w) [.sentData] ((n₁.setPath w _).paths w)
        rw [paths_setPath_self]
        exact .single hconfirmed
      · exact .of_eq rfl (probeCount_emit_of_not (by simp [Sending.isProbe]))
    · rename_i hunconfirmed
      split
      · rename_i relay hrelay
        rcases probeBeside_cases relay now s.endpoint (n₁.paths w) with
          hnone | ⟨addr, haddr, hopen, hdue, hprobe⟩
        · rw [hnone]
          refine .of_eq ?_ (probeCount_emit_of_not (by simp [Sending.isProbe]))
          exact paths_setPath_self
        · have hno : (n₁.paths w).directConfirmed = false := by
            refine Bool.eq_false_iff.mpr (fun hconfirmed => ?_)
            exact hunconfirmed addr hconfirmed haddr
          rw [hprobe]
          refine ⟨[.probed], ⟨?_, ?_⟩, by simp [PathEvent.ofSending]⟩
          · show PathState.Moves now (n₁.paths w) [.probed] ((n₁.setPath w _).paths w)
            rw [paths_setPath_self]
            exact .single ⟨hno, hopen, hdue⟩
          · rw [probeCount_emit]
            simp [Sending.isProbe, probeCount, setPath]
      · split
        · exact .of_eq rfl (probeCount_emit_of_not (by simp [Sending.isProbe]))
        · exact .refl n₁

theorem sendWireRelayFloored_frame (w : SessionId) :
    (n.sendWireRelayFloored cfg now id bytes).paths w = n.paths w ∧
      (n.sendWireRelayFloored cfg now id bytes).probeCount w = n.probeCount w := by
  have hnoted : (n.noteSend now bytes).paths w = n.paths w ∧
      (n.noteSend now bytes).probeCount w = n.probeCount w :=
    ⟨congrFun (paths_noteSend bytes) w,
      congrArg (List.countP (WireEvent.probes w)) (log_noteSend bytes)⟩
  unfold sendWireRelayFloored
  split
  · exact ⟨rfl, rfl⟩
  · simp only
    split
    · exact ⟨hnoted.1, (probeCount_emit_of_not (by simp [Sending.isProbe])).trans hnoted.2⟩
    · exact hnoted

theorem sendSealed_floored_frame (cfg : WireConfig) (now : Int) (id : SessionId) (answer : WgAction)
    (n : WireNode) (w : SessionId) :
    (sendSealed (sendWireRelayFloored cfg now id) answer n).paths w = n.paths w ∧
      (sendSealed (sendWireRelayFloored cfg now id) answer n).probeCount w = n.probeCount w := by
  cases answer with
  | sendToPeer bytes => exact sendWireRelayFloored_frame bytes w
  | deliverToTun packet | nothing | error message => exact ⟨rfl, rfl⟩

theorem shown_drain {source : Option SocketAddr} (frames : List (List UInt8)) (w : SessionId) :
    Shown PathEvent.ofSending now w n (n.drain cfg now id source frames) := by
  induction frames generalizing n with
  | nil => exact .refl n
  | cons frame rest ih =>
    have hqueue : Shown PathEvent.ofSending now w n (n.setQueue id rest) := .of_eq rfl rfl
    exact (hqueue.trans (shown_sendWire frame w)).trans ih

theorem shown_tunRead (packet : List UInt8) (answer : WgAction) (held : List UInt8)
    (w : SessionId) : Shown PathEvent.ofSending now w n (n.tunRead cfg now packet answer held) := by
  unfold tunRead
  split
  · exact .refl n
  · split
    · exact .refl n
    · split
      · exact .refl n
      · split
        · exact shown_sendWire _ w
        · exact .of_eq rfl rfl
        · exact .refl n
        · exact .refl n

theorem converge_frame (answer : WgAction) (w : SessionId) :
    (n.converge cfg now answer).paths w = n.paths w ∧
      (n.converge cfg now answer).probeCount w = n.probeCount w := by
  unfold converge
  split
  · exact ⟨rfl, rfl⟩
  · exact sendSealed_floored_frame cfg now _ answer _ w

theorem shown_maybeIdleProbe (idle : SessionId → WgAction) (w : SessionId) :
    Shown PathEvent.ofSending now w n (n.maybeIdleProbe cfg now idle) := by
  unfold maybeIdleProbe
  split
  · exact .refl n
  · rename_i c _
    have hclaimed : Shown PathEvent.ofSending now w n (n.setClocks c) := .of_eq rfl rfl
    simp only
    split
    · exact hclaimed
    · rename_i id _
      refine hclaimed.trans ?_
      cases idle id with
      | sendToPeer bytes => exact shown_sendWire bytes w
      | deliverToTun packet | nothing | error message => exact .refl _

end WireNode

end ServiceMesh
