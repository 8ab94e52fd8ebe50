import ServiceMesh.SessionPath

/-! The probes that a node sends at the candidate address of a session, beside the copies for the
relay and on the timer. Both places claim the same slot and open the same back-off. -/

namespace ServiceMesh

open StdNet (Ipv6Addr SocketAddr)

namespace WireNode

structure ProbeDue (cfg : WireConfig) (n : WireNode) (now : Int) (id : SessionId) : Prop where
  relay : ∃ relay, cfg.relay = some relay ∧ relay.relayOnly = false
  endpoint : ∃ addr, (n.table.heap.lookup id).bind PeerSession.endpoint = some addr
  path : (n.paths id).Probeable now

end WireNode

def TimerAnswers.seals (a : TimerAnswers) : Bool :=
  a.established && match a.probe with
    | .sendToPeer _ => true
    | .deliverToTun _ | .nothing | .error _ => false

namespace WireNode

variable {cfg : WireConfig} {now : Int} {id : SessionId} {a : TimerAnswers} {n : WireNode}

theorem maybeDirectDataProbe_of_not_due (h : ¬ n.ProbeDue cfg now id) :
    n.maybeDirectDataProbe cfg now id a = n := by
  unfold maybeDirectDataProbe
  split
  · rename_i relay addr hrelay haddr
    split
    · rfl
    · rename_i hopen
      simp only [Bool.or_eq_true, not_or, Bool.not_eq_true] at hopen
      rcases shouldProbeDirect_cases (n.paths id) now with ⟨hclaim, hdue⟩ | hclaim
      · have hsuppressed := directSuppressed_eq_false_iff.mp hopen.2
        exact absurd ⟨⟨relay, hrelay, hopen.1.1⟩, ⟨addr, haddr⟩, hopen.1.2, hsuppressed, hdue⟩ h
      · simp only [hclaim]
  · rfl

theorem maybeDirectDataProbe_of_due (h : n.ProbeDue cfg now id) :
    (a.seals = true → (n.maybeDirectDataProbe cfg now id a).log ≠ n.log) ∧
      (a.seals = false → n.maybeDirectDataProbe cfg now id a =
        n.setPath id ((n.paths id).after now .skipped)) := by
  obtain ⟨relay, hrelay, hdirect⟩ := h.relay
  obtain ⟨addr, haddr⟩ := h.endpoint
  have hopen : (relay.relayOnly || (n.paths id).directConfirmed || (n.paths id).directSuppressed now) =
      false := by
    rw [hdirect, h.path.unconfirmed, directSuppressed_eq_false_iff.mpr h.path.unsuppressed]
    rfl
  have hclaim : (n.paths id).shouldProbeDirect now directProbeInterval =
      ({ n.paths id with lastProbe := now }, true) := if_pos h.path.due
  unfold maybeDirectDataProbe TimerAnswers.seals
  simp only [hrelay, haddr, hopen, hclaim, Bool.false_eq_true, if_false]
  cases a.established with
  | false => exact ⟨by simp, fun _ => rfl⟩
  | true =>
    cases a.probe with
    | sendToPeer bytes => exact ⟨fun _ => List.cons_ne_self _ _, by simp⟩
    | deliverToTun packet | nothing | error message => exact ⟨by simp, fun _ => rfl⟩

end WireNode

/-- A call that sends nothing changes nothing, unless a probe is due and the tunnel gives no frame
for it. -/
theorem skipped_probe_leaves_no_trace (cfg : WireConfig) (now : Int) (id : SessionId)
    (a : TimerAnswers) (n : WireNode) :
    ((n.maybeDirectDataProbe cfg now id a).log = n.log → n.maybeDirectDataProbe cfg now id a = n) ↔
      (n.ProbeDue cfg now id → a.seals = true) := by
  by_cases hdue : n.ProbeDue cfg now id
  · obtain ⟨hsent, hskipped⟩ := WireNode.maybeDirectDataProbe_of_due (a := a) hdue
    cases hseals : a.seals with
    | true => exact iff_of_true (fun hlog => absurd hlog (hsent hseals)) (fun _ => rfl)
    | false =>
      refine iff_of_false ?_ (by simp [hdue])
      intro hsame
      have hpath : n.setPath id ((n.paths id).after now .skipped) = n :=
        (hskipped hseals).symm.trans (hsame (by rw [hskipped hseals]; rfl))
      -- the slot was claimed at a time at which it was not claimed before
      have hprobe : now = (n.paths id).lastProbe := by
        have hfield := congrArg (fun m : WireNode => (m.paths id).lastProbe) hpath
        simpa [PathState.after] using hfield
      have hinterval := hdue.path.due
      rw [hprobe, sub_self] at hinterval
      exact absurd hinterval (by decide)
  · exact iff_of_true (fun _ => WireNode.maybeDirectDataProbe_of_not_due hdue)
      (fun h => absurd h hdue)

inductive Pace
  | valid (t : Int)
  | downgrade (t : Int)
  | probe (t : Int)
deriving DecidableEq, Repr

namespace Pace

def isProbe : Pace → Bool
  | probe _ => true
  | _ => false

def counted (k : Nat) : Pace → Nat
  | valid _ => 0
  | downgrade _ | probe _ => k + 1

end Pace

def PathEvent.pace (now : Int) : PathEvent → List Pace
  | .probed => [.probe now]
  | .heard => [.valid now]
  | .downgraded => [.downgrade now]
  | .sentData | .skipped | .confirmed | .rearmed _ => []

def failures (log : List Pace) : Nat := log.foldl Pace.counted 0

/-- Probes keep the interval. The probe after `k` failures is followed by none for the window of
`k + 1` failures, unless a valid datagram comes in between. Without valid datagrams, a time has room
for nine probes and for one more in each full window. -/
structure PacedProbes (log : List Pace) : Prop where
  spaced : ∀ a t b t' c, log = a ++ .probe t :: (b ++ .probe t' :: c) →
    directProbeInterval ≤ t' - t
  backedOff : ∀ a t b t' c, log = a ++ .probe t :: (b ++ .probe t' :: c) → (∀ v, .valid v ∉ b) →
    min (directBackoffBase * 2 ^ failures a) directBackoffCap ≤ t' - t
  few : ∀ a b c start length, log = a ++ b ++ c → (∀ v, .valid v ∉ b) → 0 ≤ length →
    (∀ t, .probe t ∈ b → start ≤ t ∧ t ≤ start + length) →
    (b.countP Pace.isProbe : Int) ≤ 9 + length / directBackoffCap

theorem failures_append (a b : List Pace) : failures (a ++ b) = b.foldl Pace.counted (failures a) :=
  List.foldl_append ..

theorem le_foldl_counted {b : List Pace} (h : ∀ v, .valid v ∉ b) (k : Nat) :
    k + b.countP Pace.isProbe ≤ b.foldl Pace.counted k := by
  induction b generalizing k with
  | nil => simp
  | cons x b ih =>
    have hrest : ∀ v, Pace.valid v ∉ b := fun v hv => h v (List.mem_cons_of_mem x hv)
    rw [List.foldl_cons, List.countP_cons]
    cases x with
    | valid t => exact absurd List.mem_cons_self (h t)
    | downgrade t | probe t =>
      have hle := ih hrest (k + 1)
      simp only [Pace.isProbe, Pace.counted, if_true, Bool.false_eq_true, if_false] at hle ⊢
      omega

theorem failures_pos {a b : List Pace} {t : Int} (h : ∀ v, .valid v ∉ b) :
    0 < failures (a ++ .probe t :: b) := by
  rw [failures_append, List.foldl_cons]
  have hle := le_foldl_counted h (Pace.counted (failures a) (.probe t))
  have hone : Pace.counted (failures a) (.probe t) = failures a + 1 := rfl
  omega

theorem concat_eq_append_cons {α : Type} {log a b : List α} {x e : α}
    (h : log ++ [x] = a ++ e :: b) :
    (log = a ∧ x = e ∧ b = []) ∨ ∃ b', b = b' ++ [x] ∧ log = a ++ e :: b' := by
  rcases List.eq_nil_or_concat b with rfl | ⟨b', y, rfl⟩
  · obtain ⟨hlog, hx⟩ := List.append_inj' h rfl
    exact .inl ⟨hlog, List.singleton_inj.mp hx, rfl⟩
  · rw [List.concat_eq_append, ← List.cons_append, ← List.append_assoc] at h
    obtain ⟨hlog, hx⟩ := List.append_inj' h rfl
    obtain rfl := List.singleton_inj.mp hx
    exact .inr ⟨b', List.concat_eq_append, hlog⟩

theorem exists_last_probe {b : List Pace} (h : 0 < b.countP Pace.isProbe) :
    ∃ b₁ t b₂, b = b₁ ++ .probe t :: b₂ ∧ b₂.countP Pace.isProbe = 0 := by
  induction b with
  | nil => simp at h
  | cons x b ih =>
    by_cases hrest : 0 < b.countP Pace.isProbe
    · obtain ⟨b₁, t, b₂, hb, hb₂⟩ := ih hrest
      exact ⟨x :: b₁, t, b₂, by rw [hb]; rfl, hb₂⟩
    · rw [List.countP_cons] at h
      cases x with
      | probe t => exact ⟨[], t, b, rfl, by omega⟩
      | valid t | downgrade t =>
        simp only [Pace.isProbe, Bool.false_eq_true, if_false] at h
        omega

structure Pacing (log : List Pace) (p : PathState) : Prop where
  counted : failures log = p.failedHandshakes
  unpenalised : p.directConfirmed = true → p.failedHandshakes = 0
  stamped : ∀ t, .probe t ∈ log → t ≤ p.lastProbe
  suppressed : ∀ a t b, log = a ++ .probe t :: b → (∀ v, .valid v ∉ b) →
    t + min (directBackoffBase * 2 ^ failures a) directBackoffCap ≤ p.directSuppressedUntil
  spaced : ∀ a t b t' c, log = a ++ .probe t :: (b ++ .probe t' :: c) →
    directProbeInterval ≤ t' - t
  backedOff : ∀ a t b t' c, log = a ++ .probe t :: (b ++ .probe t' :: c) → (∀ v, .valid v ∉ b) →
    min (directBackoffBase * 2 ^ failures a) directBackoffCap ≤ t' - t

theorem backoff_clamped (k : Nat) :
    min (directBackoffBase * 2 ^ min k 30) directBackoffCap =
      min (directBackoffBase * 2 ^ k) directBackoffCap := by
  by_cases hk : k ≤ 30
  · rw [min_eq_left hk]
  · have hpow : (2 : Int) ^ 30 ≤ 2 ^ k := pow_le_pow_right₀ (by omega) (by omega)
    have hbase : directBackoffBase = 2000000 := rfl
    have hcap : directBackoffCap = 300000000 := rfl
    rw [min_eq_right (by omega : 30 ≤ k), hbase, hcap]
    omega

theorem backoff_capped {k : Nat} (hk : 8 ≤ k) :
    min (directBackoffBase * 2 ^ k) directBackoffCap = directBackoffCap := by
  have hpow : (2 : Int) ^ 8 ≤ 2 ^ k := pow_le_pow_right₀ (by omega) hk
  have hbase : directBackoffBase = 2000000 := rfl
  have hcap : directBackoffCap = 300000000 := rfl
  rw [hbase, hcap]
  omega

namespace Pacing

variable {log : List Pace} {p : PathState} {now : Int}

theorem start : Pacing [] .fresh := by
  refine ⟨rfl, fun _ => rfl, by simp, ?_, ?_, ?_⟩ <;> simp

theorem unseen (h : Pacing log p) {p' : PathState}
    (hfailed : p'.failedHandshakes = p.failedHandshakes)
    (hconfirmed : p'.directConfirmed = true → p'.failedHandshakes = 0)
    (hprobe : p.lastProbe ≤ p'.lastProbe)
    (hsuppressed : p.failedHandshakes = 0 ∨ p.directSuppressedUntil ≤ p'.directSuppressedUntil) :
    Pacing log p' := by
  refine ⟨h.counted.trans hfailed.symm, hconfirmed, fun t ht => (h.stamped t ht).trans hprobe, ?_,
    h.spaced, h.backedOff⟩
  intro a t b hlog hno
  rcases hsuppressed with hnone | hsuppressed
  · have hpos : 0 < failures (a ++ .probe t :: b) := failures_pos hno
    rw [← hlog, h.counted] at hpos
    omega
  · exact (h.suppressed a t b hlog hno).trans hsuppressed

theorem probed (h : Pacing log p) (hprobeable : p.Probeable now) :
    Pacing (log ++ [.probe now]) (p.after now .probed) := by
  have hcount : failures (log ++ [.probe now]) = failures log + 1 := failures_append log _
  have huntil : (p.after now .probed).directSuppressedUntil =
      now + min (directBackoffBase * 2 ^ failures log) directBackoffCap := by
    rw [h.counted, ← backoff_clamped]
    rfl
  have hpos := backoff_pos (failures log)
  have hinterval : directProbeInterval = 1000000 := rfl
  refine ⟨?_, ?_, ?_, ?_, ?_, ?_⟩
  · rw [hcount, h.counted]
    rfl
  · intro hconfirmed
    have hsame : (p.after now .probed).directConfirmed = p.directConfirmed := rfl
    rw [hsame, hprobeable.unconfirmed] at hconfirmed
    exact absurd hconfirmed Bool.false_ne_true
  · intro t ht
    show t ≤ now
    rcases List.mem_append.mp ht with hold | hnew
    · have hstamped := h.stamped t hold
      have hdue := hprobeable.due
      omega
    · obtain rfl := Pace.probe.inj (List.mem_singleton.mp hnew)
      exact Int.le_refl _
  · intro a t b hlog hno
    rw [huntil]
    rcases concat_eq_append_cons hlog with ⟨rfl, heq, -⟩ | ⟨b', rfl, hold⟩
    · rw [Pace.probe.inj heq]
    · have hsuppressed := h.suppressed a t b' hold (fun v hv => hno v (List.mem_append_left _ hv))
      have hopen := hprobeable.unsuppressed
      omega
  · intro a t b t' c hlog
    rw [← List.cons_append, ← List.append_assoc] at hlog
    rcases concat_eq_append_cons hlog with ⟨hold, heq, -⟩ | ⟨c', -, hold⟩
    · have hstamped := h.stamped t (by rw [hold]; simp)
      have hdue := hprobeable.due
      rw [← Pace.probe.inj heq]
      omega
    · exact h.spaced a t b t' c' (by rw [hold, List.append_assoc, List.cons_append])
  · intro a t b t' c hlog hno
    rw [← List.cons_append, ← List.append_assoc] at hlog
    rcases concat_eq_append_cons hlog with ⟨hold, heq, -⟩ | ⟨c', -, hold⟩
    · have hsuppressed := h.suppressed a t b hold hno
      have hopen := hprobeable.unsuppressed
      rw [← Pace.probe.inj heq]
      omega
    · exact h.backedOff a t b t' c' (by rw [hold, List.append_assoc, List.cons_append]) hno

theorem answered (h : Pacing log p) {x : Pace} {p' : PathState} (hx : x.isProbe = false)
    (hcounted : failures (log ++ [x]) = p'.failedHandshakes)
    (hconfirmed : p'.directConfirmed = true → p'.failedHandshakes = 0)
    (hprobe : p'.lastProbe = p.lastProbe)
    (hno : ∀ a t b, log = a ++ .probe t :: b → ∃ v, .valid v ∈ b ++ [x]) :
    Pacing (log ++ [x]) p' := by
  have hne : ∀ t, x ≠ .probe t := by
    rintro t rfl
    simp [Pace.isProbe] at hx
  refine ⟨hcounted, hconfirmed, ?_, ?_, ?_, ?_⟩
  · intro t ht
    rw [hprobe]
    rcases List.mem_append.mp ht with hold | hnew
    · exact h.stamped t hold
    · exact absurd (List.mem_singleton.mp hnew).symm (hne t)
  · intro a t b hlog hvalid
    rcases concat_eq_append_cons hlog with ⟨-, heq, -⟩ | ⟨b', rfl, hold⟩
    · exact absurd heq (hne t)
    · obtain ⟨v, hv⟩ := hno a t b' hold
      exact absurd hv (hvalid v)
  · intro a t b t' c hlog
    rw [← List.cons_append, ← List.append_assoc] at hlog
    rcases concat_eq_append_cons hlog with ⟨-, heq, -⟩ | ⟨c', -, hold⟩
    · exact absurd heq (hne t')
    · exact h.spaced a t b t' c' (by rw [hold, List.append_assoc, List.cons_append])
  · intro a t b t' c hlog hvalid
    rw [← List.cons_append, ← List.append_assoc] at hlog
    rcases concat_eq_append_cons hlog with ⟨-, heq, -⟩ | ⟨c', -, hold⟩
    · exact absurd heq (hne t')
    · exact h.backedOff a t b t' c' (by rw [hold, List.append_assoc, List.cons_append]) hvalid

theorem heard (h : Pacing log p) : Pacing (log ++ [.valid now]) (p.after now .heard) :=
  h.answered rfl (failures_append log _) (fun _ => rfl) rfl (fun _ _ _ _ => ⟨now, by simp⟩)

theorem downgraded (h : Pacing log p) (hconfirmed : p.directConfirmed = true) :
    Pacing (log ++ [.downgrade now]) (p.after now .downgraded) := by
  have hnone := h.counted.trans (h.unpenalised hconfirmed)
  refine h.answered rfl ?_ ?_ rfl ?_
  · rw [failures_append, h.counted]
    rfl
  · intro hstill
    exact absurd hstill Bool.false_ne_true
  · intro a t b hlog
    by_contra hno
    push Not at hno
    have hpos : 0 < failures (a ++ .probe t :: b) :=
      failures_pos (fun v hv => hno v (List.mem_append_left _ hv))
    rw [← hlog] at hpos
    omega

theorem event (h : Pacing log p) {e : PathEvent} (hallows : p.Allows now e) :
    Pacing (log ++ e.pace now) (p.after now e) := by
  cases e with
  | probed => exact h.probed hallows
  | heard => exact h.heard
  | downgraded =>
    have hconfirmed : p.directConfirmed = true := by
      have hbroken : p.broken now = true := hallows
      unfold PathState.broken PathState.stale PathState.txBlackholed at hbroken
      cases hconfirmed : p.directConfirmed with
      | true => rfl
      | false => simp [hconfirmed] at hbroken
    exact h.downgraded hconfirmed
  | skipped =>
    have hdue : directProbeInterval ≤ now - p.lastProbe := PathState.Probeable.due hallows
    have hinterval : directProbeInterval = 1000000 := rfl
    have hforward : p.lastProbe ≤ now := by omega
    rw [PathEvent.pace, List.append_nil]
    exact h.unseen rfl h.unpenalised hforward (.inr (Int.le_refl _))
  | confirmed =>
    rw [PathEvent.pace, List.append_nil]
    exact h.unseen rfl (fun _ => hallows) (Int.le_refl _) (.inr (Int.le_refl _))
  | sentData | rearmed base =>
    rw [PathEvent.pace, List.append_nil]
    exact h.unseen rfl h.unpenalised (Int.le_refl _) (.inr (Int.le_refl _))

theorem moves {events : List PathEvent} {p' : PathState} (h : Pacing log p)
    (hmoves : PathState.Moves now p events p') :
    Pacing (log ++ events.flatMap (PathEvent.pace now)) p' := by
  induction hmoves generalizing log with
  | done p => simpa using h
  | next e hallows _ ih =>
    have hnext := ih (h.event hallows)
    rwa [List.append_assoc] at hnext

theorem few (h : Pacing log p) (a b c : List Pace) (start length : Int) (hlog : log = a ++ b ++ c)
    (hno : ∀ v, .valid v ∉ b) (hlength : 0 ≤ length)
    (htimes : ∀ t, .probe t ∈ b → start ≤ t ∧ t ≤ start + length) :
    (b.countP Pace.isProbe : Int) ≤ 9 + length / directBackoffCap := by
  have hcap : directBackoffCap = 300000000 := rfl
  -- by induction on the probes, for the time of the last one
  have hlast : ∀ m b c, log = a ++ b ++ c → (∀ v, .valid v ∉ b) →
      (∀ t, .probe t ∈ b → start ≤ t) → b.countP Pace.isProbe = m + 1 →
      ∀ b₁ t b₂, b = b₁ ++ .probe t :: b₂ → b₂.countP Pace.isProbe = 0 →
        directBackoffCap * ((m : Int) - 8) ≤ t - start := by
    intro m
    induction m with
    | zero =>
      intro b c _ _ hfrom _ b₁ t b₂ hb _
      have hstart := hfrom t (by rw [hb]; simp)
      rw [hcap]
      omega
    | succ m ih =>
      intro b c hlog hno hfrom hcount b₁ t b₂ hb hb₂
      have hcount₁ : b₁.countP Pace.isProbe = m + 1 := by
        rw [hb, List.countP_append, List.countP_cons, hb₂] at hcount
        simp only [Pace.isProbe, if_true] at hcount
        omega
      obtain ⟨b₃, t', b₄, hb₁, hb₄⟩ := exists_last_probe (b := b₁) (by omega)
      have hmem : ∀ x ∈ b₁, x ∈ b := fun x hx => hb ▸ List.mem_append_left _ hx
      have hearlier := ih b₁ (.probe t :: b₂ ++ c) (by rw [hlog, hb]; simp)
        (fun v hv => hno v (hmem _ hv)) (fun t ht => hfrom t (hmem _ ht)) hcount₁ b₃ t' b₄ hb₁ hb₄
      by_cases hm : m < 8
      · have hstart := hfrom t (by rw [hb]; simp)
        rw [hcap]
        omega
      · have hsplit : log = (a ++ b₃) ++ .probe t' :: (b₄ ++ .probe t :: (b₂ ++ c)) := by
          rw [hlog, hb, hb₁]
          simp
        have hwindow := h.backedOff _ _ _ _ _ hsplit
          (fun v hv => hno v (hmem _ (by rw [hb₁]; simp [hv])))
        have hfailures : 8 ≤ failures (a ++ b₃) := by
          have hle := le_foldl_counted (b := b₃) (fun v hv => hno v (hmem _ (by rw [hb₁]; simp [hv])))
            (failures a)
          rw [hb₁, List.countP_append, List.countP_cons, hb₄] at hcount₁
          simp only [Pace.isProbe, if_true] at hcount₁
          rw [failures_append]
          omega
        rw [backoff_capped hfailures] at hwindow
        rw [hcap] at hwindow hearlier ⊢
        omega
  cases hcount : b.countP Pace.isProbe with
  | zero =>
    have hquot : 0 ≤ length / directBackoffCap := Int.ediv_nonneg hlength (by rw [hcap]; decide)
    omega
  | succ m =>
    obtain ⟨b₁, t, b₂, hb, hb₂⟩ := exists_last_probe (b := b) (by omega)
    have hbound := hlast m b c hlog hno (fun t ht => (htimes t ht).1) hcount b₁ t b₂ hb hb₂
    have hend := (htimes t (by rw [hb]; simp)).2
    have hquot : (m : Int) - 8 ≤ length / directBackoffCap := by
      refine (Int.le_ediv_iff_mul_le (by rw [hcap]; decide)).mpr ?_
      rw [Int.mul_comm]
      omega
    push_cast
    omega

theorem pacedProbes (h : Pacing log p) : PacedProbes log := ⟨h.spaced, h.backedOff, h.few⟩

end Pacing

namespace WireNode

variable [Crates] [Tunnels]

def turns (id : SessionId) (n : WireNode) : Int × WireOp → List Pace
  | (now, .datagram order source bytes) =>
    if bytes ≠ [] ∧ n.hears order source bytes id = true then [.valid now] else []
  | (now, .tick order _ _) =>
    if id ∈ (n.table.visited order).map Prod.fst ∧ (n.paths id).broken now = true
      then [.downgrade now] else []
  | _ => []

def pace (cfg : WireConfig) (id : SessionId) (n : WireNode) (op : Int × WireOp) : List Pace :=
  n.turns id op ++
    List.replicate ((n.step cfg op.1 op.2).probeCount id - n.probeCount id) (.probe op.1)

def KeepsBackoff (id : SessionId) (n : WireNode) (op : Int × WireOp) : Prop :=
  ∀ order source, op.2 = .datagram order source [] → n.hears order source [] id = true →
    (n.paths id).failedHandshakes = 0

end WireNode

theorem flatMap_pace_of_not_turning {now : Int} {events : List PathEvent}
    (h : ∀ e ∈ events, e.isTurning = false) :
    events.flatMap (PathEvent.pace now) = List.replicate (events.count .probed) (.probe now) := by
  induction events with
  | nil => rfl
  | cons e events ih =>
    have hrest := ih (fun e' he' => h e' (List.mem_cons_of_mem e he'))
    have hfirst := h e List.mem_cons_self
    rw [List.flatMap_cons, hrest, List.count_cons]
    cases e with
    | heard | downgraded => simp [PathEvent.isTurning] at hfirst
    | probed => simp [PathEvent.pace, List.replicate_succ]
    | sentData | skipped | confirmed | rearmed base => simp [PathEvent.pace]

namespace WireNode

variable [Crates] [Tunnels] {cfg : WireConfig} {id : SessionId} {n : WireNode}

omit [Crates] in
theorem pacing_leading {log : List Pace} (h : Pacing log (n.paths id)) {now : Int} {op : WireOp}
    (hkeeps : n.KeepsBackoff id (now, op)) {p : PathState}
    (hmoves : PathState.Moves now (n.paths id) (n.leading now id op) p) :
    Pacing (log ++ n.turns id (now, op)) p := by
  have hseen := h.moves hmoves
  cases op with
  | datagram order source bytes =>
    simp only [leading] at hmoves hseen
    simp only [turns]
    by_cases hhears : n.hears order source bytes id = true
    · by_cases hempty : bytes = []
      · subst hempty
        have hnone := hkeeps order source rfl hhears
        rw [if_pos hhears] at hmoves
        rw [if_neg (by simp), List.append_nil]
        cases hmoves with
        | next _ _ hend =>
          cases hend
          exact h.unseen hnone.symm (fun _ => rfl) (Int.le_refl _) (.inl hnone)
      · rw [if_pos ⟨hempty, hhears⟩]
        rwa [if_pos hhears] at hseen
    · rw [if_neg (fun hvalid => hhears hvalid.2)]
      rwa [if_neg hhears] at hseen
  | tick order answers idle =>
    simp only [leading] at hseen
    simp only [turns]
    by_cases hdown : id ∈ (n.table.visited order).map Prod.fst ∧ (n.paths id).broken now = true
    · rw [if_pos hdown] at hseen ⊢
      exact hseen
    · rw [if_neg hdown] at hseen ⊢
      exact hseen
  | upsert | remove | appRoutes | relayWake | relayed | tun | converge | punch => exact hseen

theorem pacing_step (hinv : n.table.Inv) {log : List Pace} (h : Pacing log (n.paths id))
    {op : Int × WireOp} (hkeeps : n.KeepsBackoff id op) :
    Pacing (log ++ n.pace cfg id op) ((n.step cfg op.1 op.2).paths id) := by
  obtain ⟨now, op⟩ := op
  obtain ⟨rest, hshows, hrest, -⟩ := shows_step hinv cfg now op id
  have hprobes : (n.step cfg now op).probeCount id - n.probeCount id = rest.count .probed := by
    have hleading : (n.leading now id op).count .probed = 0 := by
      unfold leading
      split
      · split <;> simp
      · split <;> simp
      · simp
    have hcount := hshows.probes
    rw [List.count_append, hleading] at hcount
    omega
  obtain ⟨p, hfirst, hlast⟩ := hshows.moves.split
  have hpaced := (pacing_leading h hkeeps hfirst).moves hlast
  rw [flatMap_pace_of_not_turning hrest, List.append_assoc] at hpaced
  unfold pace
  rw [hprobes]
  exact hpaced

end WireNode

section Example

attribute [local instance] referenceCrates referenceTunnels

def probingConfig : WireConfig := ⟨some ⟨false⟩, wireUla⟩

def probingNode (ops : List (Int × WireOp)) : WireNode :=
  ((wireNode probingConfig).exec [] (wireNode probingConfig).init ops).2

def probingRun (ops : List (Int × WireOp)) :
    List ((Int × WireOp) × Bool) × WireNode × List Pace :=
  ((wireNode probingConfig).observed (WireNode.pace probingConfig 0)).exec []
    ((wireNode probingConfig).observed (WireNode.pace probingConfig 0)).init ops

def pendingAnswers : TimerAnswers := ⟨false, .nothing, none, false, .nothing⟩

def candidateNode : WireNode := probingNode [(1000000, .upsert wirePeer)]

def skippedNode : WireNode := candidateNode.maybeDirectDataProbe probingConfig 5000000 0 pendingAnswers

/-- Nothing is sent, but the slot is gone: the frame that follows half a second later would have
gone out to the candidate too. -/
theorem skipped_probe_takes_slot :
    skippedNode.log = candidateNode.log ∧
      (candidateNode.paths 0).lastProbe = 0 ∧ (skippedNode.paths 0).lastProbe = 5000000 ∧
      (candidateNode.sendWire probingConfig 5500000 0 [4]).probeCount 0 = 1 ∧
      (skippedNode.sendWire probingConfig 5500000 0 [4]).probeCount 0 = 0 := by
  decide

def backedOffOps : List (Int × WireOp) :=
  [(1000000, .upsert wirePeer), (10000000, wireOutbound), (11000000, wireOutbound),
    (12000000, wireOutbound)]

def emptyDatagramOps : List (Int × WireOp) :=
  [(1000000, .upsert wirePeer), (10000000, wireOutbound),
    (10500000, .datagram (fun _ => 0) wireAddr []), (11000000, wireOutbound)]

end Example

end ServiceMesh
