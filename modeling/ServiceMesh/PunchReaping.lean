import ServiceMesh.HolePunching
import ServiceMesh.PunchTracking

/-! Garbage collection of punch pairs against their back-off. The cooldown of a pair and one
heartbeat stay below the TTL only as long as the cooldown has not reached its cap. -/

namespace ServiceMesh

open StdNet (SocketAddr)

def PunchTracker.calls (t : PunchTracker) (ops : List PunchOp) : PunchTracker :=
  ops.foldl (fun t op => (t.step op).1) t

/-- The tracker was given calls, at no other time than this one. -/
def PunchTracker.CalledAt (wall : Option Int) (t t' : PunchTracker) : Prop :=
  ∃ ops : List PunchOp, (∀ op ∈ ops, ∀ now ∈ op.now, now ∈ wall) ∧ t' = t.calls ops

namespace PunchTracker.CalledAt

variable {wall : Option Int} {t t' t'' : PunchTracker}

theorem refl (wall : Option Int) (t : PunchTracker) : t.CalledAt wall t := ⟨[], by simp, rfl⟩

theorem trans (h : t.CalledAt wall t') (h' : t'.CalledAt wall t'') : t.CalledAt wall t'' := by
  obtain ⟨ops, hops, rfl⟩ := h
  obtain ⟨ops', hops', rfl⟩ := h'
  refine ⟨ops ++ ops', ?_, List.foldl_append.symm⟩
  intro op hop
  exact (List.mem_append.mp hop).elim (hops op) (hops' op)

end PunchTracker.CalledAt

namespace Coordinator

variable [Crates] {c : Coordinator} {now : Int} {a b : PeerEntry}

/-- At a heartbeat of `a` the pair with `b` is claimed, if both can be told where to punch. -/
def punchCall (c : Coordinator) (now : Int) (a b : PeerEntry) : Option PunchOp :=
  if a.peerId ≠ b.peerId ∧ (c.punchPeerForPair a b.peerId).isSome ∧
      (c.punchPeerForPair b a.peerId).isSome then
    some (.claim (canonicalPair a.peerId b.peerId) now)
  else none

theorem punchTracker_tryEmitHolepunchPair (now : Int) (a : PeerEntry) (c : Coordinator)
    (b : PeerEntry) :
    (tryEmitHolepunchPair now a c b).punchTracker =
      c.punchTracker.calls (c.punchCall now a b).toList := by
  unfold tryEmitHolepunchPair punchCall
  cases ha : c.punchPeerForPair a b.peerId with
  | none => simp [PunchTracker.calls]
  | some pa =>
    cases hb : c.punchPeerForPair b a.peerId with
    | none => simp [PunchTracker.calls]
    | some pb =>
      obtain ⟨hpa, hda, -⟩ := punchPeerForPair_grounds ha
      obtain ⟨hpb, hdb, -⟩ := punchPeerForPair_grounds hb
      have hdial : ¬ (pa.dialEndpoint = "" ∨ pb.dialEndpoint = "") := by
        rintro (h | h)
        · exact hda.nonempty h
        · exact hdb.nonempty h
      by_cases hsame : a.peerId = b.peerId
      · simp [tryEmitPair, hpa, hpb, hsame, PunchTracker.calls]
      · rcases hclaim : c.punchTracker.claim (canonicalPair a.peerId b.peerId) now with ⟨t, granted⟩
        cases granted with
        | true => simp [tryEmitPair, hpa, hpb, hsame, hdial, hclaim, PunchTracker.calls,
            PunchTracker.step]
        | false => simp [tryEmitPair, hpa, hpb, hsame, hdial, hclaim, PunchTracker.calls,
            PunchTracker.step]

theorem punchTracker_tryEmitHolepunchPairs (c : Coordinator) (now : Int) (a : PeerEntry) :
    (c.tryEmitHolepunchPairs now a).punchTracker = c.punchTracker.calls
      ((c.roster.values.filter (fun e => e.peerId != a.peerId)).filterMap (c.punchCall now a)) := by
  have hloop : ∀ (candidates : List PeerEntry) (c' : Coordinator), c.SameGates c' →
      (candidates.foldl (tryEmitHolepunchPair now a) c').punchTracker =
        c'.punchTracker.calls (candidates.filterMap (c.punchCall now a)) := by
    intro candidates
    induction candidates with
    | nil => exact fun c' _ => rfl
    | cons b candidates ih =>
      intro c' hgates
      have hnext := sameGates_tryEmitHolepunchPair now a c' b
      have hcall : c'.punchCall now a b = c.punchCall now a b := by
        simp only [punchCall, hgates.punchPeerForPair]
      rw [List.foldl_cons, ih _ ⟨hnext.1.trans hgates.1, hnext.2.trans hgates.2⟩,
        punchTracker_tryEmitHolepunchPair, hcall]
      cases hb : c.punchCall now a b with
      | none => rw [List.filterMap_cons_none hb]; rfl
      | some op => rw [List.filterMap_cons_some hb]; rfl
  exact hloop _ c ⟨rfl, rfl⟩

theorem punchTracker_recordPeerPaths (c : Coordinator) (reporter : Uuid)
    (paths : List PeerPathDto) :
    ∃ confirmed : List PunchPair,
      (c.recordPeerPaths reporter paths).punchTracker =
        c.punchTracker.calls (confirmed.map PunchOp.confirm) := by
  have hloop : ∀ t : PunchTracker, ∃ confirmed : List PunchPair,
      paths.foldl (confirmDirect reporter) t = t.calls (confirmed.map PunchOp.confirm) := by
    induction paths with
    | nil => exact fun t => ⟨[], rfl⟩
    | cons p paths ih =>
      intro t
      obtain ⟨confirmed, hrest⟩ := ih (confirmDirect reporter t p)
      rw [List.foldl_cons, hrest]
      unfold confirmDirect
      split
      · exact ⟨confirmed, rfl⟩
      · rename_i target _
        cases p.direct with
        | true => exact ⟨canonicalPair reporter target :: confirmed, rfl⟩
        | false => exact ⟨confirmed, rfl⟩
  unfold recordPeerPaths
  split
  · exact ⟨[], rfl⟩
  · exact hloop c.punchTracker

variable (c : Coordinator) (amb : Ambient) (wall : Option Int)

theorem calledAt_applyPeerLeft (event : PeerLeft) :
    c.punchTracker.CalledAt wall (c.applyPeerLeft event).punchTracker := by
  unfold applyPeerLeft
  split
  · exact .refl _ _
  · split
    · exact .refl _ _
    · exact ⟨[.remove _], by simp [PunchOp.now], rfl⟩

theorem calledAt_deregister (id : Uuid) (reason : String) :
    c.punchTracker.CalledAt wall (c.deregister amb id reason).1.punchTracker := by
  unfold deregister
  split
  · exact .refl _ _
  · exact c.calledAt_applyPeerLeft wall _

theorem calledAt_evictStaleUlaHolder (requestedUla : Option String) :
    c.punchTracker.CalledAt wall (c.evictStaleUlaHolder amb requestedUla).punchTracker := by
  unfold evictStaleUlaHolder
  split
  · exact .refl _ _
  · exact (c.broadcast _).calledAt_applyPeerLeft wall _

theorem calledAt_heartbeatHandler (req : HeartbeatRequest) (observed : Option SocketAddr) :
    c.punchTracker.CalledAt (some amb.nowUnixMicros)
      (c.heartbeatHandler amb req observed).1.punchTracker := by
  rcases c.heartbeatHandler_cases amb req observed with ⟨err, hsame⟩ | ⟨id, e, hid, he⟩
  · rw [hsame]
    exact .refl _ _
  · rw [heartbeatHandler_eq amb observed hid he]
    have hpairs : c.punchTracker.CalledAt (some amb.nowUnixMicros)
        (c.beat amb id req observed e).punchTracker := by
      refine ⟨_, ?_, punchTracker_tryEmitHolepunchPairs _ _ _⟩
      intro op hop now hnow
      obtain ⟨b, -, hcall⟩ := List.mem_filterMap.mp hop
      unfold punchCall at hcall
      split at hcall <;> cases hcall
      exact hnow
    obtain ⟨confirmed, hconfirmed⟩ := (c.beat amb id req observed e).punchTracker_recordPeerPaths
      (req.beaten amb.now observed e).peerId req.peerPaths
    refine hpairs.trans ⟨_, ?_, Eq.trans ?_ hconfirmed⟩
    · intro op hop now hnow
      obtain ⟨pair, -, rfl⟩ := List.mem_map.mp hop
      cases hnow
    · unfold recordReports ackCommands
      split <;> rfl

end Coordinator

def Op.wall : Op → Option Int
  | .heartbeat amb .. | .sweep amb => some amb.nowUnixMicros
  | _ => none

section

attribute [local instance] referenceCrates

end

def heartbeatIntervalMicros : Int := 20000000

def lastTry (pair : PunchPair) : List (PunchOp × Bool) → Option Int
  | [] => none
  | (.claim q now, _) :: tr => if q = pair then some now else lastTry pair tr
  | _ :: tr => lastTry pair tr

/-- Both peers of the pair stay, and one of them claims it every 20 seconds. -/
def PunchOp.Attends (pair : PunchPair) (tr : List (PunchOp × Bool)) (op : PunchOp) : Prop :=
  op ≠ .remove pair.1 ∧ op ≠ .remove pair.2 ∧
    ∀ now ∈ op.now, ∀ before ∈ lastTry pair tr, now - before ≤ heartbeatIntervalMicros

instance (pair : PunchPair) (tr : List (PunchOp × Bool)) (op : PunchOp) :
    Decidable (op.Attends pair tr) :=
  inferInstanceAs (Decidable (_ ∧ _ ∧ ∀ now ∈ op.now, ∀ before ∈ lastTry pair tr,
    now - before ≤ heartbeatIntervalMicros))

def Attended (pair : PunchPair) : List (PunchOp × Bool) → Prop
  | [] => True
  | x :: tr => x.1.Attends pair tr ∧ Attended pair tr

instance decidableAttended (pair : PunchPair) : ∀ tr, Decidable (Attended pair tr)
  | [] => .isTrue trivial
  | x :: tr =>
    have := decidableAttended pair tr
    inferInstanceAs (Decidable (x.1.Attends pair tr ∧ Attended pair tr))

def punchTimes (pair : PunchPair) : List (PunchOp × Bool) → List Int
  | [] => []
  | (.claim q now, granted) :: tr =>
    if q = pair ∧ granted = true then now :: punchTimes pair tr else punchTimes pair tr
  | (.confirm q, _) :: tr => if q = pair then [] else punchTimes pair tr
  | _ :: tr => punchTimes pair tr

def GapsGrow : List Int → Prop
  | c :: b :: a :: rest => b - a ≤ c - b ∧ GapsGrow (b :: a :: rest)
  | _ => True

instance decidableGapsGrow : ∀ times, Decidable (GapsGrow times)
  | c :: b :: a :: rest =>
    have := decidableGapsGrow (b :: a :: rest)
    inferInstanceAs (Decidable (b - a ≤ c - b ∧ GapsGrow (b :: a :: rest)))
  | [] | [_] | [_, _] => .isTrue trivial

/-- A claim that is due comes before the next cooldown would be over, and the reaper finds a pair
whose cooldown is below the cap, or one that was punched within the TTL. -/
def PunchTracker.KeepsEscalation (pair : PunchPair) (t : PunchTracker) : PunchOp → Prop
  | .claim q now =>
    q = pair → ∀ st ∈ t.pairs.lookup pair, reemitCooldown st.streak ≤ now - st.lastEmit →
      now - st.lastEmit ≤ reemitCooldown (u32SaturatingSucc st.streak)
  | .reap now =>
    ∀ st ∈ t.pairs.lookup pair, st.streak ≤ 4 ∨ now - st.lastEmit ≤ punchPairTtlMicros
  | .confirm _ | .remove _ => True

instance (pair : PunchPair) (t : PunchTracker) : (op : PunchOp) → Decidable (t.KeepsEscalation pair op)
  | .claim q now => inferInstanceAs (Decidable (q = pair → ∀ st ∈ t.pairs.lookup pair,
      reemitCooldown st.streak ≤ now - st.lastEmit →
        now - st.lastEmit ≤ reemitCooldown (u32SaturatingSucc st.streak)))
  | .reap now => inferInstanceAs (Decidable (∀ st ∈ t.pairs.lookup pair,
      st.streak ≤ 4 ∨ now - st.lastEmit ≤ punchPairTtlMicros))
  | .confirm _ | .remove _ => .isTrue trivial

structure Tracked (pair : PunchPair) (tr : List (PunchOp × Bool)) (t : PunchTracker) (last : Int)
    (earlier : List Int) : Prop where
  streak : ∃ st, t.pairs.lookup pair = some st ∧ st.lastEmit = last ∧
    (∀ previous ∈ earlier.head?, last - previous ≤ reemitCooldown st.streak) ∧
    ∃ tried, lastTry pair tr = some tried ∧
      (tried = last ∨ tried - last < reemitCooldown st.streak)
  grow : GapsGrow (last :: earlier)

structure PunchInv (pair : PunchPair) (tr : List (PunchOp × Bool)) (t : PunchTracker) : Prop where
  tracked : ∀ last earlier, punchTimes pair tr = last :: earlier → Tracked pair tr t last earlier
  escalated : ∀ st, t.pairs.lookup pair = some st → 0 < st.streak → punchTimes pair tr ≠ []

theorem reemitCooldown_le_of_le_four {streak : UInt32} (h : streak ≤ 4) :
    reemitCooldown streak ≤ 240000000 := by
  have hall : ∀ n < 5, reemitCooldown (UInt32.ofNat n) ≤ 240000000 := by decide
  have hlt : streak.toNat < 5 := by
    have hle := UInt32.le_iff_toNat_le.mp h
    have hfour : (4 : UInt32).toNat = 4 := rfl
    omega
  have hcase := hall streak.toNat hlt
  rw [UInt32.ofNat_toNat] at hcase
  exact hcase

namespace PunchInv

variable {pair : PunchPair} {tr : List (PunchOp × Bool)} {t : PunchTracker}

theorem spared (h : PunchInv pair tr t) {now : Int} (hattends : PunchOp.Attends pair tr (.reap now))
    (hkeeps : t.KeepsEscalation pair (.reap now)) (htimes : punchTimes pair tr ≠ []) :
    (t.step (.reap now)).1.pairs.lookup pair = t.pairs.lookup pair := by
  obtain ⟨last, earlier, hpunched⟩ := List.exists_cons_of_ne_nil htimes
  obtain ⟨st, hst, hlast, -, tried, htried, hearly⟩ := (h.tracked last earlier hpunched).streak
  have hrecent : now - tried ≤ heartbeatIntervalMicros := hattends.2.2 now rfl tried htried
  have hfresh : now - punchPairTtlMicros ≤ st.lastEmit := by
    rcases hkeeps st hst with hlow | hpunchedLate
    · have hcooldown := reemitCooldown_le_of_le_four hlow
      have hinterval : heartbeatIntervalMicros = 20000000 := rfl
      have httl : punchPairTtlMicros = 300000000 := rfl
      omega
    · omega
  rw [PunchTracker.lookup_step, hst]
  simp [Option.filter, hfresh]

theorem untouched (h : PunchInv pair tr t) {x : PunchOp × Bool} {t' : PunchTracker}
    (hlookup : t'.pairs.lookup pair = t.pairs.lookup pair)
    (htry : lastTry pair (x :: tr) = lastTry pair tr)
    (htimes : punchTimes pair (x :: tr) = punchTimes pair tr) : PunchInv pair (x :: tr) t' where
  tracked last earlier hpunched := by
    rw [htimes] at hpunched
    have hold := h.tracked last earlier hpunched
    refine ⟨?_, hold.grow⟩
    rw [hlookup, htry]
    exact hold.streak
  escalated st hst hstreak := by
    rw [htimes]
    exact h.escalated st (hlookup ▸ hst) hstreak

theorem granted (h : PunchInv pair tr t) {now : Int} (hgranted : (t.claim pair now).2 = true)
    (hkeeps : t.KeepsEscalation pair (.claim pair now)) :
    PunchInv pair ((.claim pair now, true) :: tr) (t.claim pair now).1 := by
  have hlookup := t.lookup_claim pair now pair
  rw [if_pos ⟨rfl, hgranted⟩] at hlookup
  have htimes : punchTimes pair ((.claim pair now, true) :: tr) = now :: punchTimes pair tr := by
    simp [punchTimes]
  refine ⟨?_, fun _ _ _ => htimes ▸ List.cons_ne_nil _ _⟩
  intro last earlier hpunched
  rw [htimes] at hpunched
  obtain ⟨rfl, rfl⟩ := List.cons.inj hpunched
  have htry : lastTry pair ((.claim pair now, true) :: tr) = some now := by simp [lastTry]
  cases hbefore : punchTimes pair tr with
  | nil => exact ⟨⟨_, hlookup, rfl, by simp, now, htry, .inl rfl⟩, trivial⟩
  | cons previous rest =>
    obtain ⟨st, hst, rfl, hgap, -⟩ := (h.tracked previous rest hbefore).streak
    have hdue : reemitCooldown st.streak ≤ now - st.lastEmit := by
      rw [PunchTracker.claim_tracked hst, decide_eq_true_eq] at hgranted
      exact hgranted
    have hwait := hkeeps rfl st hst hdue
    rw [hst] at hlookup
    refine ⟨⟨_, hlookup, rfl, ?_, now, htry, .inl rfl⟩, ?_⟩
    · intro p hp
      obtain rfl : st.lastEmit = p := by simpa using hp
      exact hwait
    · cases rest with
      | nil => trivial
      | cons earliest rest =>
        have hearlier := hgap earliest rfl
        exact ⟨by omega, (h.tracked _ _ hbefore).grow⟩

theorem refused (h : PunchInv pair tr t) {now : Int} (hrefused : (t.claim pair now).2 = false) :
    PunchInv pair ((.claim pair now, false) :: tr) (t.claim pair now).1 := by
  have hlookup := t.lookup_claim pair now pair
  rw [if_neg (by simp [hrefused])] at hlookup
  have htimes : punchTimes pair ((.claim pair now, false) :: tr) = punchTimes pair tr := by
    simp [punchTimes]
  refine ⟨?_, fun st hst hstreak => htimes ▸ h.escalated st (hlookup ▸ hst) hstreak⟩
  intro last earlier hpunched
  rw [htimes] at hpunched
  have hold := h.tracked last earlier hpunched
  obtain ⟨st, hst, hlast, hgap, -⟩ := hold.streak
  have hearly : now - last < reemitCooldown st.streak := by
    rw [PunchTracker.claim_tracked hst, decide_eq_false_iff_not, hlast] at hrefused
    omega
  have htry : lastTry pair ((.claim pair now, false) :: tr) = some now := by simp [lastTry]
  exact ⟨⟨st, hlookup.trans hst, hlast, hgap, now, htry, .inr hearly⟩, hold.grow⟩

theorem step (h : PunchInv pair tr t) {op : PunchOp} (hattends : op.Attends pair tr)
    (hkeeps : t.KeepsEscalation pair op) :
    PunchInv pair ((op, (t.step op).2) :: tr) (t.step op).1 := by
  have hlookup := t.lookup_step op pair
  cases op with
  | claim q now =>
    by_cases hq : q = pair
    · subst hq
      show PunchInv q ((.claim q now, (t.claim q now).2) :: tr) (t.claim q now).1
      cases hanswer : (t.claim q now).2 with
      | true => exact h.granted hanswer hkeeps
      | false => exact h.refused hanswer
    · refine h.untouched ?_ ?_ ?_
      · simpa [hq] using hlookup
      · simp [lastTry, hq]
      · simp [punchTimes, hq]
  | confirm q =>
    by_cases hq : q = pair
    · refine ⟨?_, ?_⟩
      · intro last earlier hpunched
        simp [punchTimes, hq] at hpunched
      · intro st hst hstreak
        rw [hlookup] at hst
        simp only [hq, if_true, Option.map_eq_some_iff] at hst
        obtain ⟨old, -, rfl⟩ := hst
        exact absurd hstreak (UInt32.lt_irrefl 0)
    · refine h.untouched ?_ rfl ?_
      · simpa [hq] using hlookup
      · simp [punchTimes, hq]
  | remove peerId =>
    have hfirst : pair.1 ≠ peerId := fun hmember => hattends.1 (hmember ▸ rfl)
    have hsecond : pair.2 ≠ peerId := fun hmember => hattends.2.1 (hmember ▸ rfl)
    exact h.untouched (by simpa [hfirst, hsecond] using hlookup) rfl rfl
  | reap now =>
    by_cases htimes : punchTimes pair tr = []
    · -- nothing is known of the pair's entry but that its streak is zero
      refine ⟨?_, ?_⟩
      · intro last earlier hpunched
        have hnone : punchTimes pair ((.reap now, false) :: tr) = [] := htimes
        exact absurd (hnone.symm.trans hpunched) (List.cons_ne_nil _ _).symm
      · intro st hst hstreak
        rw [hlookup] at hst
        exact absurd htimes (h.escalated st (Option.filter_eq_some_iff.mp hst).1 hstreak)
    · exact h.untouched (h.spared hattends hkeeps htimes) rfl rfl

end PunchInv

theorem le_u32SaturatingSucc (streak : UInt32) : streak ≤ u32SaturatingSucc streak := by
  unfold u32SaturatingSucc
  split
  · exact UInt32.le_refl _
  · rename_i hroom
    have hroom' : streak.toNat ≠ 2 ^ 32 - 1 := fun h => hroom (UInt32.toNat_inj.mp (h.trans rfl))
    have hlt := streak.toNat_lt
    have hone : (1 : UInt32).toNat = 1 := rfl
    rw [UInt32.le_iff_toNat_le, UInt32.toNat_add]
    omega

theorem punchInv_of_run {pair : PunchPair} {tr : List (PunchOp × Bool)} {t : PunchTracker}
    (h : punches.Run (PunchTracker.KeepsEscalation pair) tr t) (hattended : Attended pair tr) :
    PunchInv pair tr t := by
  induction h with
  | start => exact ⟨by simp [punchTimes], fun st hst => by simp [punches, PunchTracker.new] at hst⟩
  | step op _ _ hkeeps ih => exact (ih hattended.2).step hattended.1 hkeeps

/-- While both peers of a pair stay and claim it, in every run whose steps keep the escalation,
nothing but a confirmation brings the streak down, and the waits between punches do not decrease. -/
theorem reaper_keeps_back_off {pair : PunchPair} {tr : List (PunchOp × Bool)} {t : PunchTracker}
    (h : punches.Run (PunchTracker.KeepsEscalation pair) tr t) (hattended : Attended pair tr) :
    GapsGrow (punchTimes pair tr) ∧
      ∀ op : PunchOp, op.InOrder tr → op.Attends pair tr → t.KeepsEscalation pair op →
        op ≠ .confirm pair → ∀ st, t.pairs.lookup pair = some st → 0 < st.streak →
          ∃ st', (t.step op).1.pairs.lookup pair = some st' ∧ st.streak ≤ st'.streak := by
  have hinv := punchInv_of_run h hattended
  refine ⟨?_, ?_⟩
  · cases htimes : punchTimes pair tr with
    | nil => trivial
    | cons last earlier => exact (hinv.tracked last earlier htimes).grow
  · intro op _ hattends hkeeps hconfirm st hst hstreak
    have hlookup := t.lookup_step op pair
    cases op with
    | claim q now =>
      by_cases hgranted : q = pair ∧ (t.step (.claim q now)).2 = true
      · refine ⟨⟨now, u32SaturatingSucc st.streak⟩, ?_, le_u32SaturatingSucc st.streak⟩
        rw [hlookup]
        exact (if_pos hgranted).trans (by rw [hst]; rfl)
      · refine ⟨st, ?_, UInt32.le_refl _⟩
        rw [hlookup]
        exact (if_neg hgranted).trans hst
    | confirm q =>
      have hq : q ≠ pair := fun hq => hconfirm (hq ▸ rfl)
      refine ⟨st, ?_, UInt32.le_refl _⟩
      rw [hlookup, hst]
      simp [hq]
    | remove peerId =>
      have hfirst : pair.1 ≠ peerId := fun hmember => hattends.1 (hmember ▸ rfl)
      have hsecond : pair.2 ≠ peerId := fun hmember => hattends.2.1 (hmember ▸ rfl)
      refine ⟨st, ?_, UInt32.le_refl _⟩
      rw [hlookup, hst]
      simp [hfirst, hsecond]
    | reap now =>
      have hspared := hinv.spared hattends hkeeps (hinv.escalated st hst hstreak)
      exact ⟨st, hspared.trans hst, UInt32.le_refl _⟩

section Example

def attendedClaims (n : Nat) : List PunchOp :=
  ([0, 15, 35] ++ (List.range n).map (fun i => 45 + 20 * (i : Int))).map
    (fun seconds => .claim stuckPair (seconds * 1000000))

theorem reaper_keeps_back_off_attended :
    GapsGrow (punchTimes stuckPair (trackerRun (attendedClaims 5)).1) ∧
      ∃ st, ((trackerRun (attendedClaims 5)).2.step (.reap 145000000)).1.pairs.lookup stuckPair =
        some st ∧ 3 ≤ st.streak := by
  have hrun : punches.Run (PunchTracker.KeepsEscalation stuckPair) (trackerRun (attendedClaims 5)).1
      (trackerRun (attendedClaims 5)).2 := Machine.Run.exec .start (by decide)
  obtain ⟨hgrow, hkept⟩ := reaper_keeps_back_off hrun (by decide)
  refine ⟨hgrow, ?_⟩
  exact hkept (.reap 145000000) (by decide) (by decide) (by decide)
    (by decide) ⟨105000000, 3⟩ (by decide) (by decide)

def reapedRun : List (PunchOp × Bool) × PunchTracker :=
  trackerRun (attendedClaims 36 ++ [.claim stuckPair 764000000, .reap 766000000,
    .claim stuckPair 770000000, .claim stuckPair 785000000])

/-- The cooldown has reached the cap, and the reaper takes the pair a second after the TTL; it is
then punched as a new pair, and again 15 seconds later. -/
theorem capped_pair_reaped :
    punches.Reach reapedRun.1 reapedRun.2 ∧ Attended stuckPair reapedRun.1 ∧
      (trackerRun (attendedClaims 36)).2.pairs.lookup stuckPair = some ⟨465000000, 5⟩ ∧
      ((trackerRun (attendedClaims 36)).2.step (.reap 766000000)).1.pairs.lookup stuckPair = none ∧
      reapedRun.2.pairs.lookup stuckPair = some ⟨785000000, 1⟩ ∧
      ¬ GapsGrow (punchTimes stuckPair reapedRun.1) := by
  refine ⟨Machine.Run.exec .start (by decide +kernel), ?_⟩
  decide +kernel

end Example

end ServiceMesh
