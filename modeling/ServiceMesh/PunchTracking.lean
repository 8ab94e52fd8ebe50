import ServiceMesh.Holepunch
import ServiceMesh.Machine

/-! The punch tracker as a machine of its own, under the calls that the coordinator makes on it. A
pair that was punched is punched again after a cooldown that doubles each time; pairs that were
never punched share a budget. -/

namespace ServiceMesh

inductive PunchOp
  | claim (pair : PunchPair) (now : Int)
  | confirm (pair : PunchPair)
  | remove (peerId : Uuid)
  | reap (now : Int)
deriving DecidableEq

def PunchOp.now : PunchOp → Option Int
  | .claim _ now | .reap now => some now
  | .confirm _ | .remove _ => none

def PunchTracker.step (t : PunchTracker) : PunchOp → PunchTracker × Bool
  | .claim pair now => t.claim pair now
  | .confirm pair => (t.noteConfirmed pair, false)
  | .remove peerId => (t.removePeer peerId, false)
  | .reap now => (t.reapOlderThan (now - punchPairTtlMicros), false)

def PunchOp.InOrder (tr : List (PunchOp × Bool)) (op : PunchOp) : Prop :=
  ∀ now ∈ op.now, ∀ x ∈ tr, ∀ before ∈ x.1.now, before ≤ now

instance (tr : List (PunchOp × Bool)) (op : PunchOp) : Decidable (op.InOrder tr) :=
  inferInstanceAs (Decidable (∀ now ∈ op.now, ∀ x ∈ tr, ∀ before ∈ x.1.now, before ≤ now))

def punches : Machine PunchTracker PunchOp Bool where
  init := .new
  step := PunchTracker.step
  admits tr op := op.InOrder tr

instance (tr : List (PunchOp × Bool)) (op : PunchOp) : Decidable (punches.admits tr op) :=
  inferInstanceAs (Decidable (op.InOrder tr))

namespace PunchTracker

variable {t : PunchTracker} {pair : PunchPair} {now : Int}

@[simp] theorem pairs_takeColdStartToken (t : PunchTracker) (now : Int) :
    (t.takeColdStartToken now).1.pairs = t.pairs := by
  unfold takeColdStartToken
  split <;> rfl

theorem claim_tracked {st : PunchState} (h : t.pairs.lookup pair = some st) :
    (t.claim pair now).2 = decide (reemitCooldown st.streak ≤ now - st.lastEmit) := by
  simp only [claim, h]
  split
  · rename_i hdue
    exact (decide_eq_true hdue).symm
  · rename_i hdue
    exact (decide_eq_false hdue).symm

theorem claim_untracked (h : t.pairs.lookup pair = none) :
    (t.claim pair now).2 = (t.takeColdStartToken now).2 := by
  simp only [claim, h]
  split
  · rename_i hgranted
    exact hgranted.symm
  · rename_i hgranted
    exact (Bool.eq_false_iff.mpr hgranted).symm

theorem lookup_claim (t : PunchTracker) (q : PunchPair) (now : Int) (pair : PunchPair) :
    (t.claim q now).1.pairs.lookup pair =
      if q = pair ∧ (t.claim q now).2 = true then
        some ⟨now, (t.pairs.lookup pair).elim 0 (fun st => u32SaturatingSucc st.streak)⟩
      else t.pairs.lookup pair := by
  cases hq : t.pairs.lookup q with
  | some st =>
    simp only [claim, hq]
    split
    · by_cases hpair : q = pair
      · subst hpair
        simp [hq]
      · have hne : pair ≠ q := fun h => hpair h.symm
        simp [hpair, AList.lookup_insert_ne hne]
    · simp
  | none =>
    simp only [claim, hq]
    split
    · by_cases hpair : q = pair
      · subst hpair
        simp [hq]
      · have hne : pair ≠ q := fun h => hpair h.symm
        simp [hpair, AList.lookup_insert_ne hne]
    · simp

theorem lookup_noteConfirmed (t : PunchTracker) (q pair : PunchPair) :
    (t.noteConfirmed q).pairs.lookup pair =
      if q = pair then (t.pairs.lookup pair).map (fun st => { st with streak := 0 })
      else t.pairs.lookup pair := by
  rw [noteConfirmed, AList.lookup_modify]
  by_cases h : pair = q
  · rw [if_pos h, if_pos h.symm]
  · rw [if_neg h, if_neg (fun hc => h hc.symm)]

theorem lookup_removePeer (t : PunchTracker) (peerId : Uuid) (pair : PunchPair) :
    (t.removePeer peerId).pairs.lookup pair =
      if pair.1 = peerId ∨ pair.2 = peerId then none else t.pairs.lookup pair := by
  rw [removePeer, AList.lookup_retain]
  by_cases h : pair.1 = peerId ∨ pair.2 = peerId
  · rw [if_pos h, Option.filter_eq_none_iff]
    intro st _
    rcases h with h | h <;> simp [h]
  · push Not at h
    rw [if_neg (by simpa using h)]
    cases t.pairs.lookup pair with
    | none => rfl
    | some st => simp [h.1, h.2]

theorem lookup_reapOlderThan (t : PunchTracker) (cutoff : Int) (pair : PunchPair) :
    (t.reapOlderThan cutoff).pairs.lookup pair =
      (t.pairs.lookup pair).filter (fun st => decide (cutoff ≤ st.lastEmit)) := by
  rw [reapOlderThan, AList.lookup_retain]

theorem lookup_step (t : PunchTracker) (op : PunchOp) (pair : PunchPair) :
    (t.step op).1.pairs.lookup pair =
      match op with
      | .claim q now =>
        if q = pair ∧ (t.step op).2 = true then
          some ⟨now, (t.pairs.lookup pair).elim 0 (fun st => u32SaturatingSucc st.streak)⟩
        else t.pairs.lookup pair
      | .confirm q =>
        if q = pair then (t.pairs.lookup pair).map (fun st => { st with streak := 0 })
        else t.pairs.lookup pair
      | .remove peerId =>
        if pair.1 = peerId ∨ pair.2 = peerId then none else t.pairs.lookup pair
      | .reap now =>
        (t.pairs.lookup pair).filter (fun st => decide (now - punchPairTtlMicros ≤ st.lastEmit)) := by
  cases op with
  | claim q now => exact t.lookup_claim q now pair
  | confirm q => exact t.lookup_noteConfirmed q pair
  | remove peerId => exact t.lookup_removePeer peerId pair
  | reap now => exact t.lookup_reapOlderThan _ pair

end PunchTracker

structure Punched where
  last : Int
  again : Nat
deriving DecidableEq

def punched (pair : PunchPair) : List (PunchOp × Bool) → Option Punched
  | [] => none
  | (.claim q now, granted) :: tr =>
    if q = pair ∧ granted = true then
      some ⟨now, (punched pair tr).elim 0 (fun p => p.again + 1)⟩
    else punched pair tr
  | (.confirm q, _) :: tr =>
    if q = pair then (punched pair tr).map (fun p => { p with again := 0 }) else punched pair tr
  | (.remove peerId, _) :: tr =>
    if pair.1 = peerId ∨ pair.2 = peerId then none else punched pair tr
  | (.reap now, _) :: tr =>
    (punched pair tr).filter (fun p => decide (now - punchPairTtlMicros ≤ p.last))

def u32Saturated (n : Nat) : UInt32 := UInt32.ofNat (min n (2 ^ 32 - 1))

theorem toNat_u32Saturated (n : Nat) : (u32Saturated n).toNat = min n (2 ^ 32 - 1) := by
  rw [u32Saturated, UInt32.toNat_ofNat']
  exact Nat.mod_eq_of_lt (by omega)

theorem u32SaturatingSucc_u32Saturated (n : Nat) :
    u32SaturatingSucc (u32Saturated n) = u32Saturated (n + 1) := by
  have hn := toNat_u32Saturated n
  have hsucc := toNat_u32Saturated (n + 1)
  unfold u32SaturatingSucc
  split
  · rename_i hfull
    have hfull' : (u32Saturated n).toNat = 2 ^ 32 - 1 := by rw [hfull]; rfl
    exact UInt32.toNat_inj.mp (by omega)
  · rename_i hroom
    have hroom' : (u32Saturated n).toNat ≠ 2 ^ 32 - 1 := by
      intro h
      exact hroom (UInt32.toNat_inj.mp (h.trans rfl))
    refine UInt32.toNat_inj.mp ?_
    rw [UInt32.toNat_add, hsucc, hn]
    have hone : (1 : UInt32).toNat = 1 := rfl
    omega

def Punched.state (p : Punched) : PunchState := ⟨p.last, u32Saturated p.again⟩

theorem lookup_eq_punched {C : PunchTracker → PunchOp → Prop} {tr : List (PunchOp × Bool)}
    {t : PunchTracker} (h : punches.Run C tr t) (pair : PunchPair) :
    t.pairs.lookup pair = (punched pair tr).map Punched.state := by
  induction h with
  | start => rfl
  | @step tr t op _ _ _ ih =>
    have hstep := t.lookup_step op pair
    rw [ih] at hstep
    refine Eq.trans hstep ?_
    cases op with
    | claim q now =>
      have hsame : punches.step t (.claim q now) = t.step (.claim q now) := rfl
      simp only [punched, hsame]
      split
      · cases punched pair tr with
        | none => rfl
        | some p => simp [Punched.state, u32SaturatingSucc_u32Saturated]
      · rfl
    | confirm q =>
      simp only [punched]
      split
      · cases punched pair tr <;> rfl
      · rfl
    | remove peerId =>
      simp only [punched]
      split <;> rfl
    | reap now =>
      simp only [punched]
      cases punched pair tr with
      | none => rfl
      | some p =>
        by_cases hkept : now - punchPairTtlMicros ≤ p.last
        · simp [Punched.state, Option.filter, hkept]
        · simp [Punched.state, Option.filter, hkept]

/-- The shift leaves a positive number behind, or is refused: the sign bit stays clear and not
every one bit of the base is pushed out. -/
def StreakFits (streak : UInt32) : Prop :=
  64 ≤ streak.toNat ∨
    streak.toNat ≤ 57 ∧ punchReemitCooldownMicros.toNat.testBit (63 - streak.toNat) = false

instance (streak : UInt32) : Decidable (StreakFits streak) :=
  inferInstanceAs (Decidable (_ ∨ _))

theorem reemitCooldown_of_lt {streak : UInt32} (h : streak.toNat < 64) :
    reemitCooldown streak = min (BitVec.ofInt 64 punchReemitCooldownMicros <<< streak.toNat).toInt
      punchReemitCooldownCapMicros := by
  rw [reemitCooldown, i64CheckedShl, if_pos h, Option.getD_some]

theorem reemitCooldown_of_le {streak : UInt32} (h : 64 ≤ streak.toNat) :
    reemitCooldown streak = punchReemitCooldownCapMicros := by
  rw [reemitCooldown, i64CheckedShl, if_neg (by omega)]
  rfl

theorem cooldown_capped {n : Nat} (h : 5 ≤ n) :
    min (punchReemitCooldownMicros * 2 ^ n) punchReemitCooldownCapMicros =
      punchReemitCooldownCapMicros := by
  have hpow : (2 : Int) ^ 5 ≤ 2 ^ n := pow_le_pow_right₀ (by omega) h
  have hbase : punchReemitCooldownMicros = 15000000 := rfl
  have hcap : punchReemitCooldownCapMicros = 300000000 := rfl
  rw [hbase, hcap]
  omega

theorem reemitCooldown_eq_iff (streak : UInt32) :
    reemitCooldown streak =
        min (punchReemitCooldownMicros * 2 ^ streak.toNat) punchReemitCooldownCapMicros ↔
      StreakFits streak := by
  by_cases hshift : streak.toNat < 64
  · have hall : ∀ n < 64,
        min (BitVec.ofInt 64 punchReemitCooldownMicros <<< n).toInt punchReemitCooldownCapMicros =
            min (punchReemitCooldownMicros * 2 ^ n) punchReemitCooldownCapMicros ↔
          64 ≤ n ∨ n ≤ 57 ∧ punchReemitCooldownMicros.toNat.testBit (63 - n) = false := by
      decide
    rw [reemitCooldown_of_lt hshift]
    exact hall streak.toNat hshift
  · have hlarge : 64 ≤ streak.toNat := by omega
    rw [reemitCooldown_of_le hlarge, cooldown_capped (by omega)]
    exact iff_of_true rfl (.inl hlarge)

theorem cooldown_mono {m n : Nat} (h : m ≤ n) :
    0 < min (punchReemitCooldownMicros * 2 ^ m) punchReemitCooldownCapMicros ∧
      min (punchReemitCooldownMicros * 2 ^ m) punchReemitCooldownCapMicros ≤
        min (punchReemitCooldownMicros * 2 ^ n) punchReemitCooldownCapMicros := by
  have hone : (1 : Int) ≤ 2 ^ m := one_le_pow₀ (by omega)
  have hpow : (2 : Int) ^ m ≤ 2 ^ n := pow_le_pow_right₀ (by omega) h
  have hbase : punchReemitCooldownMicros = 15000000 := rfl
  have hcap : punchReemitCooldownCapMicros = 300000000 := rfl
  rw [hbase, hcap]
  omega

theorem cooldown_u32Saturated (n : Nat) :
    min (punchReemitCooldownMicros * 2 ^ (u32Saturated n).toNat) punchReemitCooldownCapMicros =
      min (punchReemitCooldownMicros * 2 ^ n) punchReemitCooldownCapMicros := by
  rw [toNat_u32Saturated]
  by_cases hfits : n ≤ 2 ^ 32 - 1
  · rw [min_eq_left hfits]
  · have hlarge : 5 ≤ n := by omega
    have hsaturated : 5 ≤ min n (2 ^ 32 - 1) := by omega
    rw [cooldown_capped hlarge, cooldown_capped hsaturated]

def PunchTracker.ShiftFits (t : PunchTracker) : PunchOp → Prop
  | .claim pair _ => ∀ st ∈ t.pairs.lookup pair, StreakFits st.streak
  | _ => True

instance (t : PunchTracker) : (op : PunchOp) → Decidable (t.ShiftFits op)
  | .claim pair _ => inferInstanceAs (Decidable (∀ st ∈ t.pairs.lookup pair, StreakFits st.streak))
  | .confirm _ | .remove _ | .reap _ => .isTrue trivial

/-- Whenever a pair was punched again, the wait was over; after five times it was the longest. -/
def BacksOff : List (PunchOp × Bool) → Prop
  | [] => True
  | (.claim pair now, true) :: tr =>
    (∀ p ∈ punched pair tr,
      min (punchReemitCooldownMicros * 2 ^ p.again) punchReemitCooldownCapMicros ≤ now - p.last ∧
        (5 ≤ p.again → punchReemitCooldownCapMicros ≤ now - p.last)) ∧ BacksOff tr
  | _ :: tr => BacksOff tr

theorem backsOff_of_run {tr : List (PunchOp × Bool)} {t : PunchTracker}
    (h : punches.Run PunchTracker.ShiftFits tr t) : BacksOff tr := by
  induction h with
  | start => trivial
  | @step tr t op hrun _ hfits ih =>
    cases op with
    | confirm | remove | reap => exact ih
    | claim pair now =>
      show BacksOff ((.claim pair now, (t.claim pair now).2) :: tr)
      cases hgranted : (t.claim pair now).2 with
      | false => exact ih
      | true =>
        refine ⟨?_, ih⟩
        intro p hp
        have hst : t.pairs.lookup pair = some p.state := by
          rw [lookup_eq_punched hrun, hp]
          rfl
        rw [PunchTracker.claim_tracked hst, decide_eq_true_eq] at hgranted
        have hcooldown := (reemitCooldown_eq_iff p.state.streak).mpr (hfits p.state hst)
        have hcount : p.state.streak = u32Saturated p.again := rfl
        have hlast : p.state.lastEmit = p.last := rfl
        rw [hcooldown, hcount, cooldown_u32Saturated, hlast] at hgranted
        refine ⟨hgranted, ?_⟩
        intro hfive
        rw [cooldown_capped hfive] at hgranted
        exact hgranted

/-- The shift gives the capped doubling for the streaks that fit and for no others; and a run that
claims pairs at such streaks only waits as long as the doubling says. -/
theorem punch_reemits_back_off (streak : UInt32) :
    (reemitCooldown streak =
          min (punchReemitCooldownMicros * 2 ^ streak.toNat) punchReemitCooldownCapMicros ↔
        StreakFits streak) ∧
    (∀ later : UInt32, StreakFits streak → StreakFits later → streak ≤ later →
      0 < reemitCooldown streak ∧ reemitCooldown streak ≤ reemitCooldown later) ∧
    ∀ tr t, punches.Run PunchTracker.ShiftFits tr t → BacksOff tr := by
  refine ⟨reemitCooldown_eq_iff streak, ?_, fun tr t h => backsOff_of_run h⟩
  intro later hstreak hlater hle
  rw [(reemitCooldown_eq_iff streak).mpr hstreak, (reemitCooldown_eq_iff later).mpr hlater]
  exact cooldown_mono (UInt32.le_iff_toNat_le.mp hle)

section Example

def stuckPair : PunchPair := (1, 2)

def stuckClaims (n : Nat) : List PunchOp :=
  (List.range n).map (fun i => .claim stuckPair (i * punchReemitCooldownCapMicros))

def trackerRun (ops : List PunchOp) : List (PunchOp × Bool) × PunchTracker :=
  punches.exec [] .new ops

theorem punch_reemits_back_off_stuck :
    reemitCooldown 5 = punchReemitCooldownCapMicros ∧
      reemitCooldown 4 ≤ reemitCooldown 5 ∧ BacksOff (trackerRun (stuckClaims 7)).1 := by
  have hrun : punches.Run PunchTracker.ShiftFits (trackerRun (stuckClaims 7)).1
      (trackerRun (stuckClaims 7)).2 := Machine.Run.exec .start (by decide)
  refine ⟨?_, ?_, ?_⟩
  · exact (punch_reemits_back_off 5).1.mpr (by decide)
  · exact ((punch_reemits_back_off 4).2.1 5 (by decide) (by decide) (by decide)).2
  · exact (punch_reemits_back_off 4).2.2 _ _ hrun

def twiceAtOnce : List (PunchOp × Bool) × PunchTracker :=
  trackerRun (stuckClaims 41 ++ [.claim stuckPair (40 * punchReemitCooldownCapMicros)])

/-- The pair was punched 40 times more, at the pace of the cap. The shift then comes to a negative
number, and the pair is punched twice at the same time. -/
theorem punched_twice_at_once :
    reemitCooldown 40 = -1954069657069551616 ∧ punches.Reach twiceAtOnce.1 twiceAtOnce.2 ∧
      ¬ BacksOff twiceAtOnce.1 := by
  refine ⟨by decide +kernel, Machine.Run.exec .start (by decide +kernel), ?_⟩
  have htrace : twiceAtOnce.1 =
      (.claim stuckPair (40 * punchReemitCooldownCapMicros), true) ::
        (trackerRun (stuckClaims 41)).1 := by
    decide +kernel
  have hlast : punched stuckPair (trackerRun (stuckClaims 41)).1 =
      some ⟨40 * punchReemitCooldownCapMicros, 40⟩ := by
    decide +kernel
  rw [htrace]
  intro h
  have hwait := (h.1 _ hlast).2 (by decide)
  simp only [sub_self] at hwait
  exact absurd hwait (by decide)

end Example

end ServiceMesh
