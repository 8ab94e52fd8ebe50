import ServiceMesh.RearmPacing

/-! The re-arm gate with the machine words it is written in: the saturating loop of the back-off,
and the spacing of the re-arms that the gate lets through. -/

namespace ServiceMesh

namespace RearmGate

def checkedDouble (window : Int64) : Option Int64 :=
  if -2 ^ 63 ≤ window.toInt * 2 ∧ window.toInt * 2 < 2 ^ 63 then some (.ofInt (window.toInt * 2))
  else none

/-- The window that the loop ends with, and the turns it takes. -/
def backoffLoop (cap : Int64) : (left : Nat) → Int64 → Int64 × Nat
  | 0, window => (if window < cap then window else cap, 0)
  | left + 1, window =>
    match checkedDouble window with
    | some doubled =>
      if doubled < cap then
        ((backoffLoop cap left doubled).1, (backoffLoop cap left doubled).2 + 1)
      else (cap, 1)
    | none => (cap, 1)

def escalatingBackoff (streak : UInt32) (base cap : Int64) : Int64 :=
  (backoffLoop cap streak.toNat base).1

def backoffTurns (streak : UInt32) (base cap : Int64) : Nat :=
  (backoffLoop cap streak.toNat base).2

def rearmInterval (streak : UInt32) (base cap : Int64) : Int64 := escalatingBackoff streak base cap

theorem toInt_of_checkedDouble {window doubled : Int64} (h : checkedDouble window = some doubled) :
    doubled.toInt = 2 * window.toInt := by
  unfold checkedDouble at h
  split at h
  · rename_i hrange
    rw [← Option.some.inj h, Int64.toInt_ofInt_of_le hrange.1 hrange.2]
    omega
  · simp at h

theorem large_of_checkedDouble {window : Int64} (hpos : 0 < window.toInt)
    (h : checkedDouble window = none) : 2 ^ 63 ≤ 2 * window.toInt := by
  unfold checkedDouble at h
  split at h
  · simp at h
  · rename_i hrange
    omega

theorem toInt_backoffLoop (cap : Int64) {window : Int64} (hpos : 0 < window.toInt) (left : Nat) :
    (backoffLoop cap left window).1.toInt =
      ServiceMesh.escalatingBackoff cap.toInt left window.toInt := by
  induction left generalizing window with
  | zero =>
    rw [backoffLoop, ServiceMesh.escalatingBackoff]
    by_cases hlt : window < cap
    · rw [if_pos hlt, if_pos (Int64.lt_iff_toInt_lt.mp hlt)]
    · rw [if_neg hlt, if_neg (fun hc => hlt (Int64.lt_iff_toInt_lt.mpr hc))]
  | succ left ih =>
    rw [backoffLoop, ServiceMesh.escalatingBackoff]
    cases hdouble : checkedDouble window with
    | none =>
      have hlarge := large_of_checkedDouble hpos hdouble
      have hcap := cap.toInt_lt
      rw [if_neg (by omega)]
    | some doubled =>
      have hvalue := toInt_of_checkedDouble hdouble
      dsimp only
      by_cases hlt : doubled < cap
      · have hlt' := Int64.lt_iff_toInt_lt.mp hlt
        rw [if_pos hlt, if_pos (by omega), ← hvalue]
        exact ih (by omega)
      · have hlt' : ¬ doubled.toInt < cap.toInt := fun hc => hlt (Int64.lt_iff_toInt_lt.mpr hc)
        rw [if_neg hlt, if_neg (by omega)]

theorem turns_backoffLoop (cap : Int64) {window : Int64} {k : Nat} (hpos : 0 < window.toInt)
    (hk : 2 ^ 63 ≤ window.toInt * 2 ^ k) (left : Nat) : (backoffLoop cap left window).2 ≤ k := by
  induction left generalizing window k with
  | zero => exact Nat.zero_le k
  | succ left ih =>
    have hwindow := window.toInt_lt
    cases k with
    | zero =>
      rw [pow_zero, mul_one] at hk
      omega
    | succ k =>
      rw [backoffLoop]
      cases hdouble : checkedDouble window with
      | none => exact Nat.succ_le_succ (Nat.zero_le k)
      | some doubled =>
        have hvalue := toInt_of_checkedDouble hdouble
        dsimp only
        by_cases hlt : doubled < cap
        · rw [if_pos hlt]
          apply Nat.succ_le_succ
          apply ih (by omega)
          rw [hvalue, mul_assoc, mul_comm 2, mul_assoc, mul_comm _ 2, mul_comm 2, ← pow_succ]
          exact hk
        · rw [if_neg hlt]
          exact Nat.succ_le_succ (Nat.zero_le k)

section Positive

variable {base cap : Int64} (hbase : 0 < base) (hcap : 0 < cap)

def wait (base cap : Int64) (n : Nat) : Int := min (base.toInt * 2 ^ n) cap.toInt

include hbase in
theorem toInt_rearmInterval (streak : UInt32) :
    (rearmInterval streak base cap).toInt = wait base cap streak.toNat := by
  have hpos : 0 < base.toInt := Int64.lt_iff_toInt_lt.mp hbase
  rw [rearmInterval, escalatingBackoff, toInt_backoffLoop cap hpos, escalatingBackoff_eq hpos, wait]

include hbase in
theorem wait_mono {m n : Nat} (h : m ≤ n) : wait base cap m ≤ wait base cap n := by
  have hpos : 0 < base.toInt := Int64.lt_iff_toInt_lt.mp hbase
  have hpow : (2 : Int) ^ m ≤ 2 ^ n := pow_le_pow_right₀ (by omega) h
  have hmul : base.toInt * 2 ^ m ≤ base.toInt * 2 ^ n := Int.mul_le_mul_of_nonneg_left hpow hpos.le
  exact min_le_min_right _ hmul

include hbase in
theorem wait_large {n : Nat} (h : 63 ≤ n) : wait base cap n = cap.toInt := by
  have hpos : 0 < base.toInt := Int64.lt_iff_toInt_lt.mp hbase
  have hpow : (2 : Int) ^ 63 ≤ 2 ^ n := pow_le_pow_right₀ (by omega) h
  have hmul : 1 * (2 : Int) ^ 63 ≤ base.toInt * 2 ^ n :=
    Int.mul_le_mul (by omega) hpow (by omega) (by omega)
  have hlt := cap.toInt_lt
  exact min_eq_right (by omega)

include hbase hcap in
theorem wait_pos (n : Nat) : 0 < wait base cap n := by
  have hpos : 0 < base.toInt := Int64.lt_iff_toInt_lt.mp hbase
  have hcap' : 0 < cap.toInt := Int64.lt_iff_toInt_lt.mp hcap
  exact lt_min (Int.mul_pos hpos (by positivity)) hcap'

end Positive

structure Gate where
  lastRearm : Int64
  rearmStreak : UInt32
deriving DecidableEq

def saturatingSub (a b : Int64) : Int64 :=
  .ofInt (max (-2 ^ 63) (min (2 ^ 63 - 1) (a.toInt - b.toInt)))

def saturatingSucc (n : UInt32) : UInt32 := if n.toNat + 1 < 2 ^ 32 then n + 1 else n

def Gate.shouldRearmExpired (g : Gate) (now base cap : Int64) : Gate × Bool :=
  if rearmInterval g.rearmStreak base cap ≤ saturatingSub now g.lastRearm then
    (⟨now, saturatingSucc g.rearmStreak⟩, true)
  else (g, false)

theorem toInt_saturatingSub (a b : Int64) :
    (saturatingSub a b).toInt = max (-2 ^ 63) (min (2 ^ 63 - 1) (a.toInt - b.toInt)) := by
  rw [saturatingSub, Int64.toInt_ofInt_of_le (by omega) (by omega)]

theorem toNat_saturatingSucc (n : UInt32) :
    (saturatingSucc n).toNat = min (n.toNat + 1) (2 ^ 32 - 1) := by
  have hn := n.toNat_lt
  unfold saturatingSucc
  split
  · rename_i hlt
    rw [UInt32.toNat_add, UInt32.toNat_one, Nat.mod_eq_of_lt hlt]
    omega
  · omega

theorem le_saturatingSub_iff {w a b : Int64} (hw : 0 < w.toInt) :
    w ≤ saturatingSub a b ↔ w.toInt ≤ a.toInt - b.toInt := by
  have hlt := w.toInt_lt
  rw [Int64.le_iff_toInt_le, toInt_saturatingSub]
  omega

theorem Gate.due_iff {base cap : Int64} (hbase : 0 < base) (hcap : 0 < cap) (g : Gate)
    (now : Int64) :
    rearmInterval g.rearmStreak base cap ≤ saturatingSub now g.lastRearm ↔
      wait base cap g.rearmStreak.toNat ≤ now.toInt - g.lastRearm.toInt := by
  have hvalue : (rearmInterval g.rearmStreak base cap).toInt =
      wait base cap g.rearmStreak.toNat := toInt_rearmInterval hbase _
  have hpos := wait_pos hbase hcap g.rearmStreak.toNat
  rw [le_saturatingSub_iff (by omega), hvalue]

structure Tracks (g : Gate) (p : PathState) : Prop where
  lastRearm : p.lastRearm = g.lastRearm.toInt
  rearmStreak : g.rearmStreak.toNat = min p.rearmStreak (2 ^ 32 - 1)

theorem tracks_shouldRearmExpired {base cap : Int64} (hbase : 0 < base) (hcap : 0 < cap) {g : Gate}
    {p : PathState} (h : Tracks g p) (now : Int64) :
    (g.shouldRearmExpired now base cap).2 =
        (p.shouldRearmExpired now.toInt base.toInt cap.toInt).2 ∧
      Tracks (g.shouldRearmExpired now base cap).1
        (p.shouldRearmExpired now.toInt base.toInt cap.toInt).1 := by
  have hpos : 0 < base.toInt := Int64.lt_iff_toInt_lt.mp hbase
  have hwait : ServiceMesh.rearmInterval p.rearmStreak base.toInt cap.toInt =
      wait base cap g.rearmStreak.toNat := by
    rw [ServiceMesh.rearmInterval, escalatingBackoff_eq hpos]
    by_cases hsmall : p.rearmStreak ≤ 2 ^ 32 - 1
    · rw [h.rearmStreak, min_eq_left hsmall, wait]
    · have hlarge : 63 ≤ p.rearmStreak := by omega
      have hword : 63 ≤ g.rearmStreak.toNat := by
        rw [h.rearmStreak]
        omega
      rw [wait_large hbase hword]
      exact wait_large hbase hlarge
  have hdue := g.due_iff hbase hcap now
  rw [← h.lastRearm] at hdue
  unfold Gate.shouldRearmExpired PathState.shouldRearmExpired
  by_cases hfires : rearmInterval g.rearmStreak base cap ≤ saturatingSub now g.lastRearm
  · rw [if_pos hfires, if_pos (hwait ▸ hdue.mp hfires)]
    refine ⟨rfl, rfl, ?_⟩
    have hstreak := h.rearmStreak
    show (saturatingSucc g.rearmStreak).toNat = min (p.rearmStreak + 1) (2 ^ 32 - 1)
    rw [toNat_saturatingSucc]
    omega
  · have hwaits : ¬ ServiceMesh.rearmInterval p.rearmStreak base.toInt cap.toInt ≤
        now.toInt - p.lastRearm := by
      rw [hwait]
      exact fun hc => hfires (hdue.mpr hc)
    rw [if_neg hfires, if_neg hwaits]
    exact ⟨rfl, h⟩

theorem tracks_shouldRearmExpired_fresh :
    let g := (Gate.shouldRearmExpired ⟨0, 0⟩ 60 30 1000).1
    let p := (PathState.fresh.shouldRearmExpired 60 30 1000).1
    (g.shouldRearmExpired 90 30 1000).2 = (p.shouldRearmExpired 90 30 1000).2 ∧
      Tracks (g.shouldRearmExpired 90 30 1000).1 (p.shouldRearmExpired 90 30 1000).1 :=
  tracks_shouldRearmExpired (by decide) (by decide) ⟨by decide, by decide⟩ 90

def permitted (base cap : Int64) : Gate → List Int64 → List Int64
  | _, [] => []
  | g, now :: nows =>
    if (g.shouldRearmExpired now base cap).2 then
      now :: permitted base cap (g.shouldRearmExpired now base cap).1 nows
    else permitted base cap (g.shouldRearmExpired now base cap).1 nows

def Spaced (wait : Nat → Int) : Nat → Int → List Int64 → Prop
  | _, _, [] => True
  | n, last, t :: ts => wait n ≤ t.toInt - last ∧ Spaced wait (n + 1) t.toInt ts

theorem spaced_permitted {base cap : Int64} (hbase : 0 < base) (hcap : 0 < cap) (nows : List Int64)
    {g : Gate} {n : Nat} (hn : n ≤ g.rearmStreak.toNat ∨ 63 ≤ g.rearmStreak.toNat) :
    Spaced (wait base cap) n g.lastRearm.toInt (permitted base cap g nows) := by
  induction nows generalizing g n with
  | nil => trivial
  | cons now nows ih =>
    have hdue := g.due_iff hbase hcap now
    have hwait : wait base cap n ≤ wait base cap g.rearmStreak.toNat := by
      rcases hn with hn | hn
      · exact wait_mono hbase hn
      · rw [wait_large hbase hn]
        exact min_le_right _ _
    by_cases hfires : rearmInterval g.rearmStreak base cap ≤ saturatingSub now g.lastRearm
    · have hstep : g.shouldRearmExpired now base cap =
          (⟨now, saturatingSucc g.rearmStreak⟩, true) := if_pos hfires
      have hnext : n + 1 ≤ (saturatingSucc g.rearmStreak).toNat ∨
          63 ≤ (saturatingSucc g.rearmStreak).toNat := by
        rw [toNat_saturatingSucc]
        omega
      have hrest := ih (g := ⟨now, saturatingSucc g.rearmStreak⟩) hnext
      rw [permitted, hstep]
      exact ⟨hwait.trans (hdue.mp hfires), hrest⟩
    · have hstep : g.shouldRearmExpired now base cap = (g, false) := if_neg hfires
      rw [permitted, hstep]
      exact ih hn

theorem Spaced.gap {wait : Nat → Int} {n k : Nat} {last : Int} {ts : List Int64} {t t' : Int64}
    (h : Spaced wait n last ts) (ht : ts[k]? = some t) (ht' : ts[k + 1]? = some t') :
    wait (n + k + 1) ≤ t'.toInt - t.toInt := by
  induction ts generalizing n k last with
  | nil => simp at ht
  | cons first ts ih =>
    cases k with
    | zero =>
      cases ts with
      | nil => simp at ht'
      | cons second ts =>
        have hfirst : first = t := by simpa using ht
        have hsecond : second = t' := by simpa using ht'
        subst hfirst hsecond
        exact h.2.1
    | succ k =>
      have hrest := ih h.2 (by simpa using ht) (by simpa using ht')
      have hindex : n + 1 + k + 1 = n + (k + 1) + 1 := by omega
      rw [hindex] at hrest
      exact hrest

/-- The back-off is the capped power of two, positive and growing, and the loop takes 63 turns at
most; and from whatever the gate holds, with whatever the clock shows, the re-arm after the `k`th
comes no sooner than the wait of `k`. -/
theorem escalating_backoff_exact (base cap : Int64) (hbase : 0 < base) (hcap : 0 < cap) :
    (∀ streak : UInt32,
      (escalatingBackoff streak base cap).toInt =
          min (base.toInt * 2 ^ streak.toNat) cap.toInt ∧
        0 < escalatingBackoff streak base cap ∧ backoffTurns streak base cap ≤ 63) ∧
    (∀ streak streak' : UInt32, streak ≤ streak' →
      escalatingBackoff streak base cap ≤ escalatingBackoff streak' base cap) ∧
    ∀ (g : Gate) (nows : List Int64) (k : Nat) (t t' : Int64),
      (permitted base cap g nows)[k]? = some t →
      (permitted base cap g nows)[k + 1]? = some t' →
      min (base.toInt * 2 ^ (k + 1)) cap.toInt ≤ t'.toInt - t.toInt := by
  have hpos : 0 < base.toInt := Int64.lt_iff_toInt_lt.mp hbase
  have hvalue : ∀ streak, (escalatingBackoff streak base cap).toInt =
      wait base cap streak.toNat := fun streak => toInt_rearmInterval hbase streak
  refine ⟨?_, ?_, ?_⟩
  · intro streak
    refine ⟨hvalue streak, ?_, ?_⟩
    · rw [Int64.lt_iff_toInt_lt, hvalue]
      exact wait_pos hbase hcap _
    · exact turns_backoffLoop cap hpos (by omega) streak.toNat
  · intro streak streak' hle
    rw [Int64.le_iff_toInt_le, hvalue, hvalue]
    exact wait_mono hbase (UInt32.le_iff_toNat_le.mp hle)
  · intro g nows k t t' ht ht'
    have hspaced := spaced_permitted hbase hcap nows (g := g) (.inl (Nat.zero_le _))
    have hgap := hspaced.gap ht ht'
    rw [Nat.zero_add] at hgap
    exact hgap

theorem escalating_backoff_exact_longest :
    (escalatingBackoff 0 30 1000).toInt = 30 ∧
      (escalatingBackoff 4294967295 30 1000).toInt = 1000 := by
  obtain ⟨hexact, -, -⟩ := escalating_backoff_exact 30 1000 (by decide) (by decide)
  refine ⟨(hexact 0).1, ?_⟩
  have hlarge : wait 30 1000 4294967295 = 1000 := wait_large (by decide) (by decide)
  rw [(hexact 4294967295).1]
  exact hlarge

end RearmGate

end ServiceMesh
