import ServiceMesh.PunchTracking

/-! The budget that pairs draw on when they are punched for the first time. It is kept as the start
of a window and a counter, so it bounds what happens between two starts; an interval that lies
across a start sees the budgets of two windows. -/

namespace ServiceMesh

def firstPunches : List (PunchOp × Bool) → List Int
  | [] => []
  | (.claim pair now, granted) :: tr =>
    if granted = true ∧ punched pair tr = none then now :: firstPunches tr else firstPunches tr
  | _ :: tr => firstPunches tr

def within (start : Int) (times : List Int) : Nat :=
  (times.filter (fun x => decide (start ≤ x ∧ x < start + coldStartWindowMicros))).length

theorem within_append (start : Int) (l l' : List Int) :
    within start (l ++ l') = within start l + within start l' := by
  simp [within]

theorem within_le_length (start : Int) (l : List Int) : within start l ≤ l.length :=
  List.length_filter_le _ l

/-- The counter of a window that is still running has not reached its last value. -/
def PunchTracker.HasRoom (t : PunchTracker) : PunchOp → Prop
  | .claim _ now => now - t.windowStart < coldStartWindowMicros → t.count ≠ 0xffffffff
  | _ => True

instance (t : PunchTracker) : (op : PunchOp) → Decidable (t.HasRoom op)
  | .claim _ now =>
    inferInstanceAs (Decidable (now - t.windowStart < coldStartWindowMicros → t.count ≠ 0xffffffff))
  | .confirm _ | .remove _ | .reap _ => .isTrue trivial

namespace PunchTracker

variable {t : PunchTracker} {now : Int}

theorem takeColdStartToken_of_over (h : coldStartWindowMicros ≤ now - t.windowStart) :
    (t.takeColdStartToken now).1 = { t with windowStart := now, count := 1 } ∧
      (t.takeColdStartToken now).2 = true := by
  unfold takeColdStartToken
  rw [if_pos h]
  exact ⟨rfl, rfl⟩

theorem takeColdStartToken_of_running (h : now - t.windowStart < coldStartWindowMicros) :
    (t.takeColdStartToken now).1 = { t with count := t.count + 1 } ∧
      (t.takeColdStartToken now).2 = decide (t.count < maxNewEmitsPerWindow) := by
  unfold takeColdStartToken
  rw [if_neg (by omega)]
  exact ⟨rfl, rfl⟩

theorem budget_claim_untracked {pair : PunchPair} (h : t.pairs.lookup pair = none) :
    (t.claim pair now).1.windowStart = (t.takeColdStartToken now).1.windowStart ∧
      (t.claim pair now).1.count = (t.takeColdStartToken now).1.count := by
  simp only [claim, h]
  split <;> exact ⟨rfl, rfl⟩

theorem budget_claim_tracked {pair : PunchPair} {st : PunchState}
    (h : t.pairs.lookup pair = some st) :
    (t.claim pair now).1.windowStart = t.windowStart ∧ (t.claim pair now).1.count = t.count := by
  simp only [claim, h]
  split <;> exact ⟨rfl, rfl⟩

end PunchTracker

structure Budget (tr : List (PunchOp × Bool)) (t : PunchTracker) (current old : List Int) : Prop where
  few : current.length ≤ 8
  counted : current.length ≤ t.count.toNat
  running : ∀ x ∈ current, x < t.windowStart + coldStartWindowMicros
  started : old ≠ [] → ∃ x ∈ tr, x.1.now = some t.windowStart
  after : old ≠ [] → ∀ x ∈ current, t.windowStart ≤ x
  before : ∀ x ∈ old, x < t.windowStart
  recent : (old.filter (fun x => decide (t.windowStart - coldStartWindowMicros ≤ x))).length ≤ 8
  spread : ∀ start, within start old ≤ 16

namespace Budget

variable {tr : List (PunchOp × Bool)} {t : PunchTracker} {current old : List Int}

theorem bound (h : Budget tr t current old) (start : Int) : within start (current ++ old) ≤ 16 := by
  rw [within_append]
  have hcurrent := within_le_length start current
  have hfew := h.few
  by_cases hold : old = []
  · rw [hold]
    have hnone : within start ([] : List Int) = 0 := rfl
    omega
  · by_cases hstart : start + coldStartWindowMicros ≤ t.windowStart
    · have hnone : within start current = 0 := by
        rw [within, List.length_eq_zero_iff, List.filter_eq_nil_iff]
        intro x hx
        have hafter := h.after hold x hx
        simp only [decide_eq_true_eq]
        omega
      have hspread := h.spread start
      omega
    · have hrecent : within start old ≤ 8 := by
        refine Nat.le_trans (List.Sublist.length_le (List.monotone_filter_right old ?_)) h.recent
        intro x hx
        simp only [decide_eq_true_eq] at hx ⊢
        omega
      omega

theorem more (h : Budget tr t current old) (x : PunchOp × Bool) : Budget (x :: tr) t current old := by
  refine ⟨h.few, h.counted, h.running, ?_, h.after, h.before, h.recent, h.spread⟩
  intro hold
  obtain ⟨y, hy, hstart⟩ := h.started hold
  exact ⟨y, List.mem_cons_of_mem x hy, hstart⟩

theorem congr (h : Budget tr t current old) {t' : PunchTracker}
    (hstart : t'.windowStart = t.windowStart) (hcount : t'.count = t.count) :
    Budget tr t' current old := by
  refine ⟨h.few, ?_, ?_, ?_, ?_, ?_, ?_, h.spread⟩
  · rw [hcount]
    exact h.counted
  · rw [hstart]
    exact h.running
  · rw [hstart]
    exact h.started
  · rw [hstart]
    exact h.after
  · rw [hstart]
    exact h.before
  · rw [hstart]
    exact h.recent

theorem roll (h : Budget tr t current old) {pair : PunchPair} {now : Int} {granted : Bool}
    (hover : coldStartWindowMicros ≤ now - t.windowStart) {t' : PunchTracker}
    (hstart : t'.windowStart = now) (hcount : t'.count = 1) :
    Budget ((.claim pair now, granted) :: tr) t' [now] (current ++ old) := by
  have hwindow : coldStartWindowMicros = 1000000 := rfl
  have hbefore : ∀ x ∈ old, x < now - coldStartWindowMicros := by
    intro x hx
    have hold := h.before x hx
    omega
  refine ⟨by simp, by simp [hcount], ?_, ?_, ?_, ?_, ?_, h.bound⟩
  · intro x hx
    rw [List.mem_singleton.mp hx, hstart]
    omega
  · intro _
    exact ⟨_, List.mem_cons_self, by rw [hstart]; rfl⟩
  · intro _ x hx
    rw [List.mem_singleton.mp hx, hstart]
  · intro x hx
    rw [hstart]
    rcases List.mem_append.mp hx with hx | hx
    · have hrunning := h.running x hx
      omega
    · have hold := hbefore x hx
      omega
  · have hnone : old.filter (fun x => decide (t'.windowStart - coldStartWindowMicros ≤ x)) = [] := by
      rw [List.filter_eq_nil_iff]
      intro x hx
      have hold := hbefore x hx
      simp only [decide_eq_true_eq, hstart]
      omega
    rw [List.filter_append, hnone, List.append_nil]
    exact Nat.le_trans (List.length_filter_le _ _) h.few

theorem draw (h : Budget tr t current old) {pair : PunchPair} {now : Int}
    (horder : PunchOp.InOrder tr (.claim pair now))
    (hrunning : now - t.windowStart < coldStartWindowMicros) (hroom : t.count ≠ 0xffffffff)
    {t' : PunchTracker} (hstart : t'.windowStart = t.windowStart) (hcount : t'.count = t.count + 1) :
    Budget ((.claim pair now, decide (t.count < maxNewEmitsPerWindow)) :: tr) t'
      (if t.count < maxNewEmitsPerWindow then now :: current else current) old := by
  have hnext : t'.count.toNat = t.count.toNat + 1 := by
    have hne : t.count.toNat ≠ 4294967295 := by
      intro hc
      exact hroom (UInt32.toNat_inj.mp (hc.trans rfl))
    have hlt := t.count.toNat_lt
    rw [hcount, UInt32.toNat_add]
    have hone : (1 : UInt32).toNat = 1 := rfl
    omega
  have hmore := h.more (.claim pair now, decide (t.count < maxNewEmitsPerWindow))
  have hcounted := h.counted
  split
  · rename_i hgranted
    have hbelow : t.count.toNat < 8 := UInt32.lt_iff_toNat_lt.mp hgranted
    refine ⟨?_, ?_, ?_, ?_, ?_, ?_, ?_, h.spread⟩
    · rw [List.length_cons]
      omega
    · rw [List.length_cons, hnext]
      omega
    · intro x hx
      rw [hstart]
      rcases List.mem_cons.mp hx with rfl | hx
      · omega
      · exact h.running x hx
    · rw [hstart]
      exact hmore.started
    · intro hold x hx
      rw [hstart]
      rcases List.mem_cons.mp hx with rfl | hx
      · obtain ⟨y, hy, hyear⟩ := h.started hold
        exact horder x rfl y hy t.windowStart hyear
      · exact h.after hold x hx
    · rw [hstart]
      exact h.before
    · rw [hstart]
      exact h.recent
  · refine ⟨h.few, by omega, ?_, ?_, ?_, ?_, ?_, h.spread⟩
    · rw [hstart]
      exact h.running
    · rw [hstart]
      exact hmore.started
    · rw [hstart]
      exact h.after
    · rw [hstart]
      exact h.before
    · rw [hstart]
      exact h.recent

end Budget

theorem budget_of_run {tr : List (PunchOp × Bool)} {t : PunchTracker}
    (h : punches.Run PunchTracker.HasRoom tr t) :
    ∃ current old, firstPunches tr = current ++ old ∧ Budget tr t current old := by
  induction h with
  | start =>
    refine ⟨[], [], rfl, ?_⟩
    exact ⟨by simp, by simp, by simp, by simp, by simp, by simp, by simp, by simp [within]⟩
  | @step tr t op hrun horder hroom ih =>
    obtain ⟨current, old, hfirst, hbudget⟩ := ih
    cases op with
    | confirm pair => exact ⟨current, old, hfirst, (hbudget.more _).congr rfl rfl⟩
    | remove peerId => exact ⟨current, old, hfirst, (hbudget.more _).congr rfl rfl⟩
    | reap now => exact ⟨current, old, hfirst, (hbudget.more _).congr rfl rfl⟩
    | claim pair now =>
      have hlookup := lookup_eq_punched hrun pair
      show ∃ current old, firstPunches ((.claim pair now, (t.claim pair now).2) :: tr) =
        current ++ old ∧ Budget ((.claim pair now, (t.claim pair now).2) :: tr)
          (t.claim pair now).1 current old
      cases htracked : t.pairs.lookup pair with
      | some st =>
        obtain ⟨hstart, hcount⟩ := PunchTracker.budget_claim_tracked htracked
        refine ⟨current, old, ?_, (hbudget.more _).congr hstart hcount⟩
        have hseen : punched pair tr ≠ none := by
          intro hnone
          simp [htracked, hnone] at hlookup
        simp [firstPunches, hseen, hfirst]
      | none =>
        have hunseen : punched pair tr = none := by
          cases hp : punched pair tr with
          | none => rfl
          | some p => simp [htracked, hp] at hlookup
        obtain ⟨hstart, hcount⟩ := PunchTracker.budget_claim_untracked htracked
        rw [PunchTracker.claim_untracked htracked]
        by_cases hover : coldStartWindowMicros ≤ now - t.windowStart
        · obtain ⟨hnext, hgranted⟩ := PunchTracker.takeColdStartToken_of_over hover
          rw [hnext] at hstart hcount
          refine ⟨[now], current ++ old, ?_, hbudget.roll hover hstart hcount⟩
          simp [firstPunches, hunseen, hgranted, hfirst]
        · have hrunning : now - t.windowStart < coldStartWindowMicros := by omega
          obtain ⟨hnext, hgranted⟩ := PunchTracker.takeColdStartToken_of_running hrunning
          rw [hnext] at hstart hcount
          rw [hgranted]
          refine ⟨_, old, ?_, hbudget.draw horder hrunning (hroom hrunning) hstart hcount⟩
          by_cases hbelow : t.count < maxNewEmitsPerWindow
          · simp [firstPunches, hunseen, hbelow, hfirst]
          · simp [firstPunches, hbelow, hfirst]

section Example

def crowd (n : Nat) (now : Int) (first : Nat) : List PunchOp :=
  (List.range n).map (fun i => .claim (BitVec.ofNat 128 (first + i), 1000) now)

def crowdedRun : List (PunchOp × Bool) × PunchTracker :=
  trackerRun (crowd 1 1700000000000000 0 ++ crowd 7 1700000000999999 1 ++ crowd 8 1700000001000000 8)

end Example

end ServiceMesh
