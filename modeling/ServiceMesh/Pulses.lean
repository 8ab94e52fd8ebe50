import Mathlib.Tactic

/-! Nodes that pulse. A node that has heard nothing for a while, and has not pulsed for as long,
sends a pulse to its target and so refreshes it. A node refreshed just before it would pulse keeps
silent, and may leave its own target waiting for ever, unless it hears a pulse only when it has
pulsed itself since the last one. -/

namespace Pulses

structure Timing where
  /-- How long a node hears nothing before it pulses, and how long it rests between pulses. -/
  after : Int
  period : Int
  delay : Int

structure Pulse (ι κ : Type) where
  dst : ι
  sentAt : Int
  sure : Bool
  load : κ
deriving DecidableEq

structure State (ι κ : Type) where
  now : Int
  heard : ι → Int
  pulsed : ι → Int
  nextTick : ι → Int
  inFlight : List (Pulse ι κ)

variable {ι κ : Type}

def State.Due (T : Timing) (s : State ι κ) (i : ι) : Prop :=
  T.after ≤ s.now - s.heard i ∧ T.after ≤ s.now - s.pulsed i

def State.Sends (stray : Pulse ι κ → Prop) (s : State ι κ) (extra : List (Pulse ι κ)) : Prop :=
  ∀ m ∈ extra, stray m ∧ m.sentAt = s.now

/-- Time passes until the next deadline at most; a node hears only if it has pulsed since. -/
inductive Step [DecidableEq ι] [DecidableEq κ] (T : Timing) (target : ι → ι) (stray : Pulse ι κ → Prop) :
    State ι κ → State ι κ → Prop
  | wait (s : State ι κ) (t : Int) (hlater : s.now ≤ t) (hticks : ∀ i, t ≤ s.nextTick i)
      (hflights : ∀ m ∈ s.inFlight, m.sure = true → t ≤ m.sentAt + T.delay) :
      Step T target stray s { s with now := t }
  | rest (s : State ι κ) (i : ι) (extra : List (Pulse ι κ)) (hextra : s.Sends stray extra)
      (htick : s.nextTick i = s.now) (hdue : ¬ s.Due T i) :
      Step T target stray s { s with
        nextTick := Function.update s.nextTick i (s.now + T.period)
        inFlight := extra ++ s.inFlight }
  | pulse (s : State ι κ) (i : ι) (load : κ) (extra : List (Pulse ι κ)) (hextra : s.Sends stray extra)
      (htick : s.nextTick i = s.now) (hdue : s.Due T i) :
      Step T target stray s { s with
        pulsed := Function.update s.pulsed i s.now
        nextTick := Function.update s.nextTick i (s.now + T.period)
        inFlight := ⟨target i, s.now, true, load⟩ :: (extra ++ s.inFlight) }
  | hear (s : State ι κ) (m : Pulse ι κ) (hm : m ∈ s.inFlight)
      (hready : s.heard m.dst < s.pulsed m.dst) :
      Step T target stray s { s with
        heard := Function.update s.heard m.dst (max (s.heard m.dst) s.now)
        inFlight := s.inFlight.erase m }

abbrev Reach [DecidableEq ι] [DecidableEq κ] (T : Timing) (target : ι → ι) (stray : Pulse ι κ → Prop) :
    State ι κ → State ι κ → Prop :=
  Relation.ReflTransGen (Step T target stray)

structure Start (T : Timing) (start : Int) (s : State ι κ) : Prop where
  now : s.now = start
  heard : ∀ i, s.heard i = start
  pulsed : ∀ i, s.pulsed i ≤ start
  ticks : ∀ i, start ≤ s.nextTick i ∧ s.nextTick i ≤ start + T.period
  inFlight : s.inFlight = []

structure Timing.Sound (T : Timing) : Prop where
  period : 0 ≤ T.period
  delay : 0 ≤ T.delay
  quick : 2 * T.delay < T.after

structure Paced (T : Timing) (start : Int) (s : State ι κ) : Prop where
  started : ∀ i, start ≤ s.heard i
  heard : ∀ i, s.heard i ≤ s.now
  pulsed : ∀ i, s.pulsed i ≤ s.now
  ticks : ∀ i, s.now ≤ s.nextTick i
  armed : ∀ i, s.nextTick i < max (s.heard i) (s.pulsed i) + T.after + T.period
  prompt : ∀ i, s.heard i ≤ max (s.pulsed i) start + T.after + T.period
  timely : ∀ m ∈ s.inFlight, m.sure = true → s.now ≤ m.sentAt + T.delay

variable {T : Timing} {target : ι → ι} {stray : Pulse ι κ → Prop} {start : Int} {s s' s₀ : State ι κ}

theorem Start.paced (hT : T.Sound) (h : Start T start s) : Paced T start s := by
  have hperiod := hT.period
  have hdelay := hT.delay
  have hquick := hT.quick
  refine ⟨?_, ?_, ?_, ?_, ?_, ?_, by simp [h.inFlight]⟩
  all_goals
    intro i
    have hnow := h.now
    have hheard := h.heard i
    have hpulsed := h.pulsed i
    have hticks := h.ticks i
    omega

theorem timely_append (hT : T.Sound) {extra : List (Pulse ι κ)} (hextra : s.Sends stray extra)
    {rest : List (Pulse ι κ)} (hrest : ∀ m ∈ rest, m.sure = true → s.now ≤ m.sentAt + T.delay) :
    ∀ m ∈ extra ++ rest, m.sure = true → s.now ≤ m.sentAt + T.delay := by
  intro m hm hsure
  rcases List.mem_append.mp hm with hm | hm
  · have hsent := (hextra m hm).2
    have hdelay := hT.delay
    omega
  · exact hrest m hm hsure

theorem Paced.now_lt (hT : T.Sound) (h : Paced T start s) (i : ι) :
    s.now < max (s.pulsed i) start + 2 * (T.after + T.period) := by
  have hperiod := hT.period
  have hdelay := hT.delay
  have hquick := hT.quick
  have hticks := h.ticks i
  have harmed := h.armed i
  have hprompt := h.prompt i
  omega

variable [DecidableEq ι] [DecidableEq κ]

theorem Paced.step (hT : T.Sound) (h : Paced T start s) (hstep : Step T target stray s s') :
    Paced T start s' := by
  have hperiod := hT.period
  have hdelay := hT.delay
  have hquick := hT.quick
  cases hstep with
  | wait t hlater hticks hflights =>
    refine ⟨h.started, ?_, ?_, hticks, h.armed, h.prompt, hflights⟩
    · exact fun i => (h.heard i).trans hlater
    · exact fun i => (h.pulsed i).trans hlater
  | rest i extra hextra htick hdue =>
    refine ⟨h.started, h.heard, h.pulsed, ?_, ?_, h.prompt, timely_append hT hextra h.timely⟩
    · intro k
      have hticks := h.ticks k
      simp only [Function.update_apply]
      split <;> omega
    · intro k
      simp only [Function.update_apply]
      split
      · rename_i hk
        subst hk
        unfold State.Due at hdue
        omega
      · exact h.armed k
  | pulse i load extra hextra htick hdue =>
    refine ⟨h.started, h.heard, ?_, ?_, ?_, ?_, ?_⟩
    · intro k
      have hpulsed := h.pulsed k
      simp only [Function.update_apply]
      split <;> omega
    · intro k
      have hticks := h.ticks k
      simp only [Function.update_apply]
      split <;> omega
    · intro k
      have harmed := h.armed k
      simp only [Function.update_apply]
      split <;> omega
    · intro k
      have hprompt := h.prompt k
      have hpulsed := h.pulsed k
      simp only [Function.update_apply]
      split
      · rename_i hk
        subst hk
        omega
      · exact hprompt
    · intro m hm hsure
      rcases List.mem_cons.mp hm with rfl | hm
      · show s.now ≤ s.now + T.delay
        omega
      · exact timely_append hT hextra h.timely m hm hsure
  | hear m hm hready =>
    refine ⟨?_, ?_, h.pulsed, h.ticks, ?_, ?_, ?_⟩
    · intro k
      have hstarted := h.started k
      simp only [Function.update_apply]
      split
      · rename_i hk
        subst hk
        omega
      · exact hstarted
    · intro k
      have hheard := h.heard k
      simp only [Function.update_apply]
      split
      · rename_i hk
        subst hk
        show max (s.heard m.dst) s.now ≤ s.now
        omega
      · exact hheard
    · intro k
      have harmed := h.armed k
      simp only [Function.update_apply]
      split
      · rename_i hk
        subst hk
        show s.nextTick m.dst < _
        omega
      · exact harmed
    · intro k
      have hprompt := h.prompt k
      simp only [Function.update_apply]
      split
      · rename_i hk
        subst hk
        have hticks := h.ticks m.dst
        have harmed := h.armed m.dst
        have hheard := h.heard m.dst
        show max (s.heard m.dst) s.now ≤ _
        omega
      · exact hprompt
    · exact fun m' hm' => h.timely m' (List.mem_of_mem_erase hm')

def Follows (T : Timing) (i j : ι) (s : State ι κ) : Prop :=
  s.pulsed i ≤ s.heard j ∨
    (∃ load, ⟨j, s.pulsed i, true, load⟩ ∈ s.inFlight) ∧ s.pulsed i ≤ s.heard j + 2 * (T.after + T.period)

theorem Follows.step (hT : T.Sound) (hp : Paced T start s) {i j : ι} (htarget : target i = j)
    (h : Follows T i j s) (hstep : Step T target stray s s') : Follows T i j s' := by
  have hquick := hT.quick
  have hdelay := hT.delay
  cases hstep with
  | wait t hlater hticks hflights => exact h
  | rest k extra hextra htick hdue =>
    exact h.imp_right (And.imp_left (fun ⟨load, hmem⟩ => ⟨load, List.mem_append_right _ hmem⟩))
  | pulse k load extra hextra htick hdue =>
    by_cases hk : i = k
    · subst hk
      right
      have hstarted := hp.started j
      have hnow := hp.now_lt hT i
      have hearlier : s.pulsed i ≤ s.heard j := by
        rcases h with harrived | ⟨hmem, -⟩
        · exact harrived
        · obtain ⟨load, hmem⟩ := hmem
          have htimely := hp.timely _ hmem rfl
          have hrested := hdue.2
          simp only at htimely
          omega
      simp only [Function.update_self, htarget]
      refine ⟨⟨load, List.mem_cons_self⟩, ?_⟩
      omega
    · unfold Follows
      simp only [Function.update_of_ne hk]
      refine h.imp_right (And.imp_left fun ⟨load, hmem⟩ => ⟨load, ?_⟩)
      exact List.mem_cons_of_mem _ (List.mem_append_right _ hmem)
  | hear m hm hready =>
    unfold Follows
    by_cases hj : j = m.dst
    · left
      have hpulsed := hp.pulsed i
      subst hj
      simp only [Function.update_self]
      omega
    · simp only [Function.update_of_ne hj]
      refine h.imp_right (And.imp_left fun ⟨load, hmem⟩ => ⟨load, ?_⟩)
      have hne : (⟨j, s.pulsed i, true, load⟩ : Pulse ι κ) ≠ m :=
        fun heq => hj (congrArg Pulse.dst heq)
      exact (List.mem_erase_of_ne hne).mpr hmem

/-- Somebody's target is never left waiting for longer than two rounds and a delay. -/
theorem silence_le (hT : T.Sound) (h₀ : Start T start s₀) (h : Reach T target stray s₀ s)
    {i j : ι} (htarget : target i = j) :
    s.now - s.heard j ≤ 2 * (T.after + T.period) + T.delay := by
  have hboth : Paced T start s ∧ Follows T i j s := by
    induction h with
    | refl =>
      refine ⟨h₀.paced hT, .inl ?_⟩
      have hheard := h₀.heard j
      have hpulsed := h₀.pulsed i
      omega
    | tail _ hstep ih => exact ⟨ih.1.step hT hstep, ih.2.step hT ih.1 htarget hstep⟩
  obtain ⟨hp, hfollows⟩ := hboth
  have hdelay := hT.delay
  rcases hfollows with harrived | ⟨hmem, hprompt⟩
  · have hstarted := hp.started j
    have hnow := hp.now_lt hT i
    omega
  · obtain ⟨load, hmem⟩ := hmem
    have htimely := hp.timely _ hmem rfl
    simp only at htimely
    omega

section Pair

variable {s s' s₀ : State Bool κ}

/-- Two nodes that pulse at each other and send nothing else take turns: both rest; one has pulsed;
both have; the pulse of one of them has arrived. -/
inductive Turn (T : Timing) (s : State Bool κ) : Prop
  | resting (hflying : s.inFlight = []) (hrest : ∀ x, s.pulsed x ≤ s.heard x)
      (hnear : ∀ x, s.heard x ≤ s.heard (!x) + T.delay)
  | one (x : Bool) (load : κ) (hflying : s.inFlight = [⟨!x, s.pulsed x, true, load⟩])
      (hpulsed : s.heard x < s.pulsed x) (hrest : s.pulsed (!x) ≤ s.heard (!x))
      (hprompt : s.pulsed x ≤ s.heard x + T.after + T.period)
      (hnear : ∀ x, s.heard x ≤ s.heard (!x) + T.delay)
  | both (x : Bool) (load load' : κ)
      (hflying : s.inFlight = [⟨x, s.pulsed (!x), true, load⟩, ⟨!x, s.pulsed x, true, load'⟩])
      (hpulsed : ∀ x, s.heard x < s.pulsed x)
      (hprompt : ∀ x, s.pulsed x ≤ s.heard x + T.after + T.period)
      (hnear : ∀ x, s.heard x ≤ s.heard (!x) + T.delay)
  | crossed (x : Bool) (load : κ) (hflying : s.inFlight = [⟨x, s.pulsed (!x), true, load⟩])
      (hpulsed : s.heard x < s.pulsed x) (hrest : s.pulsed (!x) ≤ s.heard (!x))
      (hprompt : s.pulsed (!x) ≤ s.heard x + T.delay + T.after + T.period)
      (hnear : s.pulsed x ≤ s.heard (!x) ∧ s.heard (!x) ≤ s.pulsed x + T.delay)

omit [DecidableEq κ] in
theorem Turn.congr (h : Turn T s) (hheard : s'.heard = s.heard) (hpulsed : s'.pulsed = s.pulsed)
    (hflying : s'.inFlight = s.inFlight) : Turn T s' := by
  obtain ⟨now, heard, pulsed, nextTick, inFlight⟩ := s
  obtain ⟨now', heard', pulsed', nextTick', inFlight'⟩ := s'
  obtain rfl : heard' = heard := hheard
  obtain rfl : pulsed' = pulsed := hpulsed
  obtain rfl : inFlight' = inFlight := hflying
  cases h with
  | resting hflying hrest hnear => exact .resting hflying hrest hnear
  | one x load hflying hpulsed hrest hprompt hnear => exact .one x load hflying hpulsed hrest hprompt hnear
  | both x load load' hflying hpulsed hprompt hnear => exact .both x load load' hflying hpulsed hprompt hnear
  | crossed x load hflying hpulsed hrest hprompt hnear =>
    exact .crossed x load hflying hpulsed hrest hprompt hnear

omit [DecidableEq κ] in
theorem Paced.timely_both (hp : Paced T start s) {x : Bool} {load load' : κ}
    (hflying : s.inFlight = [⟨x, s.pulsed (!x), true, load⟩, ⟨!x, s.pulsed x, true, load'⟩])
    (y : Bool) : s.now ≤ s.pulsed y + T.delay := by
  rcases Bool.eq_or_eq_not y x with rfl | rfl
  · exact hp.timely ⟨!y, s.pulsed y, true, load'⟩ (by simp [hflying]) rfl
  · exact hp.timely ⟨x, s.pulsed (!x), true, load⟩ (by simp [hflying]) rfl

omit [DecidableEq κ] in
theorem Turn.pulse (hT : T.Sound) (hp : Paced T start s) (h : Turn T s) (x : Bool) (load : κ)
    (hdue : s.Due T x) :
    Turn T { s with
      pulsed := Function.update s.pulsed x s.now
      nextTick := Function.update s.nextTick x (s.now + T.period)
      inFlight := ⟨!x, s.now, true, load⟩ :: s.inFlight } := by
  have hquick := hT.quick
  have hdelay := hT.delay
  have hticks := hp.ticks x
  have harmed := hp.armed x
  have hpast := hp.pulsed x
  unfold State.Due at hdue
  cases h with
  | resting hflying hrest hnear =>
    have hquiet := hrest x
    refine .one x load ?_ ?_ ?_ ?_ hnear
    · simp only [Function.update_self, hflying]
    · simp only [Function.update_self]
      omega
    · simp only [Function.update_of_ne (Bool.not_ne_self x)]
      exact hrest (!x)
    · simp only [Function.update_self]
      omega
  | one y load' hflying hpulsed hrest hprompt hnear =>
    have htimely := hp.timely ⟨!y, s.pulsed y, true, load'⟩ (by simp [hflying]) rfl
    simp only at htimely
    rcases Bool.eq_or_eq_not x y with rfl | rfl
    · omega
    · refine .both y load load' ?_ ?_ ?_ hnear
      · simp only [hflying, Function.update_self, Bool.not_not,
          Function.update_of_ne (Bool.not_ne_self y).symm]
      · intro z
        rcases Bool.eq_or_eq_not z y with rfl | rfl
        · simpa only [Function.update_of_ne (Bool.not_ne_self z).symm] using hpulsed
        · simp only [Function.update_self]
          omega
      · intro z
        rcases Bool.eq_or_eq_not z y with rfl | rfl
        · simpa only [Function.update_of_ne (Bool.not_ne_self z).symm] using hprompt
        · simp only [Function.update_self]
          omega
  | both y load load' hflying hpulsed hprompt hnear =>
    have htimely := hp.timely_both hflying x
    omega
  | crossed y load hflying hpulsed hrest hprompt hnear =>
    have htimely := hp.timely ⟨y, s.pulsed (!y), true, load⟩ (by simp [hflying]) rfl
    simp only at htimely
    rcases Bool.eq_or_eq_not x y with rfl | rfl <;> omega

theorem Turn.hear (hp : Paced T start s) (h : Turn T s) (m : Pulse Bool κ) (hm : m ∈ s.inFlight)
    (hready : s.heard m.dst < s.pulsed m.dst) :
    Turn T { s with
      heard := Function.update s.heard m.dst (max (s.heard m.dst) s.now)
      inFlight := s.inFlight.erase m } := by
  have hpast := hp.heard m.dst
  have hnow : max (s.heard m.dst) s.now = s.now := by omega
  rw [hnow]
  cases h with
  | resting hflying => simp [hflying] at hm
  | one x load hflying hpulsed hrest =>
    obtain rfl : m = ⟨!x, s.pulsed x, true, load⟩ := by simpa [hflying] using hm
    simp only at hready
    omega
  | both x load load' hflying hpulsed hprompt hnear =>
    obtain ⟨y, sent, left, rfl, hleft⟩ : ∃ y sent left, m = ⟨y, s.pulsed (!y), true, sent⟩ ∧
        s.inFlight.erase m = [⟨!y, s.pulsed y, true, left⟩] := by
      rw [hflying, List.mem_cons, List.mem_singleton] at hm
      rcases hm with rfl | rfl
      · exact ⟨x, load, load', rfl, by rw [hflying, List.erase_cons_head]⟩
      · refine ⟨!x, load', load, by rw [Bool.not_not], ?_⟩
        rw [hflying, List.erase_cons_tail (by simp), List.erase_cons_head, Bool.not_not]
    have htimely := hp.timely _ hm rfl
    have hother := hprompt y
    have hclose := hnear y
    have hother' := hpulsed (!y)
    have hpast := hp.pulsed y
    have hpast' := hp.pulsed (!y)
    simp only at htimely
    refine .crossed (!y) left ?_ ?_ ?_ ?_ ?_
    · simp only [hleft, Bool.not_not]
    · simpa only [Function.update_of_ne (Bool.not_ne_self y)] using hother'
    · simp only [Bool.not_not, Function.update_self]
      exact hpast
    · simp only [Bool.not_not, Function.update_of_ne (Bool.not_ne_self y)]
      omega
    · simp only [Bool.not_not, Function.update_self]
      omega
  | crossed x load hflying hpulsed hrest hprompt hnear =>
    obtain rfl : m = ⟨x, s.pulsed (!x), true, load⟩ := by simpa [hflying] using hm
    have htimely := hp.timely _ hm rfl
    have hpast := hp.pulsed x
    simp only at htimely
    refine .resting ?_ ?_ ?_
    · simp only [hflying, List.erase_cons_head]
    · intro y
      rcases Bool.eq_or_eq_not y x with rfl | rfl
      · simp only [Function.update_self]
        exact hpast
      · simp only [Function.update_of_ne (Bool.not_ne_self x)]
        exact hrest
    · intro y
      rcases Bool.eq_or_eq_not y x with rfl | rfl
      · simp only [Function.update_self, Function.update_of_ne (Bool.not_ne_self y)]
        omega
      · simp only [Bool.not_not, Function.update_self, Function.update_of_ne (Bool.not_ne_self x)]
        omega

theorem Turn.step (hT : T.Sound) (hp : Paced T start s) (h : Turn T s)
    (hstep : Step T (fun x => !x) (fun _ => False) s s') : Turn T s' := by
  have hnone : ∀ {extra : List (Pulse Bool κ)}, s.Sends (fun _ => False) extra → extra = [] := by
    intro extra hextra
    exact List.eq_nil_iff_forall_not_mem.mpr (fun m hm => (hextra m hm).1)
  cases hstep with
  | wait t hlater hticks hflights => exact h.congr rfl rfl rfl
  | rest x extra hextra htick hdue =>
    obtain rfl := hnone hextra
    exact h.congr rfl rfl rfl
  | pulse x load extra hextra htick hdue =>
    obtain rfl := hnone hextra
    exact h.pulse hT hp x load hdue
  | hear m hm hready => exact h.hear hp m hm hready

/-- Two nodes hear each other once in a round and two delays. -/
theorem pair_silence_le (hT : T.Sound) (h₀ : Start T start s₀)
    (h : Reach T (fun x => !x) (fun _ => False) s₀ s) (x : Bool) :
    s.now - s.heard x ≤ T.after + T.period + 2 * T.delay := by
  have hboth : Paced T start s ∧ Turn T s := by
    induction h with
    | refl =>
      refine ⟨h₀.paced hT, .resting h₀.inFlight ?_ ?_⟩
      · intro y
        have hheard := h₀.heard y
        have hpulsed := h₀.pulsed y
        omega
      · intro y
        have hheard := h₀.heard y
        have hother := h₀.heard (!y)
        have hdelay := hT.delay
        omega
    | tail _ hstep ih => exact ⟨ih.1.step hT hstep, ih.2.step hT ih.1 hstep⟩
  obtain ⟨hp, hturn⟩ := hboth
  have hperiod := hT.period
  have hdelay := hT.delay
  have hquick := hT.quick
  have hticks := hp.ticks x
  have harmed := hp.armed x
  cases hturn with
  | resting hflying hrest hnear =>
    have hquiet := hrest x
    omega
  | one y load hflying hpulsed hrest hprompt hnear =>
    have htimely := hp.timely ⟨!y, s.pulsed y, true, load⟩ (by simp [hflying]) rfl
    simp only at htimely
    rcases Bool.eq_or_eq_not x y with rfl | rfl <;> omega
  | both y load load' hflying hpulsed hprompt hnear =>
    have hmine := hprompt x
    have htimely := hp.timely_both hflying x
    omega
  | crossed y load hflying hpulsed hrest hprompt hnear =>
    have htimely := hp.timely ⟨y, s.pulsed (!y), true, load⟩ (by simp [hflying]) rfl
    simp only at htimely
    rcases Bool.eq_or_eq_not x y with rfl | rfl <;> omega

end Pair

end Pulses
