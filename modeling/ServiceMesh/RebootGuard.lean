import ServiceMesh.Machine

/-! The guard before a reboot of the host. It keeps the times of the reboots it allowed in a file,
which is all that is left of them after a restart. -/

namespace ServiceMesh

class HistoryJson where
  toText : List Nat → List Char
  fromText : List Char → Option (List Nat)
  fromText_toText : ∀ reboots, fromText (toText reboots) = some reboots

def maxPerWindow : Nat := 3

def windowSecs : Nat := 3600

/-- How a write went: `reached` is how many characters of the text got into the file, nothing if
the file could not even be opened. The process may die over it. -/
structure Write where
  reached : Option Nat
  survived : Bool
deriving DecidableEq, Repr

def Write.leaves (w : Write) (file : Option (List Char)) (text : List Char) :
    Option (List Char) :=
  w.reached.elim file (fun n => some (text.take n))

structure RebootGuard where
  file : Option (List Char)
deriving DecidableEq

inductive RebootVerdict
  | reboots
  | parked
  | died
deriving DecidableEq, Repr

namespace RebootGuard

variable [HistoryJson]

def load (g : RebootGuard) : List Nat := (g.file.bind HistoryJson.fromText).getD []

def save (g : RebootGuard) (reboots : List Nat) (w : Write) : RebootGuard :=
  ⟨w.leaves g.file (HistoryJson.toText reboots)⟩

def retained (g : RebootGuard) (now : Nat) : List Nat :=
  g.load.filter (fun t => now - windowSecs ≤ t)

def tryReboot (g : RebootGuard) (now : Nat) (w : Write) : RebootGuard × RebootVerdict :=
  if maxPerWindow ≤ (g.retained now).length then
    (g.save (g.retained now) w, if w.survived then .parked else .died)
  else (g.save (g.retained now ++ [now]) w, if w.survived then .reboots else .died)

end RebootGuard

inductive RebootOp
  | request (now : Nat) (w : Write)
  | restart
deriving DecidableEq, Repr

def RebootOp.time : RebootOp → Option Nat
  | .request now _ => some now
  | .restart => none

def rebootHost [HistoryJson] (file : Option (List Char)) :
    Machine RebootGuard RebootOp (Option RebootVerdict) where
  init := ⟨file⟩
  step g
    | .request now w => ((g.tryReboot now w).1, some (g.tryReboot now w).2)
    | .restart => (g, none)
  admits tr
    | .request now _ => ∀ x ∈ tr, ∀ t ∈ x.1.time, t ≤ now
    | .restart => True

instance [HistoryJson] (file : Option (List Char)) (tr : List (RebootOp × Option RebootVerdict))
    (op : RebootOp) : Decidable ((rebootHost file).admits tr op) :=
  match op with
  | .request now _ => inferInstanceAs (Decidable (∀ x ∈ tr, ∀ t ∈ x.1.time, t ≤ now))
  | .restart => .isTrue trivial

def rebootTimes : List (RebootOp × Option RebootVerdict) → List Nat
  | [] => []
  | (.request now _, some .reboots) :: tr => now :: rebootTimes tr
  | _ :: tr => rebootTimes tr

theorem rebootTimes_of_ne {now : Nat} {w : Write} {v : RebootVerdict} (hv : v ≠ .reboots)
    (tr : List (RebootOp × Option RebootVerdict)) :
    rebootTimes ((.request now w, some v) :: tr) = rebootTimes tr := by
  cases v with
  | reboots => exact absurd rfl hv
  | parked => rfl
  | died => rfl

def inWindow (start : Nat) (times : List Nat) : Nat :=
  times.countP (fun t => start ≤ t ∧ t ≤ start + windowSecs)

namespace RebootGuard

variable [HistoryJson] {g : RebootGuard}

/-- The write puts the whole text into the file; or it leaves the file alone, and there is no
reboot to be recorded, since the process dies or the request is parked. -/
def Records (g : RebootGuard) : RebootOp → Prop
  | .request now w =>
    (∃ n ∈ w.reached, (HistoryJson.toText
      (if maxPerWindow ≤ (g.retained now).length then g.retained now
        else g.retained now ++ [now])).length ≤ n) ∨
    w.reached = none ∧ (w.survived = false ∨ maxPerWindow ≤ (g.retained now).length)
  | .restart => True

instance (op : RebootOp) : Decidable (g.Records op) :=
  match op with
  | .request _ _ => inferInstanceAs (Decidable (_ ∨ _))
  | .restart => .isTrue trivial

theorem load_save_of_reached {reboots : List Nat} {w : Write} {n : Nat}
    (hn : n ∈ w.reached) (hlen : (HistoryJson.toText reboots).length ≤ n) :
    (g.save reboots w).load = reboots := by
  have hreached : w.reached = some n := hn
  simp [save, load, Write.leaves, hreached, List.take_of_length_le hlen, HistoryJson.fromText_toText]

theorem save_of_unreached {reboots : List Nat} {w : Write} (hn : w.reached = none) :
    g.save reboots w = g := by
  simp [save, Write.leaves, hn]

theorem countP_retained (now : Nat) {c : Nat} (hc : now - windowSecs ≤ c) :
    (g.retained now).countP (fun t => c ≤ t) = g.load.countP (fun t => c ≤ t) := by
  rw [retained, List.countP_filter]
  refine List.countP_congr ?_
  intro t _
  simp only [Bool.and_eq_true, decide_eq_true_eq]
  omega

def Covers (g : RebootGuard) (tr : List (RebootOp × Option RebootVerdict)) : Prop :=
  ∀ c, (∀ x ∈ tr, ∀ t ∈ x.1.time, t ≤ c + windowSecs) →
    (rebootTimes tr).countP (fun t => c ≤ t) ≤ g.load.countP (fun t => c ≤ t)

theorem tryReboot_cases {now : Nat} {w : Write} (hrecords : g.Records (.request now w)) :
    ((g.tryReboot now w).2 = .reboots ∧ (g.retained now).length < maxPerWindow ∧
        (g.tryReboot now w).1.load = g.retained now ++ [now]) ∨
      ((g.tryReboot now w).2 ≠ .reboots ∧
        ∀ c, now - windowSecs ≤ c →
          g.load.countP (fun t => c ≤ t) ≤ (g.tryReboot now w).1.load.countP (fun t => c ≤ t)) := by
  by_cases hparked : maxPerWindow ≤ (g.retained now).length
  · right
    rw [tryReboot, if_pos hparked]
    refine ⟨?_, ?_⟩
    · cases w.survived <;> simp
    · intro c hc
      simp only [Records, if_pos hparked] at hrecords
      rcases hrecords with ⟨n, hn, hlen⟩ | ⟨hn, -⟩
      · rw [load_save_of_reached hn hlen, countP_retained now hc]
      · rw [save_of_unreached hn]
  · have hroom := Nat.lt_of_not_le hparked
    rw [tryReboot, if_neg hparked]
    simp only [Records, if_neg hparked] at hrecords
    by_cases hlives : w.survived = true
    · left
      rcases hrecords with ⟨n, hn, hlen⟩ | ⟨-, hdead⟩
      · refine ⟨by simp [hlives], hroom, load_save_of_reached hn hlen⟩
      · simp [hlives, hparked] at hdead
    · right
      refine ⟨by simp [hlives], ?_⟩
      intro c hc
      rcases hrecords with ⟨n, hn, hlen⟩ | ⟨hn, -⟩
      · rw [load_save_of_reached hn hlen, List.countP_append, countP_retained now hc]
        omega
      · rw [save_of_unreached hn]

theorem Covers.request {tr : List (RebootOp × Option RebootVerdict)} (h : g.Covers tr) {now : Nat}
    {w : Write} (hrecords : g.Records (.request now w)) :
    (g.tryReboot now w).1.Covers ((.request now w, some (g.tryReboot now w).2) :: tr) := by
  intro c hc
  have hnow : now ≤ c + windowSecs := hc _ List.mem_cons_self now rfl
  have hold := h c (fun x hx => hc x (List.mem_cons_of_mem _ hx))
  rcases tryReboot_cases hrecords with ⟨hv, -, hload⟩ | ⟨hv, hcount⟩
  · have hkept := countP_retained (g := g) now (c := c) (by omega)
    rw [hv, hload, rebootTimes, List.countP_append, List.countP_cons, List.countP_singleton, hkept]
    omega
  · rw [rebootTimes_of_ne hv]
    exact hold.trans (hcount c (by omega))

theorem Covers.inWindow_request {tr : List (RebootOp × Option RebootVerdict)} (h : g.Covers tr)
    {now : Nat} {w : Write} (hclock : ∀ x ∈ tr, ∀ t ∈ x.1.time, t ≤ now)
    (hrecords : g.Records (.request now w)) {start : Nat}
    (hwindow : inWindow start (rebootTimes tr) ≤ maxPerWindow) :
    inWindow start (rebootTimes ((.request now w, some (g.tryReboot now w).2) :: tr)) ≤
      maxPerWindow := by
  rcases tryReboot_cases hrecords with ⟨hv, hroom, -⟩ | ⟨hv, -⟩
  · rw [hv, rebootTimes, inWindow, List.countP_cons]
    by_cases hin : start ≤ now ∧ now ≤ start + windowSecs
    · -- every earlier reboot in the window is in the history, which has room
      have hold := h start (fun x hx t ht => (hclock x hx t ht).trans hin.2)
      have hkept := countP_retained (g := g) now (c := start) (by omega)
      have hlen : (g.retained now).countP (fun t => start ≤ t) ≤ (g.retained now).length :=
        List.countP_le_length
      have hsub : (rebootTimes tr).countP (fun t => start ≤ t ∧ t ≤ start + windowSecs) ≤
          (rebootTimes tr).countP (fun t => start ≤ t) := by
        refine List.countP_mono_left ?_
        intro t _ ht
        simp only [decide_eq_true_eq] at ht ⊢
        exact ht.1
      rw [if_pos (by simpa using hin)]
      omega
    · rw [if_neg (by simpa using hin)]
      exact hwindow
  · rw [rebootTimes_of_ne hv]
    exact hwindow

end RebootGuard

/-- In a run whose writes all record what they have to, no hour has more than three reboots. -/
theorem reboots_bounded [HistoryJson] {file : Option (List Char)}
    {tr : List (RebootOp × Option RebootVerdict)} {g : RebootGuard}
    (h : (rebootHost file).Run RebootGuard.Records tr g) (start : Nat) :
    inWindow start (rebootTimes tr) ≤ maxPerWindow := by
  have hboth : g.Covers tr ∧ ∀ start, inWindow start (rebootTimes tr) ≤ maxPerWindow := by
    refine h.invariant (I := fun tr g => g.Covers tr ∧
      ∀ start, inWindow start (rebootTimes tr) ≤ maxPerWindow) ?_ ?_
    · exact ⟨fun c _ => by simp [rebootTimes], fun start => by simp [rebootTimes, inWindow]⟩
    · intro tr g op _ ih hclock hrecords
      cases op with
      | request now w =>
        exact ⟨ih.1.request hrecords,
          fun start => ih.1.inWindow_request hclock hrecords (ih.2 start)⟩
      | restart =>
        refine ⟨?_, ih.2⟩
        intro c hc
        exact ih.1 c (fun x hx => hc x (List.mem_cons_of_mem _ hx))
  exact hboth.2 start

section Example

namespace Reference

def historyText : List Nat → List Char
  | [] => [']']
  | t :: reboots => List.replicate t '|' ++ ',' :: historyText reboots

def readHistory (strokes : Nat) : List Char → Option (List Nat)
  | [']'] => if strokes = 0 then some [] else none
  | '|' :: text => readHistory (strokes + 1) text
  | ',' :: text => (readHistory 0 text).map (fun reboots => strokes :: reboots)
  | _ => none

theorem readHistory_strokes (t strokes : Nat) (text : List Char) :
    readHistory strokes (List.replicate t '|' ++ text) = readHistory (strokes + t) text := by
  induction t generalizing strokes with
  | zero => rfl
  | succ t ih =>
    rw [List.replicate_succ, List.cons_append, readHistory, ih]
    congr 1
    omega

theorem readHistory_historyText (reboots : List Nat) :
    readHistory 0 (historyText reboots) = some reboots := by
  induction reboots with
  | nil => rfl
  | cons t reboots ih =>
    rw [historyText, readHistory_strokes, readHistory, ih]
    simp

end Reference

@[reducible] def referenceHistoryJson : HistoryJson where
  toText := Reference.historyText
  fromText := Reference.readHistory 0
  fromText_toText := Reference.readHistory_historyText

attribute [local instance] referenceHistoryJson

def unwritableRun : List (RebootOp × Option RebootVerdict) × RebootGuard :=
  (rebootHost none).exec [] (rebootHost none).init
    (List.replicate 4 (.request 7 ⟨none, true⟩))

def tornRun : List (RebootOp × Option RebootVerdict) × RebootGuard :=
  (rebootHost none).exec [] (rebootHost none).init
    [.request 1 ⟨some 99, true⟩, .request 2 ⟨some 99, true⟩, .request 3 ⟨some 99, true⟩,
      .request 4 ⟨some 2, false⟩, .restart, .request 5 ⟨some 99, true⟩]

theorem unrecorded_reboots_exceed_limit :
    inWindow 0 (rebootTimes unwritableRun.1) = 4 ∧ inWindow 0 (rebootTimes tornRun.1) = 4 := by
  decide

theorem reboots_bounded_parked :
    inWindow 0 (rebootTimes ((rebootHost none).exec [] (rebootHost none).init
      [.request 1 ⟨some 99, true⟩, .restart, .request 2 ⟨none, false⟩,
        .request 2 ⟨some 99, true⟩, .request 3 ⟨some 99, true⟩, .request 4 ⟨none, true⟩]).1) ≤
      maxPerWindow := by
  have hadmissible : (rebootHost none).Admissible RebootGuard.Records [] (rebootHost none).init
      [.request 1 ⟨some 99, true⟩, .restart, .request 2 ⟨none, false⟩,
        .request 2 ⟨some 99, true⟩, .request 3 ⟨some 99, true⟩, .request 4 ⟨none, true⟩] := by
    decide
  exact reboots_bounded (Machine.Run.exec .start hadmissible) 0

end Example

end ServiceMesh
