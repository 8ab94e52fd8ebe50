import Mathlib.Tactic

/-! Runs of a machine that answers each input with an output. The environment may be
bound to a discipline on the inputs, and a run may be restricted to steps that meet a
condition on the state before the step and the input. -/

structure Machine (σ ι ο : Type) where
  init : σ
  step : σ → ι → σ × ο
  /-- What the environment may do next, given everything that happened so far. -/
  admits : List (ι × ο) → ι → Prop

namespace Machine

variable {σ ι ο : Type} (m : Machine σ ι ο)

/-- The trace holds the latest step first. -/
inductive Run (C : σ → ι → Prop) : List (ι × ο) → σ → Prop
  | start : Run C [] m.init
  | step {tr : List (ι × ο)} {s : σ} (i : ι) :
      Run C tr s → m.admits tr i → C s i → Run C ((i, (m.step s i).2) :: tr) (m.step s i).1

abbrev Reach : List (ι × ο) → σ → Prop := m.Run (fun _ _ => True)

def exec : List (ι × ο) → σ → List ι → List (ι × ο) × σ
  | tr, s, [] => (tr, s)
  | tr, s, i :: is => exec ((i, (m.step s i).2) :: tr) (m.step s i).1 is

def Admissible (C : σ → ι → Prop) : List (ι × ο) → σ → List ι → Prop
  | _, _, [] => True
  | tr, s, i :: is =>
    m.admits tr i ∧ C s i ∧ Admissible C ((i, (m.step s i).2) :: tr) (m.step s i).1 is

instance decidableAdmissible (C : σ → ι → Prop) [∀ tr i, Decidable (m.admits tr i)]
    [∀ s i, Decidable (C s i)] : ∀ tr s is, Decidable (m.Admissible C tr s is)
  | _, _, [] => .isTrue trivial
  | tr, s, i :: is =>
    have := decidableAdmissible C ((i, (m.step s i).2) :: tr) (m.step s i).1 is
    inferInstanceAs (Decidable (m.admits tr i ∧ C s i ∧
      m.Admissible C ((i, (m.step s i).2) :: tr) (m.step s i).1 is))

variable {m}

variable {C : σ → ι → Prop} {tr : List (ι × ο)} {s : σ}

theorem Run.exec {is : List ι} (h : m.Run C tr s) (ha : m.Admissible C tr s is) :
    m.Run C (m.exec tr s is).1 (m.exec tr s is).2 := by
  induction is generalizing tr s with
  | nil => exact h
  | cons i is ih => exact ih (.step i h ha.1 ha.2.1) ha.2.2

theorem Admissible.with_inputs {D : ι → Prop} {is : List ι} (h : m.Admissible C tr s is)
    (hd : ∀ i ∈ is, D i) : m.Admissible (fun s i => D i ∧ C s i) tr s is := by
  induction is generalizing tr s with
  | nil => trivial
  | cons i is ih =>
    have hrest : ∀ j ∈ is, D j := fun j hj => hd j (List.mem_cons_of_mem i hj)
    exact ⟨h.1, ⟨hd i List.mem_cons_self, h.2.1⟩, ih h.2.2 hrest⟩

theorem Admissible.of_free (hfree : ∀ tr i, m.admits tr i) (tr : List (ι × ο)) (s : σ)
    (is : List ι) : m.Admissible (fun _ _ => True) tr s is := by
  induction is generalizing tr s with
  | nil => trivial
  | cons i is ih => exact ⟨hfree tr i, trivial, ih _ _⟩

theorem mem_exec {is : List ι} {x : ι × ο} (h : x ∈ (m.exec tr s is).1) : x ∈ tr ∨ x.1 ∈ is := by
  induction is generalizing tr s with
  | nil => exact .inl h
  | cons i is ih =>
    rcases ih h with h | h
    · rcases List.mem_cons.mp h with rfl | h
      · exact .inr List.mem_cons_self
      · exact .inl h
    · exact .inr (List.mem_cons_of_mem i h)

theorem Run.invariant {I : List (ι × ο) → σ → Prop} (h0 : I [] m.init)
    (hs : ∀ tr s i, m.Run C tr s → I tr s → m.admits tr i → C s i →
      I ((i, (m.step s i).2) :: tr) (m.step s i).1) (h : m.Run C tr s) : I tr s := by
  induction h with
  | start => exact h0
  | step i hr ha hc ih => exact hs _ _ i hr ih ha hc

theorem Run.mono {D : σ → ι → Prop} (hcd : ∀ s i, C s i → D s i) (h : m.Run C tr s) :
    m.Run D tr s := by
  induction h with
  | start => exact .start
  | step i _ ha hc ih => exact .step i ih ha (hcd _ _ hc)

theorem Run.of_cons {i : ι} {o : ο} (h : m.Run C ((i, o) :: tr) s) :
    ∃ s₀, m.Run C tr s₀ ∧ C s₀ i ∧ o = (m.step s₀ i).2 ∧ s = (m.step s₀ i).1 := by
  generalize htr : (i, o) :: tr = tr' at h
  cases h with
  | start => cases htr
  | @step _ s₀ j hrun _ hc =>
    obtain ⟨hx, rfl⟩ := List.cons.inj htr
    obtain ⟨rfl, rfl⟩ := Prod.mk.inj hx
    exact ⟨s₀, hrun, hc, rfl, rfl⟩

variable (m) in
/-- Earlier in the run with trace `tr` the machine took input `i` in state `s₀`, and every input
since is live. -/
def Since (C : σ → ι → Prop) (live : ι → Prop) (tr : List (ι × ο)) (s₀ : σ) (i : ι) : Prop :=
  ∃ later tr₀, tr = later ++ (i, (m.step s₀ i).2) :: tr₀ ∧ m.Run C tr₀ s₀ ∧ C s₀ i ∧
    ∀ x ∈ later, live x.1

theorem Since.now {live : ι → Prop} {i : ι} (h : m.Run C tr s) (hc : C s i) :
    m.Since C live ((i, (m.step s i).2) :: tr) s i :=
  ⟨[], tr, rfl, h, hc, by simp⟩

theorem Since.cons {live : ι → Prop} {s₀ : σ} {i : ι} (h : m.Since C live tr s₀ i) {x : ι × ο}
    (hx : live x.1) : m.Since C live (x :: tr) s₀ i := by
  obtain ⟨later, tr₀, rfl, hr, hc, hlater⟩ := h
  refine ⟨x :: later, tr₀, rfl, hr, hc, ?_⟩
  intro y hy
  rcases List.mem_cons.mp hy with rfl | hy
  · exact hx
  · exact hlater y hy

theorem Since.exec {live : ι → Prop} {s₀ : σ} {i : ι} {is : List ι} (h : m.Since C live tr s₀ i)
    (hlive : ∀ j ∈ is, live j) : m.Since C live (m.exec tr s is).1 s₀ i := by
  induction is generalizing tr s with
  | nil => exact h
  | cons j is ih =>
    exact ih (h.cons (hlive j List.mem_cons_self)) (fun k hk => hlive k (List.mem_cons_of_mem j hk))

/-- A log that live inputs only append to and the others empty: every entry was put at its place
by a step of the run, with live inputs only since. -/
theorem Run.since_of_log {ε : Type} (log : σ → List ε) {live : ι → Prop} (h0 : log m.init = [])
    (happend : ∀ {tr s i}, m.Run C tr s → m.admits tr i → live i →
      List.IsPrefix (log s) (log (m.step s i).1))
    (hempty : ∀ s i, ¬ live i → log (m.step s i).1 = []) (h : m.Run C tr s) {k : Nat} {e : ε}
    (hk : (log s)[k]? = some e) :
    ∃ s₀ i, m.Since C live tr s₀ i ∧ (log s₀).length ≤ k ∧ (log (m.step s₀ i).1)[k]? = some e := by
  induction h with
  | start => simp [h0] at hk
  | @step tr s i hr ha hc ih =>
    by_cases hlive : live i
    · by_cases hold : k < (log s).length
      · obtain ⟨new, hnew⟩ := happend hr ha hlive
        have hk' : (log s)[k]? = some e := by
          rw [← hnew, List.getElem?_append_left hold] at hk
          exact hk
        obtain ⟨s₀, i₀, hs, hpos⟩ := ih hk'
        exact ⟨s₀, i₀, hs.cons hlive, hpos⟩
      · exact ⟨s, i, .now hr hc, Nat.le_of_not_lt hold, hk⟩
    · rw [hempty s i hlive] at hk
      simp at hk

theorem Run.reach (h : m.Run C tr s) : m.Reach tr s :=
  h.mono (fun _ _ _ => trivial)

def kept {κ : Type} (keep : ι → Option κ) (tr : List (ι × ο)) : List κ :=
  (tr.map Prod.fst).reverse.filterMap keep

theorem exec_append (tr : List (ι × ο)) (s : σ) (is js : List ι) :
    m.exec tr s (is ++ js) = m.exec (m.exec tr s is).1 (m.exec tr s is).2 js := by
  induction is generalizing tr s with
  | nil => rfl
  | cons i is ih => exact ih _ _

theorem Run.exec_kept {κ ο' : Type} {m' : Machine σ κ ο'} {keep : ι → Option κ}
    (hinit : m'.init = m.init) (hkeep : ∀ s i k, keep i = some k → (m'.step s k).1 = (m.step s i).1)
    (hdrop : ∀ s i, C s i → keep i = none → (m.step s i).1 = s) (h : m.Run C tr s) :
    (m'.exec [] m'.init (kept keep tr)).2 = s := by
  induction h with
  | start => exact hinit
  | @step tr s i hr ha hc ih =>
    cases hi : keep i with
    | none =>
      have hsame : kept keep ((i, (m.step s i).2) :: tr) = kept keep tr := by simp [kept, hi]
      rw [hsame, ih, hdrop s i hc hi]
    | some k =>
      have hlast : kept keep ((i, (m.step s i).2) :: tr) = kept keep tr ++ [k] := by
        simp [kept, hi]
      rw [hlast, exec_append, ← hkeep s i k hi, ← ih]
      rfl

variable (m) in
def observed {ε : Type} (see : σ → ι → List ε) : Machine (σ × List ε) ι ο where
  init := (m.init, [])
  step x i := (((m.step x.1 i).1, x.2 ++ see x.1 i), (m.step x.1 i).2)
  admits := m.admits

theorem Run.unobserved {ε : Type} {see : σ → ι → List ε} {C : σ × List ε → ι → Prop}
    {x : σ × List ε} (h : (m.observed see).Run C tr x) : m.Reach tr x.1 := by
  induction h with
  | start => exact .start
  | step i _ ha _ ih => exact .step i ih ha trivial

theorem Run.observe {ε : Type} (see : σ → ι → List ε) (h : m.Reach tr s) :
    ∃ log, (m.observed see).Reach tr (s, log) := by
  induction h with
  | start => exact ⟨[], .start⟩
  | @step tr s i _ ha _ ih =>
    obtain ⟨log, hlog⟩ := ih
    exact ⟨log ++ see s i, .step i hlog ha trivial⟩

end Machine
