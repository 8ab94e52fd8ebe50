import ServiceMesh.Machine

/-! Calls that share a state, one lock and a durable store. A call is a sequence of atomic
pieces and any other call may run between two of them. Saving takes two steps, one that reads
the state and one that writes what was read. -/

/-- A call over a shared state `σ`; every piece reads its surroundings `ε` anew. -/
inductive Async (ε σ α : Type)
  | done (a : α)
  | piece (effect : ε → σ → σ) (next : ε → σ → Async ε σ α)
  | lock (next : Async ε σ α)
  | unlock (next : Async ε σ α)
  | save (next : Async ε σ α)

structure Durable (σ ν : Type) where
  capture : σ → ν
  write : σ → ν → σ
  stored : σ → ν

structure Durable.Lawful {σ ν ω : Type} (d : Durable σ ν) (q : ν → ω) : Prop where
  stored_write : ∀ s v, d.stored (d.write s v) = v
  capture_write : ∀ s v, q (d.capture (d.write s v)) = q (d.capture s)

namespace Async

variable {ε σ ν α β : Type}

protected def bind : Async ε σ α → (α → Async ε σ β) → Async ε σ β
  | done a, k => k a
  | piece effect next, k => piece effect (fun e s => (next e s).bind k)
  | lock next, k => lock (next.bind k)
  | unlock next, k => unlock (next.bind k)
  | save next, k => save (next.bind k)

instance : Monad (Async ε σ) where
  pure := done
  bind := Async.bind

def isDone : Async ε σ α → Bool
  | done _ => true
  | _ => false

def act (f : ε → σ → σ × α) : Async ε σ α :=
  piece (fun e s => (f e s).1) (fun e s => done (f e s).2)

def look (f : ε → σ → α) : Async ε σ α := act (fun e s => (s, f e s))

def acquire : Async ε σ Unit := lock (done ())

def release : Async ε σ Unit := unlock (done ())

def persist : Async ε σ Unit := save (done ())

def alone (d : Durable σ ν) (e : ε) : Async ε σ α → σ → σ × α
  | done a, s => (s, a)
  | piece effect next, s => (next e s).alone d e (effect e s)
  | lock next, s => next.alone d e s
  | unlock next, s => next.alone d e s
  | save next, s => next.alone d e (d.write s (d.capture s))

section

variable (d : Durable σ ν) (e : ε) (s : σ)

@[simp] theorem alone_pure (a : α) : (pure a : Async ε σ α).alone d e s = (s, a) := rfl

@[simp] theorem alone_bind (t : Async ε σ α) (k : α → Async ε σ β) :
    (t >>= k).alone d e s = (k (t.alone d e s).2).alone d e (t.alone d e s).1 := by
  change (t.bind k).alone d e s = _
  induction t generalizing s with
  | done a => rfl
  | piece effect next ih => exact ih e s (effect e s)
  | lock next ih => exact ih s
  | unlock next ih => exact ih s
  | save next ih => exact ih (d.write s (d.capture s))

@[simp] theorem alone_look (f : ε → σ → α) : (look f).alone d e s = (s, f e s) := rfl

@[simp] theorem alone_acquire : acquire.alone d e s = (s, ()) := rfl

@[simp] theorem alone_release : release.alone d e s = (s, ()) := rfl

end

/-- The lock is taken only when free and given back only when held; `held` and `after` say
whether the call holds it before and after. -/
def Brackets (held after : Bool) : Async ε σ α → Prop
  | done _ => held = after
  | piece _ next => ∀ e s, (next e s).Brackets held after
  | lock next => held = false ∧ next.Brackets true after
  | unlock next => held = true ∧ next.Brackets false after
  | save next => next.Brackets held after

theorem brackets_pure (held : Bool) (a : α) : (pure a : Async ε σ α).Brackets held held := rfl

theorem brackets_act (held : Bool) (f : ε → σ → σ × α) : (act f).Brackets held held :=
  fun _ _ => rfl

theorem brackets_persist (held : Bool) : (persist : Async ε σ Unit).Brackets held held := rfl

theorem Brackets.bind {held inner after : Bool} {t : Async ε σ α} {k : α → Async ε σ β}
    (ht : t.Brackets held inner) (hk : ∀ a, (k a).Brackets inner after) :
    (t >>= k).Brackets held after := by
  change (t.bind k).Brackets held after
  induction t generalizing held with
  | done a =>
    obtain rfl : held = inner := ht
    exact hk a
  | piece effect next ih => exact fun e s => ih e s (ht e s)
  | lock next ih => exact ⟨ht.1, ih ht.2⟩
  | unlock next ih => exact ⟨ht.1, ih ht.2⟩
  | save next ih => exact ih ht

section

variable {ω : Type} (d : Durable σ ν) (q : ν → ω)

def Saves : Async ε σ α → Prop
  | save _ => True
  | _ => False

/-- Of what the store is to show, a piece changes something only if the call saves next, and
no piece writes the store itself. -/
def Tidy : Async ε σ α → Prop
  | done _ => True
  | piece effect next => ∀ e s,
    d.stored (effect e s) = d.stored s ∧
    (q (d.capture (effect e s)) = q (d.capture s) ∨ (next e s).Saves) ∧ (next e s).Tidy
  | lock next => next.Tidy
  | unlock next => next.Tidy
  | save next => next.Tidy

variable {d q}

theorem Saves.bind {t : Async ε σ α} (h : t.Saves) (k : α → Async ε σ β) : (t.bind k).Saves := by
  cases t with
  | save next => trivial
  | done | piece | lock | unlock => exact h.elim

theorem Tidy.bind {t : Async ε σ α} (ht : t.Tidy d q) {k : α → Async ε σ β}
    (hk : ∀ a, (k a).Tidy d q) : (t >>= k).Tidy d q := by
  change (t.bind k).Tidy d q
  induction t with
  | done a => exact hk a
  | piece effect next ih =>
    intro e s
    obtain ⟨hstored, hchange, hnext⟩ := ht e s
    exact ⟨hstored, hchange.imp_right (fun h => h.bind k), ih e s hnext⟩
  | lock next ih => exact ih ht
  | unlock next ih => exact ih ht
  | save next ih => exact ih ht

theorem tidy_act_bind {f : ε → σ → σ × α} {k : α → Async ε σ β}
    (hstored : ∀ e s, d.stored (f e s).1 = d.stored s)
    (hchange : ∀ e s, q (d.capture (f e s).1) = q (d.capture s) ∨ (k (f e s).2).Saves)
    (hk : ∀ a, (k a).Tidy d q) : (act f >>= k).Tidy d q :=
  fun e s => ⟨hstored e s, hchange e s, hk (f e s).2⟩

theorem tidy_act {f : ε → σ → σ × α} (hstored : ∀ e s, d.stored (f e s).1 = d.stored s)
    (hsame : ∀ e s, q (d.capture (f e s).1) = q (d.capture s)) : (act f).Tidy d q :=
  fun e s => ⟨hstored e s, .inl (hsame e s), trivial⟩

theorem tidy_look (f : ε → σ → α) : (look f).Tidy d q := tidy_act (fun _ _ => rfl) (fun _ _ => rfl)

end

end Async

/-- Every call started so far, at the place its handle names, and the snapshots that were read
and not yet written, with the handles of their calls, the oldest first. -/
structure Pool (ε σ ν α : Type) where
  shared : σ
  locked : Bool
  calls : List (Async ε σ α)
  saving : List (Nat × ν)

inductive Turn (κ ε : Type)
  | start (call : κ)
  | advance (handle : Nat) (env : ε)
  | land (place : Nat) (ok : Bool)

def Turn.succeeds {κ ε : Type} : Turn κ ε → Bool
  | .land _ ok => ok
  | _ => true

namespace Pool

variable {κ ε σ ν α : Type} (d : Durable σ ν)

def goOn (p : Pool ε σ ν α) (handle : Nat) (next : Async ε σ α) : Pool ε σ ν α :=
  { p with calls := p.calls.set handle next }

def advance (p : Pool ε σ ν α) (handle : Nat) (env : ε) : Pool ε σ ν α :=
  match p.calls[handle]? with
  | some (.piece effect next) =>
    { p with shared := effect env p.shared }.goOn handle (next env p.shared)
  | some (.lock next) => if p.locked then p else { p with locked := true }.goOn handle next
  | some (.unlock next) => { p with locked := false }.goOn handle next
  | some (.save _) =>
    if handle ∈ p.saving.map Prod.fst then p
    else { p with saving := p.saving ++ [(handle, d.capture p.shared)] }
  | _ => p

def resume (p : Pool ε σ ν α) (handle : Nat) : Pool ε σ ν α :=
  match p.calls[handle]? with
  | some (.save next) => p.goOn handle next
  | _ => p

def land (p : Pool ε σ ν α) (place : Nat) (ok : Bool) : Pool ε σ ν α :=
  match p.saving[place]? with
  | none => p
  | some (handle, snapshot) =>
    { p with
      shared := if ok then d.write p.shared snapshot else p.shared
      saving := p.saving.eraseIdx place }.resume handle

def step (call : κ → Async ε σ α) (p : Pool ε σ ν α) : Turn κ ε → Pool ε σ ν α
  | .start c => { p with calls := p.calls ++ [call c] }
  | .advance handle env => p.advance d handle env
  | .land place ok => p.land d place ok

def machine (call : κ → Async ε σ α) (s : σ) : Machine (Pool ε σ ν α) (Turn κ ε) Unit where
  init := ⟨s, false, [], []⟩
  step p turn := (p.step d call turn, ())
  admits _ _ := True

def Finished (p : Pool ε σ ν α) : Prop := ∀ t ∈ p.calls, t.isDone = true

instance (p : Pool ε σ ν α) : Decidable p.Finished :=
  inferInstanceAs (Decidable (∀ t ∈ p.calls, t.isDone = true))

def InOrder (_ : Pool ε σ ν α) : Turn κ ε → Prop
  | .land place ok => place = 0 ∧ ok = true
  | _ => True

instance (p : Pool ε σ ν α) : (turn : Turn κ ε) → Decidable (p.InOrder turn)
  | .land place ok => inferInstanceAs (Decidable (place = 0 ∧ ok = true))
  | .start _ | .advance _ _ => .isTrue trivial

instance (call : κ → Async ε σ α) (s : σ) (tr : List (Turn κ ε × Unit)) (turn : Turn κ ε) :
    Decidable ((machine d call s).admits tr turn) := .isTrue trivial

def newest (p : Pool ε σ ν α) : ν := (p.saving.getLast?.map Prod.snd).getD (d.stored p.shared)

structure Settling {ω : Type} (q : ν → ω) (p : Pool ε σ ν α) : Prop where
  tidy : ∀ t ∈ p.calls, t.Tidy d q
  waits : ∀ {handle}, handle ∈ p.saving.map Prod.fst → ∃ next, p.calls[handle]? = some (.save next)
  once : (p.saving.map Prod.fst).Nodup
  fresh : (∃ handle next, p.calls[handle]? = some (.save next) ∧
      handle ∉ p.saving.map Prod.fst) ∨ q (p.newest d) = q (d.capture p.shared)

variable {d} {ω : Type} {q : ν → ω}

variable {p : Pool ε σ ν α}

theorem Settling.goOn (h : p.Settling d q) {handle : Nat} {t next : Async ε σ α}
    (ht : p.calls[handle]? = some t) (hsaves : ¬ t.Saves) (hnext : next.Tidy d q) {s : σ}
    (hstored : d.stored s = d.stored p.shared)
    (hchange : q (d.capture s) = q (d.capture p.shared) ∨ next.Saves) (locked : Bool) :
    ({ p with shared := s, locked := locked }.goOn handle next).Settling d q := by
  have hother : ∀ {k : Nat} {u : Async ε σ α}, p.calls[k]? = some (.save u) → k ≠ handle := by
    rintro k u hk rfl
    obtain rfl := Option.some.inj (hk.symm.trans ht)
    exact hsaves trivial
  have hkeep : ∀ {k : Nat} {u : Async ε σ α}, p.calls[k]? = some (.save u) →
      (p.calls.set handle next)[k]? = some (.save u) := by
    intro k u hk
    rw [List.getElem?_set_ne (hother hk).symm]
    exact hk
  have hfree : handle ∉ p.saving.map Prod.fst := by
    intro hmem
    obtain ⟨u, hu⟩ := h.waits hmem
    exact hother hu rfl
  constructor
  · intro u hu
    rcases List.mem_or_eq_of_mem_set hu with hu | rfl
    · exact h.tidy u hu
    · exact hnext
  · intro k hk
    obtain ⟨u, hu⟩ := h.waits hk
    exact ⟨u, hkeep hu⟩
  · exact h.once
  · rcases h.fresh with ⟨k, u, hk, hmem⟩ | hfresh
    · exact .inl ⟨k, u, hkeep hk, hmem⟩
    · rcases hchange with hsame | hnew
      · right
        calc q ((p.saving.getLast?.map Prod.snd).getD (d.stored s))
            = q (p.newest d) := by rw [hstored]; rfl
          _ = q (d.capture p.shared) := hfresh
          _ = q (d.capture s) := hsame.symm
      · left
        cases next with
        | save u =>
          have hlt : handle < p.calls.length := (List.getElem?_eq_some_iff.mp ht).1
          exact ⟨handle, u, List.getElem?_set_self hlt, hfree⟩
        | done | piece | lock | unlock => exact hnew.elim

theorem Settling.advance (h : p.Settling d q) (handle : Nat) (env : ε) :
    (p.advance d handle env).Settling d q := by
  have htidy : ∀ t, p.calls[handle]? = some t → t.Tidy d q :=
    fun t ht => h.tidy t (List.mem_of_getElem? ht)
  unfold Pool.advance
  split
  · rename_i effect next ht
    obtain ⟨hstored, hchange, hnext⟩ := htidy _ ht env p.shared
    exact h.goOn ht not_false hnext hstored hchange p.locked
  · rename_i next ht
    have hnext : next.Tidy d q := htidy (.lock next) ht
    split
    · exact h
    · exact h.goOn ht not_false hnext rfl (.inl rfl) true
  · rename_i next ht
    have hnext : next.Tidy d q := htidy (.unlock next) ht
    exact h.goOn ht not_false hnext rfl (.inl rfl) false
  · rename_i next ht
    split
    · exact h
    · rename_i hfree
      -- what is read now is the present state, whoever else is yet to read
      refine ⟨h.tidy, ?_, ?_, .inr ?_⟩
      · intro k hk
        rw [List.map_append, List.mem_append, List.map_singleton, List.mem_singleton] at hk
        rcases hk with hk | rfl
        · exact h.waits hk
        · exact ⟨next, ht⟩
      · rw [List.map_append, List.map_singleton, List.nodup_append]
        refine ⟨h.once, List.nodup_singleton _, ?_⟩
        rintro k hk k' hk' rfl
        have heq : k = handle := List.mem_singleton.mp hk'
        exact hfree (heq ▸ hk)
      · simp [newest]
  · exact h

theorem Settling.land_oldest (hd : d.Lawful q) (h : p.Settling d q) :
    (p.land d 0 true).Settling d q := by
  cases hs : p.saving with
  | nil =>
    simp only [Pool.land, hs, List.getElem?_nil]
    exact h
  | cons x rest =>
    obtain ⟨handle, snapshot⟩ := x
    have honce := h.once
    rw [hs, List.map_cons, List.nodup_cons] at honce
    obtain ⟨next, ht⟩ : ∃ next, p.calls[handle]? = some (.save next) := h.waits (by simp [hs])
    have hland : p.land d 0 true =
        ({ p with shared := d.write p.shared snapshot, saving := rest }.goOn handle next) := by
      simp only [Pool.land, Pool.resume, hs, List.getElem?_cons_zero, ht, if_true,
        List.eraseIdx_cons_zero]
    have hkeep : ∀ {k : Nat} {u : Async ε σ α}, k ≠ handle → p.calls[k]? = some u →
        (p.calls.set handle next)[k]? = some u := by
      intro k u hne hk
      rw [List.getElem?_set_ne hne.symm]
      exact hk
    rw [hland]
    constructor
    · intro u hu
      rcases List.mem_or_eq_of_mem_set hu with hu | rfl
      · exact h.tidy u hu
      · exact h.tidy (.save u) (List.mem_of_getElem? ht)
    · intro k hk
      have hmem : k ∈ p.saving.map Prod.fst := by
        rw [hs]
        exact List.mem_cons_of_mem _ hk
      obtain ⟨u, hu⟩ := h.waits hmem
      exact ⟨u, hkeep (fun hc => honce.1 (hc ▸ hk)) hu⟩
    · exact honce.2
    · rcases h.fresh with ⟨k, u, hk, hmem⟩ | hfresh
      · rw [hs, List.map_cons, List.mem_cons, not_or] at hmem
        exact .inl ⟨k, u, hkeep hmem.1 hk, hmem.2⟩
      · right
        -- the oldest write leaves the newest snapshot the newest, on the way or in the store
        have hnewest : ((rest.getLast?.map Prod.snd).getD
            (d.stored (d.write p.shared snapshot))) = p.newest d := by
          rw [hd.stored_write, newest, hs]
          cases rest with
          | nil => rfl
          | cons y rest =>
            rw [List.getLast?_cons_cons, List.getLast?_eq_some_getLast (List.cons_ne_nil y rest)]
            rfl
        calc q ((rest.getLast?.map Prod.snd).getD (d.stored (d.write p.shared snapshot)))
            = q (p.newest d) := by rw [hnewest]
          _ = q (d.capture p.shared) := hfresh
          _ = q (d.capture (d.write p.shared snapshot)) := (hd.capture_write _ _).symm

variable {call : κ → Async ε σ α}

theorem Settling.step (hd : d.Lawful q) (hcall : ∀ c, (call c).Tidy d q) (h : p.Settling d q)
    {turn : Turn κ ε} (hturn : p.InOrder turn) : (p.step d call turn).Settling d q := by
  cases turn with
  | start c =>
    have hkeep : ∀ {k : Nat} {u : Async ε σ α}, p.calls[k]? = some u →
        (p.calls ++ [call c])[k]? = some u := by
      intro k u hk
      rw [List.getElem?_append_left (List.getElem?_eq_some_iff.mp hk).1]
      exact hk
    constructor
    · intro t ht
      rcases List.mem_append.mp ht with ht | ht
      · exact h.tidy t ht
      · rw [List.mem_singleton.mp ht]
        exact hcall c
    · intro k hk
      obtain ⟨u, hu⟩ := h.waits hk
      exact ⟨u, hkeep hu⟩
    · exact h.once
    · rcases h.fresh with ⟨k, u, hk, hmem⟩ | hfresh
      · exact .inl ⟨k, u, hkeep hk, hmem⟩
      · exact .inr hfresh
  | advance handle env => exact h.advance handle env
  | land place ok =>
    obtain ⟨rfl, rfl⟩ := hturn
    exact h.land_oldest hd

theorem Settling.stored_of_finished (h : p.Settling d q) (hf : p.Finished) :
    q (d.stored p.shared) = q (d.capture p.shared) := by
  have hnone : ∀ {k : Nat} {u : Async ε σ α}, p.calls[k]? ≠ some (.save u) := by
    intro k u hk
    exact Bool.false_ne_true (hf _ (List.mem_of_getElem? hk))
  have hsaving : p.saving = [] := by
    cases hs : p.saving with
    | nil => rfl
    | cons x rest =>
      have hmem : x.1 ∈ p.saving.map Prod.fst := by simp [hs]
      obtain ⟨u, hu⟩ := h.waits hmem
      exact absurd hu hnone
  rcases h.fresh with ⟨k, u, hk, -⟩ | hfresh
  · exact absurd hk hnone
  · simpa [newest, hsaving] using hfresh

variable {tr : List (Turn κ ε × Unit)}

/-- If every call saves what it changes and the writes land in order, then whenever all calls
have ended the store shows the present state. -/
theorem stored_of_run (hd : d.Lawful q) (hcall : ∀ c, (call c).Tidy d q) {s : σ}
    (hs : q (d.stored s) = q (d.capture s)) (h : (machine d call s).Run InOrder tr p)
    (hf : p.Finished) : q (d.stored p.shared) = q (d.capture p.shared) := by
  have hsettling : p.Settling d q := by
    refine Machine.Run.invariant (I := fun _ p => p.Settling d q) ?_ ?_ h
    · exact ⟨by simp [machine], by simp [machine], by simp [machine], .inr hs⟩
    · intro tr p turn _ hp _ hturn
      exact hp.step hd hcall hturn
  exact hsettling.stored_of_finished hf

theorem run_step {s₀ : σ} {p' : Pool ε σ ν α} (h : (machine d call s₀).Run InOrder tr p)
    (turn : Turn κ ε) (hturn : p.InOrder turn) (hp' : p.step d call turn = p') :
    (machine d call s₀).Run InOrder ((turn, ()) :: tr) p' := by
  subst hp'
  exact .step turn h trivial hturn

theorem run_alone {s₀ : σ} (e : ε) {t : Async ε σ α} {held after : Bool}
    (hb : t.Brackets held after) {s : σ} (calls : List (Async ε σ α)) {handle : Nat}
    (hlt : handle < calls.length)
    (h : (machine d call s₀).Run InOrder tr ⟨s, held, calls.set handle t, []⟩) :
    ∃ tr', (machine d call s₀).Run InOrder tr'
      ⟨(t.alone d e s).1, after, calls.set handle (.done (t.alone d e s).2), []⟩ := by
  have hself : ∀ u : Async ε σ α, (calls.set handle u)[handle]? = some u :=
    fun u => List.getElem?_set_self hlt
  induction t generalizing held s tr with
  | done a =>
    obtain rfl : held = after := hb
    exact ⟨tr, h⟩
  | piece effect next ih =>
    refine ih e s (hb e s) (run_step h (.advance handle e) trivial ?_)
    simp only [Pool.step, Pool.advance, hself, Pool.goOn, List.set_set]
  | lock next ih =>
    obtain ⟨rfl, hb⟩ := hb
    refine ih hb (run_step h (.advance handle e) trivial ?_)
    simp [Pool.step, Pool.advance, hself, Pool.goOn]
  | unlock next ih =>
    obtain ⟨rfl, hb⟩ := hb
    refine ih hb (run_step h (.advance handle e) trivial ?_)
    simp only [Pool.step, Pool.advance, hself, Pool.goOn, List.set_set]
  | save next ih =>
    have hread : Pool.step d call ⟨s, held, calls.set handle (.save next), []⟩
        (.advance handle e) =
        ⟨s, held, calls.set handle (.save next), [(handle, d.capture s)]⟩ := by
      simp [Pool.step, Pool.advance, hself]
    refine ih hb (run_step (run_step h (.advance handle e) trivial hread) (.land 0 true) ⟨rfl, rfl⟩ ?_)
    simp [Pool.step, Pool.land, Pool.resume, hself, Pool.goOn]

theorem run_call {s₀ s : σ} {calls : List (Async ε σ α)}
    (h : (machine d call s₀).Run InOrder tr ⟨s, false, calls, []⟩) (c : κ)
    (hb : (call c).Brackets false false) (e : ε) :
    ∃ tr', (machine d call s₀).Run InOrder tr'
      ⟨((call c).alone d e s).1, false, calls ++ [.done ((call c).alone d e s).2], []⟩ := by
  have hstart := run_step h (.start c) trivial rfl
  have hset : ∀ u, (calls ++ [call c]).set calls.length u = calls ++ [u] := by simp
  have hlt : calls.length < (calls ++ [call c]).length := by simp
  obtain ⟨tr', h'⟩ := run_alone e hb (calls ++ [call c]) hlt (by rw [hset]; exact hstart)
  rw [hset] at h'
  exact ⟨tr', h'⟩

end Pool
