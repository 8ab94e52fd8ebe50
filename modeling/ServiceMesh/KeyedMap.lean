import Mathlib.Data.List.AList

/-! Association lists with distinct keys as finite maps with an iteration order:
in-place updates, filtering, and lookups against the list of values. -/

namespace AList

variable {α β : Type}

def values (m : AList (fun _ : α => β)) : List β := m.entries.map Sigma.snd

theorem nodupKeys_map_snd {l : List (Sigma fun _ : α => β)} (h : l.NodupKeys)
    (f : (Sigma fun _ : α => β) → β) :
    (l.map (fun s => (⟨s.1, f s⟩ : Sigma fun _ : α => β))).NodupKeys := by
  simpa [List.NodupKeys, List.keys, Function.comp_def] using h

def reorder (m : AList (fun _ : α => β)) (l : List (Sigma fun _ : α => β))
    (h : l.Perm m.entries) : AList (fun _ : α => β) :=
  ⟨l, (List.perm_nodupKeys h).mpr m.nodupKeys⟩

def retain (p : α → β → Bool) (m : AList (fun _ : α => β)) : AList (fun _ : α => β) :=
  ⟨m.entries.filter (fun s => p s.1 s.2),
    m.nodupKeys.sublist List.filter_sublist⟩

variable [DecidableEq α]

def modify (a : α) (f : β → β) (m : AList (fun _ : α => β)) : AList (fun _ : α => β) :=
  ⟨m.entries.map (fun s => ⟨s.1, if s.1 = a then f s.2 else s.2⟩),
    nodupKeys_map_snd m.nodupKeys _⟩

variable {m : AList (fun _ : α => β)}

theorem lookup_eq_some_iff {a : α} {b : β} :
    m.lookup a = some b ↔ (⟨a, b⟩ : Sigma fun _ : α => β) ∈ m.entries :=
  mem_lookup_iff

theorem mem_values_iff {b : β} : b ∈ m.values ↔ ∃ a, m.lookup a = some b := by
  simp only [values, List.mem_map, lookup_eq_some_iff]
  constructor
  · rintro ⟨s, hs, rfl⟩
    exact ⟨s.1, hs⟩
  · rintro ⟨a, ha⟩
    exact ⟨_, ha, rfl⟩

theorem lookup_mem_values {a : α} {b : β} (h : m.lookup a = some b) : b ∈ m.values :=
  mem_values_iff.mpr ⟨a, h⟩

theorem lookup_insert_eq_ite (m : AList (fun _ : α => β)) (a k : α) (b : β) :
    (m.insert a b).lookup k = if k = a then some b else m.lookup k := by
  by_cases h : k = a
  · subst h
    simp
  · simp [h, lookup_insert_ne]

theorem lookup_erase_eq_ite (m : AList (fun _ : α => β)) (a k : α) :
    (m.erase a).lookup k = if k = a then none else m.lookup k := by
  by_cases h : k = a
  · subst h
    simp
  · simp [h, lookup_erase_ne]

theorem lookup_modify (m : AList (fun _ : α => β)) (a k : α) (f : β → β) :
    (m.modify a f).lookup k = if k = a then (m.lookup k).map f else m.lookup k := by
  apply Option.ext
  intro b
  rw [lookup_eq_some_iff]
  simp only [modify, List.mem_map]
  constructor
  · rintro ⟨s, hs, he⟩
    obtain ⟨rfl, hb⟩ := Sigma.mk.inj he
    have hl : m.lookup s.1 = some s.2 := lookup_eq_some_iff.mpr hs
    have hb := eq_of_heq hb
    by_cases h : s.1 = a <;> simp_all
  · intro h
    by_cases hk : k = a
    · subst hk
      rw [if_pos rfl, Option.map_eq_some_iff] at h
      obtain ⟨c, hc, rfl⟩ := h
      exact ⟨⟨k, c⟩, lookup_eq_some_iff.mp hc, by simp⟩
    · rw [if_neg hk] at h
      exact ⟨⟨k, b⟩, lookup_eq_some_iff.mp h, by simp [hk]⟩

theorem modify_modify (m : AList (fun _ : α => β)) (a : α) (f g : β → β) :
    (m.modify a f).modify a g = m.modify a (fun b => g (f b)) := by
  apply AList.ext
  simp only [modify, List.map_map]
  apply List.map_congr_left
  intro s _
  by_cases h : s.1 = a <;> simp [h]

theorem lookup_retain (p : α → β → Bool) (m : AList (fun _ : α => β)) (a : α) :
    (m.retain p).lookup a = (m.lookup a).filter (p a) := by
  refine Option.ext fun b => ?_
  rw [Option.filter_eq_some_iff, lookup_eq_some_iff, lookup_eq_some_iff]
  simp [retain]

theorem lookup_of_lookup_retain {p : α → β → Bool} {a : α} {b : β}
    (h : (m.retain p).lookup a = some b) : m.lookup a = some b := by
  rw [lookup_eq_some_iff] at h ⊢
  exact (List.mem_filter.mp h).1

theorem nodup_map_values {γ : Type} (f : β → γ)
    (h : ∀ {a a' b b'}, m.lookup a = some b → m.lookup a' = some b' → f b = f b' → a = a') :
    (m.values.map f).Nodup := by
  rw [values, List.map_map]
  refine List.Nodup.map_on ?_ m.nodupKeys.nodup
  rintro ⟨a, b⟩ hs ⟨a', b'⟩ ht heq
  have hs' : m.lookup a = some b := lookup_eq_some_iff.mpr hs
  have ht' : m.lookup a' = some b' := lookup_eq_some_iff.mpr ht
  obtain rfl : a = a' := h hs' ht' heq
  obtain rfl : b = b' := Option.some.inj (hs'.symm.trans ht')
  rfl

@[simp] theorem lookup_reorder (m : AList (fun _ : α => β)) (l : List (Sigma fun _ : α => β))
    (h : l.Perm m.entries) (k : α) : (m.reorder l h).lookup k = m.lookup k :=
  perm_lookup h

theorem mem_of_lookup {a : α} {b : β} (h : m.lookup a = some b) : a ∈ m := by
  rw [← lookup_isSome, h]
  rfl

theorem exists_lookup_of_mem {a : α} (h : a ∈ m) : ∃ b, m.lookup a = some b :=
  Option.isSome_iff_exists.mp (lookup_isSome.mpr h)

@[simp] theorem mem_modify {a k : α} {f : β → β} : k ∈ m.modify a f ↔ k ∈ m := by
  rw [← lookup_isSome, ← lookup_isSome, lookup_modify]
  split
  · rw [Option.isSome_map]
  · rfl

theorem mem_of_mem_retain {p : α → β → Bool} {a : α} (h : a ∈ m.retain p) :
    ∃ b, m.lookup a = some b ∧ p a b = true := by
  obtain ⟨b, hb⟩ := exists_lookup_of_mem h
  have hmem := List.mem_filter.mp (lookup_eq_some_iff.mp hb)
  exact ⟨b, lookup_eq_some_iff.mpr hmem.1, hmem.2⟩

@[simp] theorem mem_reorder {l : List (Sigma fun _ : α => β)} {h : l.Perm m.entries} {k : α} :
    k ∈ m.reorder l h ↔ k ∈ m := by
  rw [← lookup_isSome, ← lookup_isSome, lookup_reorder]

theorem mem_foldl_modify {keys : List α} {f : β → β} {k : α} :
    k ∈ keys.foldl (fun m a => m.modify a f) m ↔ k ∈ m := by
  induction keys generalizing m with
  | nil => rfl
  | cons a keys ih => rw [List.foldl_cons, ih, mem_modify]

@[simp] theorem modify_id (m : AList (fun _ : α => β)) (a : α) : m.modify a (fun b => b) = m := by
  apply AList.ext
  simp [modify]

theorem lookup_foldl_insert (m : AList (fun _ : α => β)) (keys : List α) (b : β) (k : α) :
    (keys.foldl (fun m a => m.insert a b) m).lookup k =
      if k ∈ keys then some b else m.lookup k := by
  induction keys generalizing m with
  | nil => simp
  | cons a keys ih =>
    rw [List.foldl_cons, ih, lookup_insert_eq_ite]
    by_cases hk : k ∈ keys
    · simp [hk]
    · by_cases ha : k = a
      · simp [ha]
      · simp [hk, ha]

theorem lookup_foldl_erase (m : AList (fun _ : α => β)) (keys : List α) (k : α) :
    (keys.foldl (fun m a => m.erase a) m).lookup k = if k ∈ keys then none else m.lookup k := by
  induction keys generalizing m with
  | nil => simp
  | cons a keys ih =>
    rw [List.foldl_cons, ih, lookup_erase_eq_ite]
    by_cases hk : k ∈ keys
    · simp [hk]
    · by_cases ha : k = a
      · simp [ha]
      · simp [hk, ha]

def absorb (f : β → β → β) (old : Option β) (b : β) : Option β :=
  some (match old with
    | some a => f a b
    | none => b)

def merge (f : β → β → β) (m : AList (fun _ : α => β)) (a : α) (b : β) : AList (fun _ : α => β) :=
  m.insert a (match m.lookup a with
    | some old => f old b
    | none => b)

theorem lookup_merge (f : β → β → β) (m : AList (fun _ : α => β)) (a k : α) (b : β) :
    (m.merge f a b).lookup k = if k = a then absorb f (m.lookup k) b else m.lookup k := by
  rw [merge, lookup_insert_eq_ite]
  by_cases h : k = a
  · subst h
    rw [if_pos rfl, if_pos rfl]
    rfl
  · rw [if_neg h, if_neg h]

theorem lookup_foldl_merge (f : β → β → β) (m : AList (fun _ : α => β)) (l : List (α × β)) (k : α) :
    (l.foldl (fun m x => m.merge f x.1 x.2) m).lookup k =
      ((l.filter (fun x => x.1 = k)).map Prod.snd).foldl (absorb f) (m.lookup k) := by
  induction l generalizing m with
  | nil => rfl
  | cons x l ih =>
    rw [List.foldl_cons, ih, lookup_merge]
    by_cases h : x.1 = k
    · simp [h]
    · simp [h, Ne.symm h]

omit [DecidableEq α] in
theorem foldl_absorb_some (f : β → β → β) (l : List β) (a : β) :
    l.foldl (absorb f) (some a) = some (l.foldl f a) := by
  induction l generalizing a with
  | nil => rfl
  | cons b l ih => exact ih (f a b)

omit [DecidableEq α] in
theorem foldl_absorb_eq_none {f : β → β → β} {l : List β} :
    l.foldl (absorb f) none = none ↔ l = [] := by
  cases l with
  | nil => simp
  | cons b l =>
    rw [List.foldl_cons, absorb, foldl_absorb_some]
    simp

def keysOf [DecidableEq β] (m : AList (fun _ : α => β)) (b : β) : List α :=
  (m.entries.filter (fun s => s.2 = b)).map Sigma.fst

theorem mem_keysOf [DecidableEq β] {a : α} {b : β} : a ∈ m.keysOf b ↔ m.lookup a = some b := by
  rw [lookup_eq_some_iff]
  simp only [keysOf, List.mem_map, List.mem_filter, decide_eq_true_eq]
  constructor
  · rintro ⟨s, ⟨hs, rfl⟩, rfl⟩
    exact hs
  · intro h
    exact ⟨_, ⟨h, rfl⟩, rfl⟩

omit [DecidableEq α] in
theorem nodup_keysOf [DecidableEq β] (m : AList (fun _ : α => β)) (b : β) : (m.keysOf b).Nodup := by
  have hsub : (m.keysOf b).Sublist m.keys := List.filter_sublist.map Sigma.fst
  exact hsub.nodup m.keys_nodup

omit [DecidableEq α] in
theorem length_entries_le {l : List α} (h : ∀ a ∈ m, a ∈ l) : m.entries.length ≤ l.length := by
  have hsub : m.keys.Subperm l := List.subperm_of_subset m.keys_nodup h
  have hlen := hsub.length_le
  rw [AList.keys, List.keys, List.length_map] at hlen
  exact hlen

end AList

theorem List.flatMap_filter_subperm {α β : Type} [DecidableEq α] {keys : List α} (h : keys.Nodup)
    (l : List (α × β)) :
    (keys.flatMap (fun a => (l.filter (fun x => x.1 = a)).map Prod.snd)).Subperm
      (l.map Prod.snd) := by
  induction keys generalizing l with
  | nil => exact List.nil_subperm
  | cons a keys ih =>
    obtain ⟨ha, hkeys⟩ := List.nodup_cons.mp h
    -- the other keys only see what the first one leaves
    have hrest : keys.flatMap (fun b => (l.filter (fun x => x.1 = b)).map Prod.snd) =
        keys.flatMap (fun b =>
          ((l.filter (fun x => !decide (x.1 = a))).filter (fun x => x.1 = b)).map Prod.snd) := by
      apply List.flatMap_congr
      intro b hb
      have hne : b ≠ a := fun hc => ha (hc ▸ hb)
      rw [List.filter_filter]
      congr 1
      apply List.filter_congr
      intro x _
      by_cases hx : x.1 = b
      · simp [hx, hne]
      · simp [hx]
    have hsplit := (List.filter_append_perm (fun x : α × β => decide (x.1 = a)) l).map Prod.snd
    rw [List.map_append] at hsplit
    rw [List.flatMap_cons, hrest]
    exact (hsplit.subperm_left).mp ((List.subperm_append_left _).mpr (ih hkeys _))
