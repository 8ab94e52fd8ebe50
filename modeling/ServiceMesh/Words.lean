import Mathlib.Tactic

/-! Words joined by a separator that none of them holds. What a substring of the joined text says
about the words it runs over. -/

namespace Words

variable {α : Type} {sep : α} {p q w r : List α} {ws : List (List α)}

def joined (sep : α) (ws : List (List α)) : List α := List.intercalate [sep] ws

@[simp] theorem joined_nil : joined sep [] = [] := rfl

@[simp] theorem joined_singleton : joined sep [w] = w := by
  simp [joined, List.intercalate]

theorem joined_cons (hws : ws ≠ []) : joined sep (w :: ws) = w ++ sep :: joined sep ws := by
  obtain ⟨w', rest, rfl⟩ := List.exists_cons_of_ne_nil hws
  simp [joined, List.intercalate]

theorem starts_word_iff (hp : sep ∉ p) : p <+: w ++ sep :: r ↔ p <+: w := by
  induction p generalizing w with
  | nil => exact iff_of_true List.nil_prefix List.nil_prefix
  | cons a p ih =>
    rw [List.mem_cons, not_or] at hp
    cases w with
    | nil =>
      refine iff_of_false ?_ (by simp)
      intro hc
      exact hp.1 (List.cons_prefix_cons.mp hc).1.symm
    | cons b w => rw [List.cons_append, List.cons_prefix_cons, List.cons_prefix_cons, ih hp.2]

theorem starts_sep_iff (hp : sep ∉ p) (hw : sep ∉ w) :
    p ++ sep :: q <+: w ++ sep :: r ↔ p = w ∧ q <+: r := by
  induction p generalizing w with
  | nil =>
    cases w with
    | nil => simp [List.cons_prefix_cons]
    | cons b w =>
      rw [List.mem_cons, not_or] at hw
      refine iff_of_false ?_ (by simp)
      intro hc
      exact hw.1 (List.cons_prefix_cons.mp hc).1
  | cons a p ih =>
    rw [List.mem_cons, not_or] at hp
    cases w with
    | nil =>
      refine iff_of_false ?_ (by simp)
      intro hc
      exact hp.1 (List.cons_prefix_cons.mp hc).1.symm
    | cons b w =>
      rw [List.mem_cons, not_or] at hw
      rw [List.cons_append, List.cons_append, List.cons_prefix_cons, ih hp.2 hw.2, List.cons.injEq,
        and_assoc]

theorem starts_first_iff (hp : sep ∉ p) : p <+: joined sep (w :: ws) ↔ p <+: w := by
  by_cases hws : ws = []
  · rw [hws, joined_singleton]
  · rw [joined_cons hws, starts_word_iff hp]

theorem starts_joined_iff (hp : sep ∉ p) (hws : ∀ w ∈ ws, sep ∉ w) :
    p ++ sep :: q <+: joined sep ws ↔ ∃ back, ws = p :: back ∧ back ≠ [] ∧ q <+: joined sep back := by
  have hmem : ∀ {w : List α}, p ++ sep :: q <+: w → sep ∈ w := by
    intro w hc
    exact hc.subset (by simp)
  cases ws with
  | nil =>
    refine iff_of_false (fun hc => ?_) (by simp)
    exact absurd (hmem hc) (by simp)
  | cons w ws =>
    have hw := hws w List.mem_cons_self
    by_cases hnil : ws = []
    · subst hnil
      refine iff_of_false (fun hc => ?_) ?_
      · rw [joined_singleton] at hc
        exact hw (hmem hc)
      · rintro ⟨back, hback, hne, -⟩
        exact hne (List.cons.inj hback).2.symm
    · rw [joined_cons hnil, starts_sep_iff hp hw]
      constructor
      · rintro ⟨rfl, hq⟩
        exact ⟨ws, rfl, hnil, hq⟩
      · rintro ⟨back, hback, -, hq⟩
        obtain ⟨rfl, rfl⟩ := List.cons.inj hback
        exact ⟨rfl, hq⟩

theorem occurs_append_iff {text : List α} :
    q <:+: w ++ sep :: text ↔ (∃ x, x <:+ w ∧ q <+: x ++ sep :: text) ∨ q <:+: text := by
  induction w with
  | nil =>
    rw [List.nil_append, List.infix_cons_iff]
    constructor
    · rintro (h | h)
      · exact .inl ⟨[], List.suffix_rfl, h⟩
      · exact .inr h
    · rintro (⟨x, hx, h⟩ | h)
      · rw [List.suffix_nil.mp hx] at h
        exact .inl h
      · exact .inr h
  | cons b w ih =>
    rw [List.cons_append, List.infix_cons_iff, ih]
    constructor
    · rintro (h | ⟨x, hx, h⟩ | h)
      · exact .inl ⟨b :: w, List.suffix_rfl, h⟩
      · exact .inl ⟨x, hx.trans (List.suffix_cons b w), h⟩
      · exact .inr h
    · rintro (⟨x, hx, h⟩ | h)
      · rcases List.suffix_cons_iff.mp hx with rfl | hx
        · exact .inl h
        · exact .inr (.inl ⟨x, hx, h⟩)
      · exact .inr (.inr h)

theorem occurs_joined_iff (hp : sep ∉ p) (hws : ∀ w ∈ ws, sep ∉ w) :
    p ++ sep :: q <:+: joined sep ws ↔
      ∃ front w back, ws = front ++ w :: back ∧ back ≠ [] ∧ p <:+ w ∧ q <+: joined sep back := by
  have hmem : ∀ {text : List α}, p ++ sep :: q <:+: text → sep ∈ text := by
    intro text hc
    exact hc.subset (by simp)
  induction ws with
  | nil =>
    refine iff_of_false (fun hc => ?_) (by simp)
    exact absurd (hmem hc) (by simp)
  | cons w ws ih =>
    have hw := hws w List.mem_cons_self
    have hrest := ih (fun v hv => hws v (List.mem_cons_of_mem w hv))
    by_cases hnil : ws = []
    · subst hnil
      refine iff_of_false (fun hc => ?_) ?_
      · rw [joined_singleton] at hc
        exact hw (hmem hc)
      · rintro ⟨front, v, back, hws, hne, -⟩
        have hlen := congrArg List.length hws
        have hpos := List.length_pos_of_ne_nil hne
        simp only [List.length_append, List.length_cons, List.length_nil] at hlen
        omega
    · rw [joined_cons hnil, occurs_append_iff]
      constructor
      · rintro (⟨x, hx, hstart⟩ | hlater)
        · have hx' : sep ∉ x := fun hc => hw (hx.subset hc)
          obtain ⟨rfl, hq⟩ := (starts_sep_iff hp hx').mp hstart
          exact ⟨[], w, ws, rfl, hnil, hx, hq⟩
        · obtain ⟨front, v, back, rfl, hback⟩ := hrest.mp hlater
          exact ⟨w :: front, v, back, rfl, hback⟩
      · rintro ⟨front, v, back, hws, hne, hv, hq⟩
        cases front with
        | nil =>
          obtain ⟨rfl, rfl⟩ := List.cons.inj hws
          refine .inl ⟨p, hv, ?_⟩
          exact (starts_sep_iff hp hp).mpr ⟨rfl, hq⟩
        | cons u front =>
          obtain ⟨rfl, rfl⟩ := List.cons.inj hws
          exact .inr (hrest.mpr ⟨front, v, back, rfl, hne, hv, hq⟩)

end Words
