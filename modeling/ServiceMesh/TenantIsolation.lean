import ServiceMesh.Policy

/-! What the validation of sources buys: a valid policy connects two tenants only through a rule
that names one of them. -/

namespace ServiceMesh

def netTag (x : String) : String := tagNetPrefix ++ x

theorem startsWith_iff {s pre : String} :
    startsWith s pre = true ↔ List.IsPrefix pre.toList s.toList := by
  simp [startsWith]

theorem startsWith_netTag (x : String) : startsWith (netTag x) tagNetPrefix = true := by
  rw [startsWith_iff, netTag, String.toList_append]
  exact List.prefix_append _ _

theorem netTag_injective : Function.Injective netTag := by
  intro x y h
  have hl := congrArg String.toList h
  simp only [netTag, String.toList_append, List.append_cancel_left_eq] at hl
  exact String.toList_inj.mp hl

theorem exists_netTag {tag : String} (h : startsWith tag tagNetPrefix = true) :
    ∃ x, tag = netTag x := by
  obtain ⟨rest, hrest⟩ := startsWith_iff.mp h
  refine ⟨String.ofList rest, String.toList_inj.mp ?_⟩
  simp [netTag, String.toList_append, hrest]

theorem startsWith_comparable {tag pre : String} (hnet : startsWith tag tagNetPrefix = true)
    (hpre : startsWith tag pre = true) :
    startsWith tagNetPrefix pre = true ∨ startsWith pre tagNetPrefix = true := by
  rw [startsWith_iff] at hnet hpre
  rcases List.prefix_or_prefix_of_prefix hpre hnet with h | h
  · exact .inl (startsWith_iff.mpr h)
  · exact .inr (startsWith_iff.mpr h)

theorem isCrossTenantGlobSource_iff {pattern : String} :
    isCrossTenantGlobSource pattern = true ↔
      ∃ x y, x ≠ y ∧ tagMatches pattern (netTag x) = true ∧ tagMatches pattern (netTag y) = true := by
  unfold isCrossTenantGlobSource tagMatches
  by_cases hstar : pattern = "*"
  · simp only [hstar, if_true, true_iff]
    exact ⟨"", "a", by decide, trivial, trivial⟩
  · simp only [hstar, if_false]
    cases hpre : stripSuffixStar pattern with
    | none =>
      simp only [beq_iff_eq, Bool.false_eq_true, false_iff]
      rintro ⟨x, y, hne, hx, hy⟩
      exact hne (netTag_injective (hx.symm.trans hy))
    | some pre =>
      simp only [Bool.or_eq_true]
      constructor
      · rintro (h | h)
        · -- the stem ends before the namespace does: every tenant matches
          have hall : ∀ x, startsWith (netTag x) pre = true := by
            intro x
            rw [startsWith_iff, netTag, String.toList_append]
            exact (startsWith_iff.mp h).trans (List.prefix_append _ _)
          exact ⟨"", "a", by decide, hall "", hall "a"⟩
        · obtain ⟨z, rfl⟩ := exists_netTag h
          have hlonger : startsWith (netTag (z ++ "a")) (netTag z) = true := by
            simp only [startsWith_iff, netTag, String.toList_append, ← List.append_assoc]
            exact List.prefix_append _ _
          have hself : startsWith (netTag z) (netTag z) = true :=
            startsWith_iff.mpr (List.prefix_refl _)
          refine ⟨z, z ++ "a", ?_, hself, hlonger⟩
          intro hz
          have hlen := congrArg (fun s => s.toList.length) hz
          simp [String.toList_append] at hlen
      · rintro ⟨x, -, -, hx, -⟩
        exact startsWith_comparable (startsWith_netTag x) hx

namespace Policy

theorem validate_eq_ok_iff {p : Policy} :
    p.validate = .ok () ↔
      ∀ rule ∈ p.acls, ∀ pattern ∈ rule.src, isCrossTenantGlobSource pattern = false := by
  have hfind : p.validate = .ok () ↔
      p.acls.findSome? (fun rule => rule.src.find? isCrossTenantGlobSource) = none := by
    unfold validate
    cases p.acls.findSome? (fun rule => rule.src.find? isCrossTenantGlobSource) with
    | none => exact iff_of_true rfl rfl
    | some pattern => simp
  simp [hfind, List.findSome?_eq_none_iff, List.find?_eq_none]

theorem literal_or_foreign_source {p : Policy} (hv : p.validate = .ok ()) {X Y : List String}
    (h : p.allowsDirected X Y = true) :
    ∃ rule ∈ p.acls, rule.isAccept = true ∧
      (∃ pattern ∈ rule.src, pattern ∈ X ∨
        ∃ tag ∈ X, tagMatches pattern tag = true ∧ startsWith tag tagNetPrefix = false) ∧
      ∃ pattern ∈ rule.dst, tagsMatchAny [pattern] Y = true := by
  obtain ⟨rule, hrule, hmatch⟩ := List.any_eq_true.mp h
  obtain ⟨hmem, haccept⟩ := List.mem_filter.mp hrule
  obtain ⟨hsrc, hdst⟩ := Bool.and_eq_true_iff.mp hmatch
  obtain ⟨pattern, hpat, hX⟩ := List.any_eq_true.mp hsrc
  obtain ⟨dst, hdmem, hY⟩ := List.any_eq_true.mp hdst
  have hvalid := validate_eq_ok_iff.mp hv rule hmem pattern hpat
  refine ⟨rule, hmem, haccept, ⟨pattern, hpat, ?_⟩, dst, hdmem, by simpa [tagsMatchAny] using hY⟩
  have hstar : pattern ≠ "*" := by
    rintro rfl
    simp [isCrossTenantGlobSource] at hvalid
  simp only [hstar, if_false] at hX
  obtain ⟨tag, htag, hm⟩ := List.any_eq_true.mp hX
  by_cases hnet : startsWith tag tagNetPrefix = true
  · -- a glob that matched a tenant would have been refused, so the pattern is the tag
    left
    unfold tagMatches at hm
    unfold isCrossTenantGlobSource at hvalid
    rw [if_neg hstar] at hm hvalid
    cases hpre : stripSuffixStar pattern with
    | none =>
      simp only [hpre, beq_iff_eq] at hm
      rw [hm]
      exact htag
    | some pre =>
      simp only [hpre] at hm hvalid
      rcases startsWith_comparable hnet hm with h | h <;> simp [h] at hvalid
  · exact .inr ⟨tag, htag, hm, by simpa using hnet⟩

end Policy

/-- Validation accepts exactly the policies none of whose sources matches two tenants; under such a
policy two tenants see each other only through a rule that names one of them. -/
theorem tenant_isolation (p : Policy) :
    (p.validate = .ok () ↔ ∀ rule ∈ p.acls, ∀ pattern ∈ rule.src,
      ¬ ∃ x y, x ≠ y ∧ tagMatches pattern (netTag x) = true ∧
        tagMatches pattern (netTag y) = true) ∧
    (p.validate = .ok () → ∀ A B, p.canSee A B = true →
      ∃ X Y, (X, Y) ∈ [(A, B), (B, A)] ∧ ∃ rule ∈ p.acls, rule.isAccept = true ∧
        (∃ pattern ∈ rule.src, pattern ∈ X ∨
          ∃ tag ∈ X, tagMatches pattern tag = true ∧ startsWith tag tagNetPrefix = false) ∧
        ∃ pattern ∈ rule.dst, tagsMatchAny [pattern] Y = true) ∧
    (p.validate = .ok () → ∀ a b, a ≠ b → p.canSee [netTag a] [netTag b] = true →
      ∃ rule ∈ p.acls, rule.isAccept = true ∧ (netTag a ∈ rule.src ∨ netTag b ∈ rule.src)) := by
  have hsee : p.validate = .ok () → ∀ A B, p.canSee A B = true →
      ∃ X Y, (X, Y) ∈ [(A, B), (B, A)] ∧ ∃ rule ∈ p.acls, rule.isAccept = true ∧
        (∃ pattern ∈ rule.src, pattern ∈ X ∨
          ∃ tag ∈ X, tagMatches pattern tag = true ∧ startsWith tag tagNetPrefix = false) ∧
        ∃ pattern ∈ rule.dst, tagsMatchAny [pattern] Y = true := by
    intro hv A B h
    rcases Bool.or_eq_true_iff.mp h with h | h
    · exact ⟨A, B, by simp, Policy.literal_or_foreign_source hv h⟩
    · exact ⟨B, A, by simp, Policy.literal_or_foreign_source hv h⟩
  refine ⟨?_, hsee, ?_⟩
  · rw [Policy.validate_eq_ok_iff]
    simp only [← isCrossTenantGlobSource_iff, Bool.not_eq_true]
  · intro hv a b _ h
    obtain ⟨X, Y, hXY, rule, hmem, haccept, ⟨pattern, hpat, hsrc⟩, -⟩ := hsee hv _ _ h
    have hX : ∀ tag ∈ X, tag = netTag a ∨ tag = netTag b := by
      intro tag htag
      simp only [List.mem_cons, Prod.mk.injEq, List.not_mem_nil, or_false] at hXY
      rcases hXY with ⟨rfl, -⟩ | ⟨rfl, -⟩
      · exact .inl (List.mem_singleton.mp htag)
      · exact .inr (List.mem_singleton.mp htag)
    rcases hsrc with hlit | ⟨tag, htag, -, hout⟩
    · refine ⟨rule, hmem, haccept, ?_⟩
      rcases hX pattern hlit with rfl | rfl
      · exact .inl hpat
      · exact .inr hpat
    · rcases hX tag htag with rfl | rfl <;> simp [startsWith_netTag] at hout

def peeringPolicy : Policy := ⟨[AclRule.accept [netTag "a"] [netTag "b"]]⟩

theorem tenant_isolation_peering :
    ∃ rule ∈ peeringPolicy.acls, rule.isAccept = true ∧
      (netTag "a" ∈ rule.src ∨ netTag "b" ∈ rule.src) :=
  (tenant_isolation peeringPolicy).2.2 (by decide) "a" "b" (by decide) (by decide)

end ServiceMesh
