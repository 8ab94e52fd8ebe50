import ServiceMesh.Machine
import ServiceMesh.Policy
import ServiceMesh.StdNet

/-! The policy store as a register that is replaced by compare-and-swap on its entity tag, and why
a tag never comes back with the same content: each version has a number of its own mixed in. -/

namespace ServiceMesh

open StdNet (digitsValue digitsValue_toDigits)

theorem etagMultiplier_mul_inverse :
    (0x100000001b3 : UInt64) * 0xce965057aff6957b = 1 := by
  decide

theorem mul_etagMultiplier_inj {a b : UInt64} (h : a * 0x100000001b3 = b * 0x100000001b3) :
    a = b := by
  have hinv := congrArg (· * 0xce965057aff6957b) h
  simp only [UInt64.mul_assoc, etagMultiplier_mul_inverse, UInt64.mul_one] at hinv
  exact hinv

theorem digitsValue_zeros (n : Nat) (digits : List Char) :
    digitsValue 16 (List.replicate n '0' ++ digits) = digitsValue 16 digits := by
  induction n with
  | zero => rfl
  | succ n ih =>
    rw [← ih]
    rfl

theorem etagFor_inj {p q : Policy} {m n : UInt64} (hcontent : p.toJson = q.toJson)
    (h : etagFor p m = etagFor q n) : m = n := by
  have htext := String.append_right_inj _ |>.mp (String.append_left_inj _ |>.mp h)
  have hdigits := congrArg (digitsValue 16) (String.ofList_inj.mp htext)
  rw [digitsValue_zeros, digitsValue_zeros, digitsValue_toDigits (by omega) (by omega),
    digitsValue_toDigits (by omega) (by omega), UInt64.toNat_inj, hcontent] at hdigits
  exact mul_etagMultiplier_inj ((UInt64.xor_right_inj _).mp hdigits)

theorem PolicyStore.replace_eq_ok_iff {s s' : PolicyStore} {ifMatch : String} {p : Policy} :
    s.replace ifMatch p = .ok s' ↔ p.validate = .ok () ∧ ifMatch = s.etag ∧
      s' = ⟨p, etagFor p s.nonce, s.nonce + 1⟩ := by
  unfold PolicyStore.replace
  cases p.validate with
  | error e => simp
  | ok u =>
    by_cases hmatch : s.etag = ifMatch
    · simp [hmatch, eq_comm]
    · simp [hmatch, Ne.symm hmatch]

def policyHistory (p : Policy) :
    Machine PolicyStore (String × Policy) (Except PolicyReplaceError PolicyStore) where
  init := PolicyStore.new p
  step s call :=
    match s.replace call.1 call.2 with
    | .ok s' => (s', .ok s')
    | .error e => (s, .error e)
  admits _ _ := True

abbrev PolicyTrace := List ((String × Policy) × Except PolicyReplaceError PolicyStore)

def versions (p : Policy) : PolicyTrace → List PolicyStore
  | [] => [PolicyStore.new p]
  | (_, .ok v) :: tr => v :: versions p tr
  | (_, .error _) :: tr => versions p tr

def replaced (tr : PolicyTrace) : Nat := tr.countP (fun x => x.2.isOk)

def VersionsNumbered : List PolicyStore → Prop
  | [] => True
  | v :: older => v.etag = etagFor v.policy (UInt64.ofNat older.length) ∧ VersionsNumbered older

theorem VersionsNumbered.of_mem {l : List PolicyStore} (h : VersionsNumbered l) {v : PolicyStore} (hv : v ∈ l) :
    ∃ i < l.length, v.etag = etagFor v.policy (UInt64.ofNat i) := by
  induction l with
  | nil => cases hv
  | cons a older ih =>
    rcases List.mem_cons.mp hv with rfl | hv
    · exact ⟨older.length, Nat.lt_succ_self _, h.1⟩
    · obtain ⟨i, hi, htag⟩ := ih h.2 hv
      exact ⟨i, Nat.lt_succ_of_lt hi, htag⟩

theorem VersionsNumbered.pairwise {l : List PolicyStore} (h : VersionsNumbered l) (hlen : l.length ≤ 2 ^ 64) :
    l.Pairwise (fun a b => a.policy.toJson = b.policy.toJson → a.etag ≠ b.etag) := by
  induction l with
  | nil => exact .nil
  | cons a older ih =>
    have hlast : older.length < 2 ^ 64 := hlen
    refine List.pairwise_cons.mpr ⟨?_, ih h.2 hlast.le⟩
    intro b hb hcontent htag
    obtain ⟨i, hi, hb⟩ := h.2.of_mem hb
    have hnumber : UInt64.ofNat older.length = UInt64.ofNat i := by
      apply etagFor_inj hcontent
      rw [← h.1, ← hb]
      exact htag
    have hsame := congrArg UInt64.toNat hnumber
    rw [UInt64.toNat_ofNat_of_lt' hlast, UInt64.toNat_ofNat_of_lt' (hi.trans hlast)] at hsame
    omega

structure Minted (p : Policy) (tr : PolicyTrace) (s : PolicyStore) : Prop where
  latest : ∃ older, versions p tr = s :: older
  numbered : VersionsNumbered (versions p tr)
  nonce : s.nonce = UInt64.ofNat (versions p tr).length
  length : (versions p tr).length = replaced tr + 1

theorem policyHistory_step (p : Policy) (s : PolicyStore) (call : String × Policy) :
    (∃ e, s.replace call.1 call.2 = .error e ∧ (policyHistory p).step s call = (s, .error e)) ∨
    ∃ s', s.replace call.1 call.2 = .ok s' ∧ (policyHistory p).step s call = (s', .ok s') := by
  cases h : s.replace call.1 call.2 with
  | error e => exact .inl ⟨e, rfl, by simp only [policyHistory, h]⟩
  | ok s' => exact .inr ⟨s', rfl, by simp only [policyHistory, h]⟩

theorem minted_of_reach {p : Policy} {tr : PolicyTrace} {s : PolicyStore}
    (h : (policyHistory p).Reach tr s) : Minted p tr s := by
  have hstart : Minted p [] (policyHistory p).init := ⟨⟨[], rfl⟩, ⟨rfl, trivial⟩, rfl, rfl⟩
  refine Machine.Run.invariant hstart ?_ h
  intro tr s call _ ih _ _
  rcases policyHistory_step p s call with ⟨e, -, hstep⟩ | ⟨s', hok, hstep⟩
  · have hcount : replaced ((call, .error e) :: tr) = replaced tr :=
      List.countP_cons_of_neg (fun hok => Bool.noConfusion hok)
    rw [hstep]
    exact ⟨ih.latest, ih.numbered, ih.nonce, ih.length.trans (congrArg (· + 1) hcount.symm)⟩
  · rw [hstep]
    obtain ⟨-, -, rfl⟩ := PolicyStore.replace_eq_ok_iff.mp hok
    refine ⟨⟨_, rfl⟩, ⟨?_, ih.numbered⟩, ?_, ?_⟩
    · rw [ih.nonce]
    · simp only [versions, List.length_cons, ih.nonce, UInt64.ofNat_add]
      rfl
    · simp only [versions, List.length_cons, replaced, List.countP_cons, Except.isOk, Except.toBool,
        if_true, ih.length]

/-- A replace succeeds exactly when the policy validates and the tag is the current one, and one
that fails changes nothing. As long as fewer than `2 ^ 64` have succeeded, the tag of an older
version is refused. -/
theorem policy_compare_and_swap {p : Policy} {tr : PolicyTrace} {s : PolicyStore}
    (h : (policyHistory p).Reach tr s) :
    (∀ ifMatch q, (∃ s', ((policyHistory p).step s (ifMatch, q)).2 = .ok s') ↔
      q.validate = .ok () ∧ ifMatch = s.etag) ∧
    (∀ ifMatch q s', ((policyHistory p).step s (ifMatch, q)).2 = .ok s' →
      ((policyHistory p).step s (ifMatch, q)).1 = s' ∧ s'.policy = q) ∧
    (∀ ifMatch q e, ((policyHistory p).step s (ifMatch, q)).2 = .error e →
      ((policyHistory p).step s (ifMatch, q)).1 = s) ∧
    (replaced tr < 2 ^ 64 →
      (versions p tr).Pairwise (fun a b => a.policy.toJson = b.policy.toJson → a.etag ≠ b.etag) ∧
      ∃ older, versions p tr = s :: older ∧
        ∀ v ∈ older, v.policy.toJson = s.policy.toJson →
          ∀ q, ∃ e, ((policyHistory p).step s (v.etag, q)).2 = .error e) := by
  have hminted := minted_of_reach h
  refine ⟨?_, ?_, ?_, ?_⟩
  · intro ifMatch q
    rcases policyHistory_step p s (ifMatch, q) with ⟨e, herr, hstep⟩ | ⟨s', hok, hstep⟩
    · rw [hstep]
      constructor
      · rintro ⟨s', hs'⟩
        cases hs'
      · rintro ⟨hvalid, hmatch⟩
        have hok := PolicyStore.replace_eq_ok_iff.mpr ⟨hvalid, hmatch, rfl⟩
        cases herr.symm.trans hok
    · rw [hstep]
      obtain ⟨hvalid, hmatch, -⟩ := PolicyStore.replace_eq_ok_iff.mp hok
      exact ⟨fun _ => ⟨hvalid, hmatch⟩, fun _ => ⟨s', rfl⟩⟩
  · intro ifMatch q s' hs'
    rcases policyHistory_step p s (ifMatch, q) with ⟨e, -, hstep⟩ | ⟨s'', hok, hstep⟩
    · rw [hstep] at hs'
      cases hs'
    · rw [hstep] at hs' ⊢
      obtain rfl := Except.ok.inj hs'
      obtain ⟨-, -, rfl⟩ := PolicyStore.replace_eq_ok_iff.mp hok
      exact ⟨rfl, rfl⟩
  · intro ifMatch q e he
    rcases policyHistory_step p s (ifMatch, q) with ⟨e', -, hstep⟩ | ⟨s', -, hstep⟩
    · rw [hstep]
    · rw [hstep] at he
      cases he
  · intro hfew
    have hpairwise := hminted.numbered.pairwise (by rw [hminted.length]; exact hfew)
    refine ⟨hpairwise, ?_⟩
    obtain ⟨older, hversions⟩ := hminted.latest
    refine ⟨older, hversions, ?_⟩
    intro v hv hcontent q
    rw [hversions] at hpairwise
    have hne : s.etag ≠ v.etag := (List.pairwise_cons.mp hpairwise).1 v hv hcontent.symm
    rcases policyHistory_step p s (v.etag, q) with ⟨e, -, hstep⟩ | ⟨s', hok, -⟩
    · rw [hstep]
      exact ⟨e, rfl⟩
    · exact absurd (PolicyStore.replace_eq_ok_iff.mp hok).2.1.symm hne

section Example

def bootstrapStore : PolicyStore := PolicyStore.new Policy.bootstrap

def reinstall : PolicyTrace × PolicyStore :=
  (policyHistory Policy.bootstrap).exec [] bootstrapStore [(bootstrapStore.etag, Policy.bootstrap)]

theorem policy_compare_and_swap_reinstall :
    replaced reinstall.1 = 1 ∧ reinstall.2.policy = Policy.bootstrap ∧
      ∀ q, ∃ e, ((policyHistory Policy.bootstrap).step reinstall.2 (bootstrapStore.etag, q)).2 =
        .error e := by
  have hok : bootstrapStore.replace bootstrapStore.etag Policy.bootstrap =
      .ok ⟨Policy.bootstrap, etagFor Policy.bootstrap 1, 2⟩ :=
    PolicyStore.replace_eq_ok_iff.mpr ⟨by decide, rfl, rfl⟩
  have heq : reinstall = ([((bootstrapStore.etag, Policy.bootstrap),
      .ok ⟨Policy.bootstrap, etagFor Policy.bootstrap 1, 2⟩)],
      ⟨Policy.bootstrap, etagFor Policy.bootstrap 1, 2⟩) := by
    simp only [reinstall, Machine.exec, policyHistory, hok]
  have hreach : (policyHistory Policy.bootstrap).Reach reinstall.1 reinstall.2 :=
    Machine.Run.start.exec ⟨trivial, trivial, trivial⟩
  have hcas := policy_compare_and_swap hreach
  rw [heq] at hcas ⊢
  obtain ⟨older, hversions, hrefused⟩ := (hcas.2.2.2 (by decide)).2
  obtain rfl := (List.cons.inj hversions).2
  exact ⟨rfl, rfl, hrefused bootstrapStore (List.mem_singleton.mpr rfl) rfl⟩

end Example

end ServiceMesh
