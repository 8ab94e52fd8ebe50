import ServiceMesh.AddressSpace
import ServiceMesh.BroadcastLog

/-! When two networks are apart. A name selects its block by a hash folded to 16 bits, so two
names share a block, with its addresses and its counter, when their folds meet. -/

namespace ServiceMesh

open StdNet (Ipv6Addr SocketAddr)

def foldedHash (network : String) : UInt16 := fold16 (fnv1a64 network.toUTF8.data.toList)

/-- Two named networks whose hashes fold to the same number, where 0 is moved to 1. -/
def FoldsMeet (m n : String) : Prop :=
  m ≠ "" ∧ n ≠ "" ∧ (foldedHash m = foldedHash n ∨ foldedHash m ≤ 1 ∧ foldedHash n ≤ 1)

instance (m n : String) : Decidable (FoldsMeet m n) :=
  inferInstanceAs (Decidable (_ ∧ _ ∧ (_ ∨ _ ∧ _)))

theorem networkSlot_of_ne {network : String} (h : network ≠ "") :
    networkSlot network = if foldedHash network = 0 then 1 else foldedHash network := by
  simp only [networkSlot, h, if_false]
  rfl

theorem le_one_iff_eq {i : UInt16} : i ≤ 1 ↔ i = 0 ∨ i = 1 := by
  constructor
  · intro h
    have hle : i.toNat ≤ 1 := UInt16.le_iff_toNat_le.mp h
    have hcases : i.toNat = 0 ∨ i.toNat = 1 := by omega
    rcases hcases with h0 | h1
    · exact .inl (UInt16.toNat_inj.mp h0)
    · exact .inr (UInt16.toNat_inj.mp h1)
  · rintro (rfl | rfl)
    · decide
    · decide

theorem networkSlot_eq_iff {m n : String} (hne : m ≠ n) :
    networkSlot m = networkSlot n ↔ FoldsMeet m n := by
  by_cases hm : m = ""
  · have hn : networkSlot n ≠ 0 := by
      intro h
      exact hne (hm.trans (networkSlot_eq_zero_iff.mp h).symm)
    have hzero : networkSlot m = 0 := networkSlot_eq_zero_iff.mpr hm
    constructor
    · intro h
      exact absurd (h.symm.trans hzero) hn
    · rintro ⟨h, -⟩
      exact absurd hm h
  · by_cases hn : n = ""
    · have hzero : networkSlot n = 0 := networkSlot_eq_zero_iff.mpr hn
      constructor
      · intro h
        exact absurd (networkSlot_eq_zero_iff.mp (h.trans hzero)) hm
      · rintro ⟨-, h, -⟩
        exact absurd hn h
    · rw [networkSlot_of_ne hm, networkSlot_of_ne hn]
      unfold FoldsMeet
      rw [le_one_iff_eq, le_one_iff_eq]
      by_cases h0 : foldedHash m = 0 <;> by_cases h0' : foldedHash n = 0
      · simp [h0, h0', hm, hn]
      · rw [if_pos h0, if_neg h0']
        constructor
        · intro h
          exact ⟨hm, hn, .inr ⟨.inl h0, .inr h.symm⟩⟩
        · rintro ⟨-, -, h | ⟨-, h | h⟩⟩
          · exact absurd (h.symm.trans h0) h0'
          · exact absurd h h0'
          · exact h.symm
      · rw [if_neg h0, if_pos h0']
        constructor
        · intro h
          exact ⟨hm, hn, .inr ⟨.inr h, .inl h0'⟩⟩
        · rintro ⟨-, -, h | ⟨h | h, -⟩⟩
          · exact absurd (h.trans h0') h0
          · exact absurd h h0
          · exact h
      · rw [if_neg h0, if_neg h0']
        constructor
        · intro h
          exact ⟨hm, hn, .inl h⟩
        · rintro ⟨-, -, h | ⟨h | h, h' | h'⟩⟩
          · exact h
          · exact absurd h h0
          · exact absurd h h0
          · exact absurd h' h0'
          · exact h.trans h'.symm

def IsHostUla (a : Ipv6Addr) : Prop := a.seg1 = hostUlaSlot ∧ isFixedInfraUla a = false

section

variable [Crates]

/-- No run puts a peer of `m` and a peer of `n` into one block, and no register that seats a peer
of `n` moves the counter of `m`. -/
structure NetworksApart (m n : String) : Prop where
  slots : networkSlot m ≠ networkSlot n
  blocks : ∀ cfg tr s, (mesh cfg).Reach tr s → ∀ p q e e',
    s.coordinator.roster.lookup p = some e → s.coordinator.roster.lookup q = some e' →
    e.network = m → e'.network = n → IsHostUla e.ula → IsHostUla e'.ula → e.ula.seg2 ≠ e'.ula.seg2
  counters : ∀ cfg tr s, (mesh cfg).Reach tr s → ∀ amb req bearer observed,
    (Op.register amb req bearer observed).Fresh tr → ∀ r,
    (s.step (.register amb req bearer observed)).2 = .register (.ok r) → r.entry.network = n →
    IsHostUla r.entry.ula →
    (s.step (.register amb req bearer observed)).1.coordinator.allocator.issued m =
      s.coordinator.allocator.issued m

theorem registered_slot {cfg : Config} {tr : List (Op × Reply)} {s : Mesh}
    (h : (mesh cfg).Reach tr s) {amb : Ambient} {req : RegisterRequest} {bearer : Option String}
    {observed : Option SocketAddr} (hfresh : (Op.register amb req bearer observed).Fresh tr)
    {r : Registered} (hr : (s.step (.register amb req bearer observed)).2 = .register (.ok r))
    (hhost : IsHostUla r.entry.ula) : r.entry.ula.seg2 = networkSlot r.entry.network := by
  have hnext := inv_of_reach (reach_step h _ hfresh)
  have hstored : (s.step (.register amb req bearer observed)).1.coordinator.roster.lookup
      r.entry.peerId = some r.entry :=
    Coordinator.registerHandler_lookup amb req observed bearer (inv_of_reach h)
      (Reply.register.inj hr)
  exact (hnext.seated hstored).slotBound hhost.1 hhost.2

theorem register_keeps_counter {cfg : Config} {tr : List (Op × Reply)} {s : Mesh}
    (h : (mesh cfg).Reach tr s) {amb : Ambient} {req : RegisterRequest} {bearer : Option String}
    {observed : Option SocketAddr} (hfresh : (Op.register amb req bearer observed).Fresh tr)
    {r : Registered} (hr : (s.step (.register amb req bearer observed)).2 = .register (.ok r))
    {slot : UInt16} (hslot : r.entry.ula.seg2 ≠ slot) :
    (s.step (.register amb req bearer observed)).1.coordinator.allocator.perNetwork slot =
      s.coordinator.allocator.perNetwork slot := by
  have hi := inv_of_reach h
  have hans : (s.coordinator.registerHandler amb req bearer observed).2 = .ok r :=
    Reply.register.inj hr
  obtain ⟨gs, hs, hg, -⟩ := Coordinator.registerHandler_steps req bearer observed hi
    (hi.lookup_eq_none hfresh)
  rcases hs.counter slot with heq | ⟨-, x, hx, hxslot, -⟩
  · exact heq
  · obtain ⟨reg, hreg, hgrant⟩ := hg x hx
    obtain rfl := Except.ok.inj (hans.symm.trans hreg)
    exact absurd (hgrant.ula ▸ hxslot) hslot

end

def meetingOps : List Op :=
  [registerOp 0 1 (plainRequest keyOne "gy" none), registerOp 0 2 (plainRequest keyTwo "ks" none)]

attribute [local instance] referenceCrates

end ServiceMesh
