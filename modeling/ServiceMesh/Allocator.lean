import ServiceMesh.StdNet

/-! The address plan `fd5a:1f00:<network16>:<idx>::1`: the fixed-infrastructure
predicates, the mapping of network names to blocks and the per-network allocator. -/

namespace ServiceMesh

open StdNet (Ipv6Addr)

def hostUlaSlot : UInt16 := 0x1f00

def infraUlaIdx : UInt16 := 0

def isLegacyInfraUla (a : Ipv6Addr) : Bool :=
  a.seg0 == 0xfd5a && a.seg1 == 0x1f00 && a.seg2 == 0 && a.seg3 == 3 && a.seg4 == 0 &&
    a.seg5 == 0 && a.seg6 == 0 && a.seg7 == 1

def isUniqueLocal (a : Ipv6Addr) : Bool := a.seg0 &&& 0xfe00 == 0xfc00

def isFixedInfraUla (a : Ipv6Addr) : Bool :=
  (isUniqueLocal a && a.seg1 == hostUlaSlot && a.seg3 == infraUlaIdx) || isLegacyInfraUla a

def fnv1a64 (bytes : List UInt8) : UInt64 :=
  bytes.foldl (fun hash b => (hash ^^^ b.toUInt64) * 0x100000001b3) 0xcbf29ce484222325

def fold16 (h : UInt64) : UInt16 :=
  (((h >>> 48) ^^^ (h >>> 32) ^^^ (h >>> 16) ^^^ h) &&& 0xffff).toUInt16

def defaultNetworkSlot : UInt16 := 0

def networkSlot (network : String) : UInt16 :=
  if network = "" then defaultNetworkSlot
  else
    let folded := fold16 (fnv1a64 network.toUTF8.data.toList)
    if folded = defaultNetworkSlot then 1 else folded

inductive AllocError
  | exhausted
deriving DecidableEq, Repr

def AllocError.toString : AllocError → String
  | .exhausted => "ULA index space exhausted (65535 peers per network)"

structure UlaAllocator where
  perNetwork : UInt16 → UInt16

namespace UlaAllocator

def new : UlaAllocator := ⟨fun _ => 0⟩

def addressFor (slot peerIndex : UInt16) : Ipv6Addr := ⟨0xfd5a, 0x1f00, slot, peerIndex, 0, 0, 0, 1⟩

def allocateInSlot (a : UlaAllocator) (slot : UInt16) :
    Except AllocError (UlaAllocator × UInt16 × Ipv6Addr) :=
  let current := a.perNetwork slot
  if current = 0xffff then .error .exhausted
  else
    let next := current + 1
    .ok (⟨Function.update a.perNetwork slot next⟩, next, addressFor slot next)

def allocate (a : UlaAllocator) (network : String) :
    Except AllocError (UlaAllocator × UInt16 × Ipv6Addr) :=
  a.allocateInSlot (networkSlot network)

def issued (a : UlaAllocator) (network : String) : UInt16 := a.perNetwork (networkSlot network)

def bumpSlotAtLeast (a : UlaAllocator) (slot idx : UInt16) : UlaAllocator :=
  if a.perNetwork slot < idx then ⟨Function.update a.perNetwork slot idx⟩ else a

theorem perNetwork_bumpSlotAtLeast (a : UlaAllocator) (slot idx s : UInt16) :
    (a.bumpSlotAtLeast slot idx).perNetwork s =
      if s = slot ∧ a.perNetwork slot < idx then idx else a.perNetwork s := by
  unfold bumpSlotAtLeast
  by_cases hlt : a.perNetwork slot < idx
  · by_cases hs : s = slot
    · subst hs
      simp [hlt]
    · simp [hlt, hs]
  · simp [hlt]

theorem le_bumpSlotAtLeast (a : UlaAllocator) (slot idx s : UInt16) :
    a.perNetwork s ≤ (a.bumpSlotAtLeast slot idx).perNetwork s := by
  rw [perNetwork_bumpSlotAtLeast]
  split
  · rename_i h
    rw [h.1]
    exact UInt16.le_of_lt h.2
  · exact UInt16.le_refl _

theorem le_bumpSlotAtLeast_self (a : UlaAllocator) (slot idx : UInt16) :
    idx ≤ (a.bumpSlotAtLeast slot idx).perNetwork slot := by
  rw [perNetwork_bumpSlotAtLeast]
  by_cases hlt : a.perNetwork slot < idx
  · simp [hlt]
  · simpa [hlt] using UInt16.not_lt.mp hlt

theorem bumpSlotAtLeast_of_le {a : UlaAllocator} {slot idx : UInt16}
    (h : idx ≤ a.perNetwork slot) : a.bumpSlotAtLeast slot idx = a :=
  if_neg (UInt16.not_lt.mpr h)

theorem lt_succ_of_ne_max {i : UInt16} (h : i ≠ 0xffff) : i < i + 1 := by
  have hne : i.toNat ≠ 65535 := fun hc => h (UInt16.toNat_inj.mp hc)
  have hlt := i.toNat_lt
  rw [UInt16.lt_iff_toNat_lt, UInt16.toNat_add]
  simp only [UInt16.toNat_one]
  omega

theorem allocateInSlot_eq_ok {a a' : UlaAllocator} {slot idx : UInt16} {addr : Ipv6Addr}
    (h : a.allocateInSlot slot = .ok (a', idx, addr)) :
    a.perNetwork slot ≠ 0xffff ∧ idx = a.perNetwork slot + 1 ∧ addr = addressFor slot idx ∧
      a' = a.bumpSlotAtLeast slot idx := by
  unfold allocateInSlot at h
  by_cases hfull : a.perNetwork slot = 0xffff
  · simp [hfull] at h
  · simp only [hfull, if_false, Except.ok.injEq, Prod.mk.injEq] at h
    obtain ⟨rfl, rfl, rfl⟩ := h
    refine ⟨hfull, rfl, rfl, ?_⟩
    rw [bumpSlotAtLeast, if_pos (lt_succ_of_ne_max hfull)]

theorem allocateInSlot_eq_error {a : UlaAllocator} {slot : UInt16} {e : AllocError}
    (h : a.allocateInSlot slot = .error e) : a.perNetwork slot = 0xffff := by
  unfold allocateInSlot at h
  by_contra hfull
  simp [hfull] at h

theorem allocate_of_full {a : UlaAllocator} {network : String} (h : a.issued network = 0xffff) :
    a.allocate network = .error .exhausted := by
  have hfull : a.perNetwork (networkSlot network) = 0xffff := h
  simp [allocate, allocateInSlot, hfull]

theorem lt_of_allocateInSlot_eq_ok {a a' : UlaAllocator} {slot idx : UInt16} {addr : Ipv6Addr}
    (h : a.allocateInSlot slot = .ok (a', idx, addr)) : a.perNetwork slot < idx := by
  obtain ⟨hfull, rfl, -, -⟩ := allocateInSlot_eq_ok h
  exact lt_succ_of_ne_max hfull

def allocateAll (a : UlaAllocator) : List String → List Ipv6Addr
  | [] => []
  | network :: networks =>
    match a.allocate network with
    | .error _ => a.allocateAll networks
    | .ok (a, _, ula) => ula :: a.allocateAll networks

end UlaAllocator

theorem networkSlot_eq_zero_iff {network : String} : networkSlot network = 0 ↔ network = "" := by
  constructor
  · intro h
    by_contra hne
    simp only [networkSlot, hne, if_false] at h
    by_cases hz : fold16 (fnv1a64 network.toUTF8.data.toList) = defaultNetworkSlot
    · rw [if_pos hz] at h
      exact absurd h (by decide)
    · rw [if_neg hz] at h
      exact hz h
  · rintro rfl
    rfl

@[simp] theorem isUniqueLocal_addressFor (slot idx : UInt16) :
    isUniqueLocal (UlaAllocator.addressFor slot idx) = true := by
  simp only [isUniqueLocal, UlaAllocator.addressFor]
  decide

theorem isFixedInfraUla_addressFor {slot idx : UInt16} :
    isFixedInfraUla (UlaAllocator.addressFor slot idx) = true ↔ idx = 0 ∨ (slot = 0 ∧ idx = 3) := by
  rw [isFixedInfraUla, isUniqueLocal_addressFor]
  simp [isLegacyInfraUla, UlaAllocator.addressFor, hostUlaSlot, infraUlaIdx]

theorem addressFor_ne_of_lt {a : Ipv6Addr} {slot idx : UInt16} (h : a.seg2 = slot → a.seg3 < idx) :
    a ≠ UlaAllocator.addressFor slot idx := by
  rintro rfl
  exact absurd (h rfl) (UInt16.lt_irrefl idx)

theorem not_mem_allocateAll {a : UlaAllocator} {held : Ipv6Addr}
    (h : held.seg3 ≤ a.perNetwork held.seg2) (networks : List String) :
    held ∉ a.allocateAll networks := by
  induction networks generalizing a with
  | nil => simp [UlaAllocator.allocateAll]
  | cons network networks ih =>
    rw [UlaAllocator.allocateAll]
    cases ha : a.allocate network with
    | error e => exact ih h
    | ok r =>
      obtain ⟨a', idx, ula⟩ := r
      have hlt := UlaAllocator.lt_of_allocateInSlot_eq_ok ha
      obtain ⟨-, -, rfl, rfl⟩ := UlaAllocator.allocateInSlot_eq_ok ha
      have hne : held ≠ UlaAllocator.addressFor (networkSlot network) idx := by
        apply addressFor_ne_of_lt
        intro hs
        rw [hs] at h
        exact UInt16.lt_of_le_of_lt h hlt
      have hle := UlaAllocator.le_bumpSlotAtLeast a (networkSlot network) idx held.seg2
      have hrest := ih (UInt16.le_trans h hle)
      simp [hne, hrest]

end ServiceMesh
