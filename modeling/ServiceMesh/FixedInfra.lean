import ServiceMesh.RosterIntegrity

/-! Fixed-infrastructure addresses and the capability to hold them. The requested path is
gated; the allocator of the unnamed network reaches the legacy registry address on its own. -/

namespace ServiceMesh

open StdNet (Ipv6Addr SocketAddr)

def ValidatedClaims.Lists (claims : ValidatedClaims) (ula : Ipv6Addr) : Prop :=
  ∃ allowed ∈ claims.requestedUlas, Ipv6Addr.parse allowed = some ula

def Presented (amb : Ambient) (req : RegisterRequest) (bearer : Option String)
    (claims : ValidatedClaims) : Prop :=
  ∃ token, (bearer.map trim).filter (fun t => t ≠ "") = some token ∧
    validateToken (amb.authService token
      ((some (trim req.wgPublicKey)).filter (fun k => k ≠ ""))) = .ok claims ∧
    claims.valid = true

def AdmittedByCapability (tr : List (Op × Reply)) (peerId : Uuid) (ula : Ipv6Addr) : Prop :=
  ∃ amb req bearer observed r claims,
    (Op.register amb req bearer observed, Reply.register (.ok r)) ∈ tr ∧
    r.entry.peerId = peerId ∧ r.entry.ula = ula ∧ Presented amb req bearer claims ∧
    claims.Lists ula

def legacyRegistryUla : Ipv6Addr := UlaAllocator.addressFor 0 3

/-- The unnamed network's third address is allocated only to a peer whose claims list it. -/
def LegacyByCapability [Crates] (s : Mesh) (op : Op) : Prop :=
  ∀ amb req bearer observed claims pubkey, op = .register amb req bearer observed →
    s.coordinator.admission amb req bearer = .ok (claims, pubkey) →
    s.coordinator.Allocates req claims pubkey → (stampIdentity req claims).network = "" →
    s.coordinator.allocator.perNetwork defaultNetworkSlot = 2 →
    ∃ cl, claims = some cl ∧ cl.Lists legacyRegistryUla

section

variable [Crates]

theorem presented_of_admission {c : Coordinator} {amb : Ambient} {req : RegisterRequest}
    {bearer : Option String} {claims : ValidatedClaims} {pubkey : List UInt8}
    (h : c.admission amb req bearer = .ok (some claims, pubkey)) :
    Presented amb req bearer claims := by
  have hauth := (Coordinator.admission_eq_ok h).1
  unfold Coordinator.authenticate at hauth
  split at hauth
  · simp at hauth
  · split at hauth
    · simp at hauth
    · rename_i token htoken
      split at hauth
      · rename_i claims' hval
        split at hauth
        · rename_i hvalid
          obtain rfl : claims' = claims := by simpa using hauth
          exact ⟨token, htoken, hval, hvalid⟩
        · simp at hauth
      all_goals simp at hauth

omit [Crates] in
theorem lists_of_authorized {raw : String} {claims : Option ValidatedClaims} {ula : Ipv6Addr}
    (h : authorizeFixedRequestedUla (some raw) claims = .ok ())
    (hp : Ipv6Addr.parse raw = some ula) (hfix : isFixedInfraUla ula = true) :
    ∃ cl, claims = some cl ∧ cl.Lists ula := by
  simp only [authorizeFixedRequestedUla, hp, hfix, Bool.not_true, Bool.false_eq_true,
    if_false] at h
  split at h
  · rename_i hany
    cases claims with
    | none => simp at hany
    | some cl =>
      obtain ⟨allowed, hmem, hparse⟩ := List.any_eq_true.mp hany
      exact ⟨cl, rfl, allowed, hmem, by simpa using hparse⟩
  · simp at h

omit [Crates] in
theorem legacy_of_nextUla {m : RosterState} {network : String} {ula : Ipv6Addr}
    (h : m.NextUla network ula) (hfix : isFixedInfraUla ula = true) :
    network = "" ∧ m.allocator.perNetwork defaultNetworkSlot = 2 ∧ ula = legacyRegistryUla := by
  obtain ⟨allocator, idx, ha⟩ := h
  obtain ⟨hfull, hidx, rfl, -⟩ := UlaAllocator.allocateInSlot_eq_ok ha
  have hlt := UlaAllocator.lt_of_allocateInSlot_eq_ok ha
  rcases isFixedInfraUla_addressFor.mp hfix with h0 | ⟨hslot, h3⟩
  · rw [h0] at hlt
    exact absurd hlt (UInt16.not_lt_zero)
  · have hnet := networkSlot_eq_zero_iff.mp hslot
    subst hnet
    refine ⟨rfl, ?_, by rw [h3]; rfl⟩
    have h2 : m.allocator.perNetwork (networkSlot "") + 1 = 2 + 1 := by rw [← hidx, h3]; rfl
    exact (UInt16.add_left_inj 1).mp h2

theorem capability_of_attests {s : Mesh} {op : Op} {reply : Reply} {g : Grant}
    (hc : LegacyByCapability s op) (hatt : Attests s op reply g)
    (hfix : isFixedInfraUla g.ula = true) (tr : List (Op × Reply)) :
    AdmittedByCapability ((op, reply) :: tr) g.peerId g.ula := by
  obtain ⟨amb, req, bearer, observed, r, rfl, rfl, hg⟩ := hatt
  obtain ⟨claims, pubkey, hadm, hnet, halloc, -⟩ := hg.admitted
  have hcl : ∃ cl, claims = some cl ∧ cl.Lists g.ula := by
    cases hseq : g.sequential with
    | false =>
      obtain ⟨raw, hraw, hparse⟩ := hg.requested hseq
      have hauth := (Coordinator.admission_eq_ok hadm).2.1
      rw [hraw] at hauth
      exact lists_of_authorized hauth hparse hfix
    | true =>
      obtain ⟨hempty, h2, hleg⟩ := legacy_of_nextUla (hg.sequential hseq) hfix
      rw [hleg]
      exact hc amb req bearer observed claims pubkey rfl hadm (halloc hseq)
        (hnet.trans hempty) h2
  obtain ⟨cl, rfl, hlists⟩ := hcl
  exact ⟨amb, req, bearer, observed, r, cl, List.mem_cons_self, hg.peerId, hg.ula,
    presented_of_admission hadm, hlists⟩

/-- Fixed addresses are capability-only in every run that never allocates the legacy address to
a peer without the capability. -/
theorem fixed_infra_by_capability {cfg : Config} {tr : List (Op × Reply)} {s : Mesh}
    (h : (mesh cfg).Run LegacyByCapability tr s) {p : Uuid} {e : PeerEntry}
    (he : s.coordinator.roster.lookup p = some e) (hfix : isFixedInfraUla e.ula = true) :
    AdmittedByCapability tr p e.ula := by
  have hi : s.coordinator.toRosterState.Inv (fun id ula => Granted tr id ula ∧
      (isFixedInfraUla ula = true → AdmittedByCapability tr id ula)) := by
    refine rosterInv_of_run (H := fun tr id ula => Granted tr id ula ∧
      (isFixedInfraUla ula = true → AdmittedByCapability tr id ula)) (fun hg => hg.1) ?_ ?_ h
    · rintro x tr id ula ⟨⟨y, hy, hg⟩, hcap⟩
      refine ⟨⟨y, List.mem_cons_of_mem x hy, hg⟩, fun hfix => ?_⟩
      obtain ⟨amb, req, bearer, observed, r, claims, hmem, hrest⟩ := hcap hfix
      exact ⟨amb, req, bearer, observed, r, claims, List.mem_cons_of_mem x hmem, hrest⟩
    · intro tr s op g _ hc hatt
      exact ⟨⟨_, List.mem_cons_self, hatt.grants⟩,
        fun hfix => capability_of_attests hc hatt hfix tr⟩
  have hcap := (hi.seated he).granted.2 hfix
  rw [hi.keyed he] at hcap
  exact hcap

end

def guardedConfig : Config := { openConfig with validator := true }

def claimsFor (network : String) (requestedUlas : List String) : ValidatedClaims :=
  ⟨true, "node", network, [], requestedUlas, "join", 0⟩

def tokenOp (now : Nat) (nowV7 : Uuid) (claims : ValidatedClaims) (req : RegisterRequest) : Op :=
  .register { ambientAt now nowV7 with authService := fun _ _ => .response 200 "" (.ok claims) } req
    (some "token") none

def unnamedOps : List Op :=
  [tokenOp 0 1 (claimsFor "" []) (plainRequest keyOne "" none),
    tokenOp 0 2 (claimsFor "" []) (plainRequest keyTwo "" none),
    tokenOp 0 3 (claimsFor "" []) (plainRequest keyThree "" none)]

attribute [local instance] referenceCrates

theorem legacy_address_allocated_without_capability :
    ∃ tr s p e, (mesh guardedConfig).Reach tr s ∧ s.coordinator.roster.lookup p = some e ∧
      isFixedInfraUla e.ula = true ∧ ¬ AdmittedByCapability tr p e.ula := by
  have hreach : (mesh guardedConfig).Reach (traceAfter guardedConfig unnamedOps)
      (stateAfter guardedConfig unnamedOps) := reach_of_admissible (by decide +kernel)
  have he : ((stateAfter guardedConfig unnamedOps).coordinator.roster.lookup 3).map PeerEntry.ula =
      some legacyRegistryUla := by decide +kernel
  obtain ⟨e, he, hula⟩ := Option.map_eq_some_iff.mp he
  refine ⟨_, _, 3, e, hreach, he, by rw [hula]; decide, ?_⟩
  rintro ⟨amb, req, bearer, observed, r, claims, hmem, -, -, ⟨token, -, hval, -⟩, allowed, hlist, -⟩
  have hop := mem_traceAfter hmem
  have hclaims : claims = claimsFor "" [] := by
    simp only [unnamedOps, tokenOp, List.mem_cons, Op.register.injEq, List.not_mem_nil,
      or_false] at hop
    rcases hop with ⟨rfl, -⟩ | ⟨rfl, -⟩ | ⟨rfl, -⟩ <;>
      exact (Except.ok.inj hval).symm
  rw [hclaims] at hlist
  simp [claimsFor] at hlist

def forgeOps : List Op :=
  [tokenOp 0 1 (claimsFor "infra" ["fd5a:1f00:ffff::1"])
    (plainRequest keyOne "infra" (some "fd5a:1f00:ffff::1"))]

theorem fixed_infra_by_capability_forge :
    ∃ e, (stateAfter guardedConfig forgeOps).coordinator.roster.lookup 1 = some e ∧
      AdmittedByCapability (traceAfter guardedConfig forgeOps) 1 e.ula := by
  have hrun : (mesh guardedConfig).Run LegacyByCapability (traceAfter guardedConfig forgeOps)
      (stateAfter guardedConfig forgeOps) := by
    refine Machine.Run.start.exec ⟨?_, ?_, trivial⟩
    · decide
    · intro _ _ _ _ _ _ _ _ _ _ h2
      exact absurd h2 (by decide)
  have he : ((stateAfter guardedConfig forgeOps).coordinator.roster.lookup 1).map PeerEntry.ula =
      some ⟨0xfd5a, 0x1f00, 0xffff, 0, 0, 0, 0, 1⟩ := by decide
  obtain ⟨e, he, hula⟩ := Option.map_eq_some_iff.mp he
  exact ⟨e, he, fixed_infra_by_capability hrun he (by rw [hula]; decide)⟩

end ServiceMesh
