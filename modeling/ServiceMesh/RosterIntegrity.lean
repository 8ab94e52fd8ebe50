import ServiceMesh.Refinement

/-! The roster, its key index and the allocator agree in every reachable state. -/

namespace ServiceMesh

open StdNet (Ipv6Addr)

section

variable [Crates]

theorem inv_of_reach {cfg : Config} {tr : List (Op × Reply)} {s : Mesh}
    (h : (mesh cfg).Reach tr s) : s.coordinator.toRosterState.Inv (Granted tr) := by
  refine rosterInv_of_run (fun hg => hg) ?_ ?_ h
  · rintro x tr id ula ⟨y, hy, hg⟩
    exact ⟨y, List.mem_cons_of_mem x hy, hg⟩
  · intro tr s op g _ _ hatt
    exact ⟨_, List.mem_cons_self, hatt.grants⟩

theorem inv_of_run {cfg : Config} {C : Mesh → Op → Prop} {tr : List (Op × Reply)} {s : Mesh}
    (h : (mesh cfg).Run C tr s) : s.coordinator.toRosterState.Inv (Granted tr) :=
  inv_of_reach h.reach

/-- The key index is the inverse of the roster's keys, no address is held twice, the stored index is
the address's, and the counters are past every held host address. -/
theorem roster_integrity {cfg : Config} {tr : List (Op × Reply)} {s : Mesh}
    (h : (mesh cfg).Reach tr s) :
    (∀ k p, s.coordinator.byPubkey.lookup k = some p ↔
      ∃ e, s.coordinator.roster.lookup p = some e ∧ e.wgPublicKey = k) ∧
    (∀ p q e e', s.coordinator.roster.lookup p = some e → s.coordinator.roster.lookup q = some e' →
      e.ula = e'.ula → p = q) ∧
    (∀ p e, s.coordinator.roster.lookup p = some e → e.peerIndex = e.ula.seg3) ∧
    (∀ p e slot idx, s.coordinator.roster.lookup p = some e →
      e.ula = UlaAllocator.addressFor slot idx → idx ≤ s.coordinator.allocator.perNetwork slot) ∧
    ∀ networks p e, s.coordinator.roster.lookup p = some e →
      e.ula ∉ s.coordinator.allocator.allocateAll networks := by
  have hi := inv_of_reach h
  refine ⟨fun k p => hi.index, fun p q e e' he he' => hi.ula he he', fun p e he => (hi.seated he).index,
    ?_, fun networks p e he => not_mem_allocateAll (hi.counter he) networks⟩
  intro p e slot idx he hula
  have hle := hi.counter he
  rw [hula] at hle
  exact hle

/-- A host-slot address other than a fixed one lies in the block of the network its peer is stored
under. -/
theorem network_slot_binding {cfg : Config} {tr : List (Op × Reply)} {s : Mesh}
    (h : (mesh cfg).Reach tr s) {p : Uuid} {e : PeerEntry}
    (he : s.coordinator.roster.lookup p = some e) (hhost : e.ula.seg1 = hostUlaSlot)
    (hfix : isFixedInfraUla e.ula = false) : e.ula.seg2 = networkSlot e.network :=
  ((inv_of_reach h).seated he).slotBound hhost hfix

end

def openConfig : Config := ⟨Policy.bootstrap, false, secs 90, false⟩

def plainRequest (wgPublicKey network : String) (requestedUla : Option String) :
    RegisterRequest where
  wgPublicKey := wgPublicKey
  listenEndpoint := none
  wgListenPort := none
  displayName := "node"
  network := network
  tags := []
  hostedAppUlas := []
  kind := "peer"
  parent := none
  appUuid := none
  requestedUla := requestedUla
  softwareVersion := none
  meshVersion := none
  relayOnly := false

def keyOne : String := "AQEBAQEBAQEBAQEBAQEBAQEBAQEBAQEBAQEBAQEBAQE="
def keyTwo : String := "AgICAgICAgICAgICAgICAgICAgICAgICAgICAgICAgI="
def keyThree : String := "AwMDAwMDAwMDAwMDAwMDAwMDAwMDAwMDAwMDAwMDAwM="

def ambientAt (now : Nat) (nowV7 : Uuid) : Ambient where
  now := now
  nowUnixMicros := 0
  nowV7 := nowV7
  authService := fun _ _ => .unreachable "connection refused"
  saved := fun _ => true

def registerOp (now : Nat) (nowV7 : Uuid) (req : RegisterRequest) : Op :=
  .register (ambientAt now nowV7) req none none

def aliceOps : List Op := [registerOp 0 1 (plainRequest keyOne "alice" none)]

attribute [local instance] referenceCrates

theorem reach_aliceOps :
    (mesh openConfig).Reach (traceAfter openConfig aliceOps) (stateAfter openConfig aliceOps) :=
  reach_of_admissible (by decide)

theorem roster_integrity_alice :
    (∃ e, (stateAfter openConfig aliceOps).coordinator.roster.lookup 1 = some e ∧
      e.ula = UlaAllocator.addressFor 9879 1) ∧
    (stateAfter openConfig aliceOps).coordinator.byPubkey.lookup (List.replicate 32 1) = some 1 := by
  have he : ((stateAfter openConfig aliceOps).coordinator.roster.lookup 1).map
      (fun e => (e.ula, e.wgPublicKey)) =
      some (UlaAllocator.addressFor 9879 1, List.replicate 32 1) := by decide
  obtain ⟨e, he, hpair⟩ := Option.map_eq_some_iff.mp he
  obtain ⟨hula, hkey⟩ := Prod.mk.inj hpair
  exact ⟨⟨e, he, hula⟩, ((roster_integrity reach_aliceOps).1 _ _).mpr ⟨e, he, hkey⟩⟩

theorem network_slot_binding_alice :
    ∃ e, (stateAfter openConfig aliceOps).coordinator.roster.lookup 1 = some e ∧
      e.ula.seg2 = networkSlot e.network := by
  have he : ((stateAfter openConfig aliceOps).coordinator.roster.lookup 1).map PeerEntry.ula =
      some (UlaAllocator.addressFor 9879 1) := by decide
  obtain ⟨e, he, hula⟩ := Option.map_eq_some_iff.mp he
  refine ⟨e, he, network_slot_binding reach_aliceOps he ?_ ?_⟩
  · rw [hula]
    rfl
  · rw [hula]
    decide

end ServiceMesh
