import ServiceMesh.RosterIntegrity

/-! Who uses up a network's indices. Admission moves the counter of an address's third hextet
whatever its prefix, so an address outside the host block can fill a network. -/

namespace ServiceMesh

open StdNet (Ipv6Addr SocketAddr)
open RosterState (Step Steps)

section

variable [Crates]

namespace RosterState

variable {m m' : RosterState} {g : Option Grant} {gs : List Grant}

theorem Step.counter (hstep : Step m g m') (slot : UInt16) :
    m'.allocator.perNetwork slot = m.allocator.perNetwork slot ∨
      m.allocator.perNetwork slot < m'.allocator.perNetwork slot ∧
        ∃ x ∈ g.toList, x.ula.seg2 = slot ∧ x.ula.seg3 = m'.allocator.perNetwork slot := by
  have bump : ∀ (ula : Ipv6Addr) (allocator : UlaAllocator),
      allocator = m.allocator.bumpSlotAtLeast ula.seg2 ula.seg3 →
      allocator.perNetwork slot = m.allocator.perNetwork slot ∨
        m.allocator.perNetwork slot < allocator.perNetwork slot ∧
          ula.seg2 = slot ∧ ula.seg3 = allocator.perNetwork slot := by
    rintro ula allocator rfl
    rw [UlaAllocator.perNetwork_bumpSlotAtLeast]
    split
    · rename_i hb
      obtain ⟨rfl, hlt⟩ := hb
      exact .inr ⟨hlt, rfl, rfl⟩
    · exact .inl rfl
  cases hstep with
  | join e sequential =>
    rcases bump e.ula (m.insertEntry e).allocator rfl with h | ⟨hlt, hs, hi⟩
    · exact .inl h
    · exact .inr ⟨hlt, _, List.mem_singleton_self _, hs, hi⟩
  | rehome id network f he ha hf =>
    obtain ⟨-, -, rfl, hal⟩ := UlaAllocator.allocateInSlot_eq_ok ha
    rcases bump (UlaAllocator.addressFor _ _) _ hal with h | ⟨hlt, hs, hi⟩
    · exact .inl h
    · exact .inr ⟨hlt, _, List.mem_singleton_self _, hs, hi⟩
  | touch => exact .inl rfl
  | reorder => exact .inl rfl
  | leave => exact .inl rfl
  | save => exact .inl rfl

theorem Steps.counter (hs : Steps m gs m') (slot : UInt16) :
    m'.allocator.perNetwork slot = m.allocator.perNetwork slot ∨
      m.allocator.perNetwork slot < m'.allocator.perNetwork slot ∧
        ∃ x ∈ gs, x.ula.seg2 = slot ∧ x.ula.seg3 = m'.allocator.perNetwork slot := by
  induction hs with
  | refl => exact .inl rfl
  | tail _ hstep ih =>
    rcases hstep.counter slot with heq | ⟨hlt, x, hx, hpos⟩
    · rw [heq]
      rcases ih with h | ⟨h, x, hx, hpos⟩
      · exact .inl h
      · exact .inr ⟨h, x, List.mem_append_left _ hx, hpos⟩
    · refine .inr ⟨?_, x, List.mem_append_right _ hx, hpos⟩
      rcases ih with h | ⟨h, -⟩
      · rw [← h]
        exact hlt
      · exact UInt16.lt_trans h hlt

theorem Step.grant_le_counter (hstep : Step m g m') :
    ∀ x ∈ g.toList, x.ula.seg3 ≤ m'.allocator.perNetwork x.ula.seg2 := by
  intro x hx
  cases hstep with
  | join e sequential =>
    obtain rfl := List.mem_singleton.mp hx
    exact UlaAllocator.le_bumpSlotAtLeast_self _ _ _
  | rehome id network f he ha hf =>
    obtain rfl := List.mem_singleton.mp hx
    obtain ⟨-, -, rfl, rfl⟩ := UlaAllocator.allocateInSlot_eq_ok ha
    exact UlaAllocator.le_bumpSlotAtLeast_self _ _ _
  | _ => simp at hx

theorem Steps.grant_le_counter (hs : Steps m gs m') :
    ∀ x ∈ gs, x.ula.seg3 ≤ m'.allocator.perNetwork x.ula.seg2 := by
  induction hs with
  | refl => simp
  | tail _ hstep ih =>
    intro x hx
    rcases List.mem_append.mp hx with hx | hx
    · rcases hstep.counter x.ula.seg2 with heq | ⟨hlt, -⟩
      · rw [heq]
        exact ih x hx
      · exact UInt16.le_trans (ih x hx) (UInt16.le_of_lt hlt)
    · exact hstep.grant_le_counter x hx

end RosterState

structure Coordinator.AsksPast (c : Coordinator) (amb : Ambient) (req : RegisterRequest)
    (bearer : Option String) (slot : UInt16) (ula : Ipv6Addr) : Prop where
  admitted : ∃ claims pubkey, c.admission amb req bearer = .ok (claims, pubkey) ∧
    c.byPubkey.lookup pubkey = none
  requested : ∃ raw, req.requestedUla = some raw ∧ Ipv6Addr.parse raw = some ula
  seg2 : ula.seg2 = slot
  past : c.allocator.perNetwork slot < ula.seg3

/-- Only host addresses of `slot` move its counter: no request past the counter asks for another
address, and a loaded snapshot has no other address past its host addresses. -/
def SpentByHosts (slot : UInt16) (s : Mesh) : Op → Prop
  | .register amb req bearer _ =>
    ∀ ula, s.coordinator.AsksPast amb req bearer slot ula →
      ula = UlaAllocator.addressFor slot ula.seg3
  | .restart _ _ file =>
    ∀ event ∈ s.coordinator.load file, ∀ ula, Ipv6Addr.parse event.ula = some ula →
      ula.seg2 = slot → ula.seg3 = 0 ∨
        ∃ host ∈ s.coordinator.load file, ∃ idx,
          Ipv6Addr.parse host.ula = some (UlaAllocator.addressFor slot idx) ∧ ula.seg3 ≤ idx
  | _ => True

variable {slot : UInt16}

theorem asksPast_of_grant {c : Coordinator} {amb : Ambient} {req : RegisterRequest}
    {bearer : Option String} {entry : PeerEntry} {g : Grant}
    (hg : RegisterGrant c amb req bearer entry g) (hslot : g.ula.seg2 = slot)
    (hpast : c.allocator.perNetwork slot < g.ula.seg3) :
    g.ula = UlaAllocator.addressFor slot g.ula.seg3 ∨ c.AsksPast amb req bearer slot g.ula := by
  obtain ⟨claims, pubkey, hadm, -, -, hnew⟩ := hg.admitted
  cases hseq : g.sequential with
  | true =>
    obtain ⟨allocator, idx, ha⟩ := hg.sequential hseq
    obtain ⟨-, -, hula, -⟩ := UlaAllocator.allocateInSlot_eq_ok ha
    rw [hula] at hslot ⊢
    left
    rw [← hslot]
    rfl
  | false => exact .inr ⟨⟨claims, pubkey, hadm, hnew hseq⟩, hg.requested hseq, hslot, hpast⟩

theorem grant_eq_of_asksPast {c : Coordinator} {amb : Ambient} {req : RegisterRequest}
    {bearer : Option String} {entry : PeerEntry} {g : Grant} {ula : Ipv6Addr}
    (hg : RegisterGrant c amb req bearer entry g) (hask : c.AsksPast amb req bearer slot ula) :
    g.ula = ula := by
  obtain ⟨claims, pubkey, hadm, hnew⟩ := hask.admitted
  obtain ⟨raw, hraw, hparse⟩ := hask.requested
  obtain ⟨claims', pubkey', hadm', -, halloc, -⟩ := hg.admitted
  obtain ⟨rfl, rfl⟩ := Prod.mk.inj (Except.ok.inj (hadm.symm.trans hadm'))
  cases hseq : g.sequential with
  | true =>
    have hnone := halloc hseq
    simp [Coordinator.Allocates, hnew, hraw] at hnone
  | false =>
    obtain ⟨raw', hraw', hparse'⟩ := hg.requested hseq
    obtain rfl := Option.some.inj (hraw.symm.trans hraw')
    exact Option.some.inj (hparse'.symm.trans hparse)

theorem register_counter_iff {cfg : Config} {tr : List (Op × Reply)} {s : Mesh}
    (h : (mesh cfg).Reach tr s) {amb : Ambient} {req : RegisterRequest} {bearer : Option String}
    {observed : Option SocketAddr} (hfresh : (Op.register amb req bearer observed).Fresh tr)
    {r : Registered} (hr : (s.step (.register amb req bearer observed)).2 = .register (.ok r))
    (hform : ∀ idx, r.entry.ula ≠ UlaAllocator.addressFor slot idx) :
    (s.step (.register amb req bearer observed)).1.coordinator.allocator.perNetwork slot =
      s.coordinator.allocator.perNetwork slot ↔
      ¬ ∃ ula, s.coordinator.AsksPast amb req bearer slot ula := by
  have hi := inv_of_reach h
  have hans : (s.coordinator.registerHandler amb req bearer observed).2 = .ok r :=
    Reply.register.inj hr
  obtain ⟨gs, hs, hg, hnew⟩ := Coordinator.registerHandler_steps req bearer observed hi
    (hi.lookup_eq_none hfresh)
  constructor
  · rintro heq ⟨ula, hask⟩
    obtain ⟨claims, pubkey, hadm, hnone⟩ := hask.admitted
    have hne : gs ≠ [] := by
      apply hnew
      · rw [hans]
        rfl
      · exact ⟨pubkey, (Coordinator.admission_eq_ok hadm).2.2.1, hnone⟩
    obtain ⟨g, hmem⟩ := List.exists_mem_of_ne_nil gs hne
    obtain ⟨reg, -, hgrant⟩ := hg g hmem
    have hle := hs.grant_le_counter g hmem
    rw [grant_eq_of_asksPast hgrant hask, hask.seg2] at hle
    have hlt := UInt16.lt_of_lt_of_le hask.past hle
    exact UInt16.lt_irrefl _ (heq ▸ hlt)
  · intro hno
    rcases hs.counter slot with heq | ⟨hlt, x, hx, hslot, hidx⟩
    · exact heq
    · exfalso
      obtain ⟨reg, hreg, hgrant⟩ := hg x hx
      obtain rfl := Except.ok.inj (hans.symm.trans hreg)
      rw [← hidx] at hlt
      rcases asksPast_of_grant hgrant hslot hlt with hhost | hask
      · exact hform _ (hgrant.ula.trans hhost)
      · exact hno ⟨_, hask⟩

def CounterOwned (slot : UInt16) (tr : List (Op × Reply)) (s : Mesh) : Prop :=
  s.coordinator.allocator.perNetwork slot = 0 ∨
    ∃ p, Granted tr p (UlaAllocator.addressFor slot (s.coordinator.allocator.perNetwork slot))

omit [Crates] in
theorem Granted.cons {tr : List (Op × Reply)} {p : Uuid} {ula : Ipv6Addr} (h : Granted tr p ula)
    (x : Op × Reply) : Granted (x :: tr) p ula := by
  obtain ⟨y, hy, hg⟩ := h
  exact ⟨y, List.mem_cons_of_mem x hy, hg⟩

theorem counterOwned_restart {tr : List (Op × Reply)} {s : Mesh}
    (hi : s.coordinator.toRosterState.Inv (Granted tr)) {cfg : Config} {now : Nat}
    {file : Option Nat} (hc : SpentByHosts slot s (.restart cfg now file)) (x : Op × Reply) :
    CounterOwned slot (x :: tr) (s.step (.restart cfg now file)).1 := by
  obtain ⟨l, -, hseat, hload, hr⟩ := hi.restart_restoredFrom now file
  have hparse : ∀ e : PeerEntry, Ipv6Addr.parse e.toJoinedEvent.ula = some e.ula :=
    fun e => Ipv6Addr.parse_toString e.ula
  have hmem : ∀ e ∈ l, e.toJoinedEvent ∈ s.coordinator.load file := by
    intro e he
    rw [hload]
    exact List.mem_map_of_mem he
  have owned : ∀ e ∈ l, e.ula = UlaAllocator.addressFor slot
      ((s.coordinator.toRosterState.restart now file).allocator.perNetwork slot) →
      CounterOwned slot (x :: tr) (s.step (.restart cfg now file)).1 := by
    intro e he hula
    have hg := (hseat e he).granted.cons x
    rw [hula] at hg
    exact .inr ⟨e.peerId, hg⟩
  rcases hr.counter slot with h0 | ⟨e, he, hslot, hidx⟩
  · exact .inl h0
  · rcases hc _ (hmem e he) e.ula (hparse e) hslot with hz | ⟨host, hhost, idx, hp, hle⟩
    · rw [hidx] at hz
      exact .inl hz
    · rw [hload] at hhost
      obtain ⟨e', he', rfl⟩ := List.mem_map.mp hhost
      have hula : e'.ula = UlaAllocator.addressFor slot idx :=
        Option.some.inj ((hparse e').symm.trans hp)
      have hge := hr.le_counter e' he'
      rw [hula] at hge
      rw [hidx] at hle
      have heq := UInt16.le_antisymm hle hge
      exact owned e' he' (by rw [heq]; exact hula)

theorem counterOwned_of_run {cfg : Config} {tr : List (Op × Reply)} {s : Mesh}
    (h : (mesh cfg).Run (SpentByHosts slot) tr s) : CounterOwned slot tr s := by
  refine Machine.Run.invariant (I := CounterOwned slot) (.inl rfl) ?_ h
  intro tr s op hr hown hfresh hc
  have hi := inv_of_run hr
  by_cases hlive : ∀ cfg now file, op ≠ .restart cfg now file
  · have hnew : ∀ amb req bearer observed, op = .register amb req bearer observed →
        s.coordinator.roster.lookup amb.nowV7 = none := by
      rintro amb req bearer observed rfl
      exact hi.lookup_eq_none hfresh
    obtain ⟨gs, hs, hatt⟩ := Mesh.step_steps hi hlive hnew
    rcases hs.counter slot with heq | ⟨hlt, x, hx, hslot, hidx⟩
    · rcases hown with h0 | ⟨p, hp⟩
      · exact .inl (heq.trans h0)
      · refine .inr ⟨p, ?_⟩
        have hp' := hp.cons (op, (s.step op).2)
        rw [← heq] at hp'
        exact hp'
    · obtain ⟨amb, req, bearer, observed, r, rfl, hreply, hgrant⟩ := hatt x hx
      rw [← hidx] at hlt
      have hhost : x.ula = UlaAllocator.addressFor slot x.ula.seg3 := by
        rcases asksPast_of_grant hgrant hslot hlt with hhost | hask
        · exact hhost
        · exact hc _ hask
      rw [hidx] at hhost
      exact .inr ⟨x.peerId, _, List.mem_cons_self, r, hreply, hgrant.peerId,
        hgrant.ula.trans hhost⟩
  · push Not at hlive
    obtain ⟨cfg', now, file, rfl⟩ := hlive
    exact counterOwned_restart hi hc _

/-- A register or a replayed event that ends on an address outside the host block keeps the counter
of `network` exactly when the address is not past it; in a run whose steps all do, a full network
has given out its last index. -/
theorem address_space_spent_by_hosts (cfg : Config) (network : String) :
    (∀ tr s, (mesh cfg).Reach tr s → ∀ amb req bearer observed r,
      (Op.register amb req bearer observed).Fresh tr →
      (s.step (.register amb req bearer observed)).2 = .register (.ok r) →
      (∀ idx, r.entry.ula ≠ UlaAllocator.addressFor (networkSlot network) idx) →
      ((s.step (.register amb req bearer observed)).1.coordinator.allocator.issued network =
        s.coordinator.allocator.issued network ↔
        ¬ ∃ ula, s.coordinator.AsksPast amb req bearer (networkSlot network) ula)) ∧
    (∀ (m m' : RosterState) now event entry, m.applyPeerJoined now event = .ok (m', entry) →
      (∀ idx, entry.ula ≠ UlaAllocator.addressFor (networkSlot network) idx) →
      (m'.allocator.issued network = m.allocator.issued network ↔
        ¬ ∃ ula, Ipv6Addr.parse event.ula = some ula ∧ ula.seg2 = networkSlot network ∧
          m.allocator.issued network < ula.seg3)) ∧
    ∀ tr s, (mesh cfg).Run (SpentByHosts (networkSlot network)) tr s →
      s.coordinator.allocator.allocate network = .error .exhausted →
      ∃ p, Granted tr p (UlaAllocator.addressFor (networkSlot network) 0xffff) := by
  refine ⟨fun tr s h amb req bearer observed r hfresh hr hform =>
    register_counter_iff h hfresh hr hform, ?_, ?_⟩
  · intro m m' now event entry happ _
    obtain ⟨hparse, rfl⟩ := RosterState.applyPeerJoined_eq_ok happ
    have hbump : (m.insertEntry entry).allocator.issued network =
        if networkSlot network = entry.ula.seg2 ∧
          m.allocator.perNetwork entry.ula.seg2 < entry.ula.seg3 then entry.ula.seg3
        else m.allocator.issued network :=
      UlaAllocator.perNetwork_bumpSlotAtLeast _ _ _ _
    rw [hbump]
    constructor
    · rintro heq ⟨ula, hula, hslot, hlt⟩
      obtain rfl := Option.some.inj (hparse.symm.trans hula)
      have hlt' : m.allocator.perNetwork entry.ula.seg2 < entry.ula.seg3 := hslot ▸ hlt
      rw [if_pos ⟨hslot.symm, hlt'⟩] at heq
      rw [heq] at hlt
      exact UInt16.lt_irrefl _ hlt
    · intro hno
      rw [if_neg]
      rintro ⟨hslot, hlt⟩
      exact hno ⟨entry.ula, hparse, hslot.symm, by rw [UlaAllocator.issued, hslot]; exact hlt⟩
  · intro tr s h herr
    have hfull := UlaAllocator.allocateInSlot_eq_error herr
    rcases counterOwned_of_run h with h0 | hgranted
    · rw [h0] at hfull
      exact absurd hfull (by decide)
    · rw [hfull] at hgranted
      exact hgranted

end

def foreignOp : Op := registerOp 0 1 (plainRequest keyOne "bob" (some "fd5a:1f02:2697:ffff::1"))

def foreignOps : List Op := [foreignOp]

def Reply.grantedUla : Reply → Option Ipv6Addr
  | .register (.ok r) => some r.entry.ula
  | _ => none

attribute [local instance] referenceCrates

theorem app_address_exhausts_network :
    ∃ tr s, (mesh openConfig).Reach tr s ∧
      (∃ p e, s.coordinator.roster.lookup p = some e ∧ e.network = "bob" ∧
        ∀ idx, e.ula ≠ UlaAllocator.addressFor (networkSlot "alice") idx) ∧
      (Mesh.init openConfig).coordinator.allocator.issued "alice" = 0 ∧
      s.coordinator.allocator.issued "alice" = 0xffff ∧
      s.coordinator.allocator.allocate "alice" = .error .exhausted ∧
      ∀ p, ¬ Granted tr p (UlaAllocator.addressFor (networkSlot "alice") 0xffff) := by
  have hreach : (mesh openConfig).Reach (traceAfter openConfig foreignOps)
      (stateAfter openConfig foreignOps) := reach_of_admissible (by decide)
  have he : ((stateAfter openConfig foreignOps).coordinator.roster.lookup 1).map
      (fun e => (e.network, e.ula.seg1)) = some ("bob", 0x1f02) := by decide
  obtain ⟨e, he, hpair⟩ := Option.map_eq_some_iff.mp he
  obtain ⟨hnet, hseg⟩ := Prod.mk.inj hpair
  have hfull : (stateAfter openConfig foreignOps).coordinator.allocator.issued "alice" = 0xffff := by
    decide
  have hgrants : ∀ x ∈ traceAfter openConfig foreignOps,
      x.2.grantedUla.map Ipv6Addr.seg1 ≠ some hostUlaSlot := by
    decide
  refine ⟨_, _, hreach, ⟨1, e, he, hnet, ?_⟩, rfl, hfull, UlaAllocator.allocate_of_full hfull, ?_⟩
  · intro idx hc
    have hseg' : hostUlaSlot = 0x1f02 := by
      rw [hc] at hseg
      exact hseg
    exact absurd hseg' (by decide)
  · rintro p ⟨x, hx, r, hr, -, hula⟩
    refine hgrants x hx ?_
    rw [hr, Reply.grantedUla, Option.map_some, hula]
    rfl

def lastIndexOps : List Op :=
  [registerOp 0 1 (plainRequest keyOne "alice" (some "fd5a:1f00:2697:ffff::1"))]

theorem address_space_spent_by_hosts_alice :
    (stateAfter openConfig foreignOps).coordinator.allocator.issued "carol" = 0 ∧
    ∃ p, Granted (traceAfter openConfig lastIndexOps) p
      (UlaAllocator.addressFor (networkSlot "alice") 0xffff) := by
  constructor
  · have hid : ((Mesh.init openConfig).step foreignOp).2.grantedId = some 1 := by decide
    obtain ⟨-, r, hr, -, -⟩ := Reply.grantedId_eq_some_iff.mp hid
    have hula : Ipv6Addr.parse "fd5a:1f02:2697:ffff::1" =
        some ⟨0xfd5a, 0x1f02, 0x2697, 0xffff, 0, 0, 0, 1⟩ := by decide
    have hseg : ((Mesh.init openConfig).step foreignOp).2.grantedUla.map Ipv6Addr.seg1 =
        some 0x1f02 := by
      decide
    have hseg' : r.entry.ula.seg1 = 0x1f02 := by
      rw [hr] at hseg
      exact Option.some.inj hseg
    refine ((address_space_spent_by_hosts openConfig "carol").1 [] _ .start _ _ _ _ r ?_ hr ?_).mpr ?_
    · rintro ula ⟨x, hx, -⟩
      simp at hx
    · intro idx hc
      rw [hc] at hseg'
      exact absurd (show hostUlaSlot = 0x1f02 from hseg') (by decide)
    · rintro ⟨ula, hask⟩
      obtain ⟨raw, hraw, hparse⟩ := hask.requested
      obtain rfl := Option.some.inj hraw
      obtain rfl := Option.some.inj (hparse.symm.trans hula)
      exact absurd hask.seg2 (by decide)
  · have hfull : (stateAfter openConfig lastIndexOps).coordinator.allocator.issued "alice" =
        0xffff := by decide
    have hrun : (mesh openConfig).Run (SpentByHosts (networkSlot "alice"))
        (traceAfter openConfig lastIndexOps) (stateAfter openConfig lastIndexOps) := by
      refine Machine.Run.start.exec ⟨by decide, ?_, trivial⟩
      intro ula hask
      obtain ⟨raw, hraw, hparse⟩ := hask.requested
      obtain rfl := Option.some.inj hraw
      have hula : Ipv6Addr.parse "fd5a:1f00:2697:ffff::1" =
          some (UlaAllocator.addressFor (networkSlot "alice") 0xffff) := by decide
      obtain rfl := Option.some.inj (hparse.symm.trans hula)
      rfl
    exact (address_space_spent_by_hosts openConfig "alice").2.2 _ _ hrun
      (UlaAllocator.allocate_of_full hfull)

end ServiceMesh
