import ServiceMesh.RosterIntegrity
import ServiceMesh.Serving

/-! Whether the file and the live roster agree once every request is answered. Each request
saves what it changes, so they do as long as the saves end in the order their snapshots were
taken in; nothing in the process enforces that order. -/

namespace ServiceMesh

open StdNet (Ipv6Addr SocketAddr)

section

variable [Crates]

def seatsOf (peers : List PeerJoined) : Multiset (String × String) :=
  Multiset.ofList (peers.map (fun p => (p.peerId, p.ula)))

def RosterState.seats (m : RosterState) : Multiset (String × String) :=
  Multiset.ofList (m.roster.values.map (fun e => (e.peerId.toString, e.ula.toString)))

namespace RosterState

theorem seats_modify (m : RosterState) (id : Uuid) {f : PeerEntry → PeerEntry}
    (hf : ∀ e, m.roster.lookup id = some e → (f e).peerId = e.peerId ∧ (f e).ula = e.ula) :
    ({ m with roster := m.roster.modify id f } : RosterState).seats = m.seats := by
  simp only [seats, AList.values, AList.modify, List.map_map]
  congr 1
  apply List.map_congr_left
  rintro ⟨k, e⟩ hs
  by_cases hk : k = id
  · subst hk
    obtain ⟨hid, hula⟩ := hf e (AList.lookup_eq_some_iff.mpr hs)
    simp [hid, hula]
  · simp [hk]

theorem seats_reorder (m : RosterState) {l : List (Sigma fun _ : Uuid => PeerEntry)}
    (hl : l.Perm m.roster.entries) :
    ({ m with roster := m.roster.reorder l hl } : RosterState).seats = m.seats :=
  Multiset.coe_eq_coe.mpr ((hl.map Sigma.snd).map _)

theorem SeatsKept.seats {m m' : RosterState} (h : SeatsKept m m') : m'.seats = m.seats := by
  induction h with
  | refl => rfl
  | touch _ id f hf ih => exact (seats_modify _ id (fun e _ => ⟨(hf e).peerId, (hf e).ula⟩)).trans ih
  | reorder _ l hl ih => exact (seats_reorder _ hl).trans ih

theorem seatsOf_rosterSnapshot (m : RosterState) : seatsOf m.rosterSnapshot = m.seats := by
  simp only [seatsOf, seats, rosterSnapshot, List.map_map]
  rfl

theorem resolveUla_eq_ok {m m' : RosterState} {network : String} {requestedUla : Option String}
    {idx : UInt16} {ula : Ipv6Addr} (h : m.resolveUla network requestedUla = .ok (m', idx, ula)) :
    m'.seats = m.seats ∧ m'.rosterStore = m.rosterStore := by
  unfold resolveUla at h
  split at h
  · split at h
    · cases h
    · split_ifs at h
      obtain ⟨rfl, -⟩ := Prod.mk.inj (Except.ok.inj h)
      exact ⟨rfl, rfl⟩
  · split at h
    · cases h
    · obtain ⟨rfl, -⟩ := Prod.mk.inj (Except.ok.inj h)
      exact ⟨rfl, rfl⟩

end RosterState

def Mesh.FileCurrent (s : Mesh) : Prop := seatsOf s.lastSaved = s.coordinator.seats

instance (s : Mesh) : Decidable s.FileCurrent :=
  inferInstanceAs (Decidable (seatsOf s.lastSaved = s.coordinator.seats))

theorem fileCurrent_init (cfg : Config) : (Mesh.init cfg).FileCurrent := rfl

theorem RestoredFrom.values_perm {G : Uuid → Ipv6Addr → Prop} {now : Nat} {l : List PeerEntry}
    {m : RosterState} (h : RestoredFrom now l m) (hi : m.Inv G) (hl : Distinct l) :
    m.roster.values.Perm (l.map (restoredEntry now)) := by
  have hvalues : m.roster.values.Nodup := hi.distinct.peerId.of_map
  have hrestored : (l.map (restoredEntry now)).Nodup := by
    apply List.Nodup.of_map PeerEntry.peerId
    rw [List.map_map]
    exact hl.peerId
  rw [List.perm_ext_iff_of_nodup hvalues hrestored]
  intro e'
  rw [AList.mem_values_iff, List.mem_map]
  constructor
  · rintro ⟨id, he'⟩
    obtain ⟨e, he, -, rfl⟩ := h.roster.mp he'
    exact ⟨e, he, rfl⟩
  · rintro ⟨e, he, rfl⟩
    exact ⟨e.peerId, h.roster.mpr ⟨e, he, rfl, rfl⟩⟩

theorem fileCurrent_restart {cfg : Config} {tr : List (Op × Reply)} {s : Mesh}
    (h : (mesh cfg).Reach tr s) (cfg' : Config) (now : Nat) :
    (s.step (.restart cfg' now (some 0))).1.FileCurrent := by
  have hi := inv_of_reach h
  obtain ⟨l, hl, -, hload, hr⟩ := hi.restart_restoredFrom now (some 0)
  have hperm := hr.values_perm (hi.restart now (some 0)) hl
  have hfile : (s.step (.restart cfg' now (some 0))).1.lastSaved = l.map PeerEntry.toJoinedEvent := by
    rw [← hload, RosterState.load, Option.bind_some, ← List.head?_eq_getElem?]
    change ((s.coordinator.toRosterState.restart now (some 0)).rosterStore.head?).getD [] = _
    rw [RosterState.restart, RosterState.rosterStore_restoreEvents]
    rfl
  rw [Mesh.FileCurrent, hfile]
  refine Eq.trans ?_ (Multiset.coe_eq_coe.mpr (hperm.map _)).symm
  rw [seatsOf, List.map_map, List.map_map]
  rfl

namespace Coordinator

theorem refreshEntry_seats (c : Coordinator) (amb : Ambient) (id : Uuid) (req : RegisterRequest)
    (claims : Option ValidatedClaims) (resolved : ResolvedEndpoint) (observed : Option SocketAddr) :
    (c.refreshEntry amb id req claims resolved observed).1.rosterStore = c.rosterStore ∧
      ((c.refreshEntry amb id req claims resolved observed).1.seats = c.seats ∨
        ∃ entry, (c.refreshEntry amb id req claims resolved observed).2 = .ok (entry, true)) := by
  unfold refreshEntry
  split
  · exact ⟨rfl, .inl rfl⟩
  · simp only
    split_ifs
    · split
      · exact ⟨rfl, .inl rfl⟩
      · split_ifs
        · exact ⟨rfl, .inl rfl⟩
        · exact ⟨rfl, .inr ⟨_, rfl⟩⟩
    · exact ⟨rfl, .inl (RosterState.seats_modify _ id (fun e _ => ⟨rfl, rfl⟩))⟩

end Coordinator

theorem durable_lawful : Mesh.durable.Lawful seatsOf where
  stored_write _ _ := rfl
  capture_write _ _ := rfl

namespace Serving

theorem tidy_onCoordinator_bind {α β : Type} {f : Ambient → Coordinator → Coordinator × β}
    {k : β → Serving α} (hstore : ∀ amb c, (f amb c).1.rosterStore = c.rosterStore)
    (hseats : ∀ amb c, (f amb c).1.seats = c.seats ∨ (k (f amb c).2).Saves)
    (hk : ∀ b, (k b).Tidy Mesh.durable seatsOf) :
    (onCoordinator f >>= k).Tidy Mesh.durable seatsOf := by
  refine Async.tidy_act_bind ?_ ?_ hk
  · intro amb s
    change (((f amb s.coordinator).1.rosterStore).head?).getD [] = _
    rw [hstore]
    rfl
  · intro amb s
    change seatsOf (f amb s.coordinator).1.rosterSnapshot = seatsOf s.coordinator.rosterSnapshot ∨ _
    rw [RosterState.seatsOf_rosterSnapshot, RosterState.seatsOf_rosterSnapshot]
    exact hseats amb s.coordinator

theorem tidy_deregister (id : Uuid) (reason : String) :
    (deregister id reason).Tidy Mesh.durable seatsOf := by
  refine (Async.tidy_look _).bind ?_
  rintro (_ | ⟨tags, leftAt⟩)
  · trivial
  · refine tidy_onCoordinator_bind ?_ (fun _ _ => .inr trivial) (fun _ => trivial)
    intro _ c
    simp only [Coordinator.departPeer, Coordinator.toRosterState_broadcast,
      Coordinator.toRosterState_applyPeerLeft, RosterState.rosterStore_without]

theorem tidy_deregisterStale (stale : List Uuid) :
    (deregisterStale stale).Tidy Mesh.durable seatsOf := by
  induction stale with
  | nil => trivial
  | cons id stale ih => exact (tidy_deregister id _).bind (fun _ => ih)

theorem tidy_sweepOnce : sweepOnce.Tidy Mesh.durable seatsOf :=
  tidy_onCoordinator_bind (fun _ _ => rfl) (fun _ _ => .inl rfl) fun _ =>
    (Async.tidy_look _).bind tidy_deregisterStale

theorem tidy_evictStaleUlaHolder (requestedUla : Option String) :
    (evictStaleUlaHolder requestedUla).Tidy Mesh.durable seatsOf := by
  refine (Async.tidy_look _).bind ?_
  rintro (_ | ⟨holderId, leftAt⟩)
  · trivial
  · refine tidy_onCoordinator_bind ?_ (fun _ _ => .inr trivial) (fun _ => trivial)
    intro _ c
    simp only [Coordinator.toRosterState_evictHolder, RosterState.rosterStore_without]

theorem tidy_refreshExisting (id : Uuid) (req : RegisterRequest) (claims : Option ValidatedClaims)
    (resolved : ResolvedEndpoint) (observed : Option SocketAddr) :
    (refreshExisting id req claims resolved observed).Tidy Mesh.durable seatsOf := by
  refine tidy_onCoordinator_bind ?_ ?_ ?_
  · intro amb c
    exact (c.refreshEntry_seats amb id req claims resolved observed).1
  · intro amb c
    rcases (c.refreshEntry_seats amb id req claims resolved observed).2 with h | ⟨entry, h⟩
    · exact .inl h
    · rw [h]
      exact .inr trivial
  · rintro (e | ⟨entry, _ | _⟩) <;> trivial

theorem tidy_joinPeer (req : RegisterRequest) (claims : Option ValidatedClaims)
    (pubkey : List UInt8) (resolved : ResolvedEndpoint) (observed : Option SocketAddr) :
    (joinPeer req claims pubkey resolved observed).Tidy Mesh.durable seatsOf := by
  have hclaim : ∀ amb c, (claimUla req claims pubkey resolved amb c).1.rosterStore = c.rosterStore ∧
      (claimUla req claims pubkey resolved amb c).1.seats = c.seats := by
    intro amb c
    cases h : c.toRosterState.resolveUla (stampIdentity req claims).network req.requestedUla with
    | error e =>
      simp only [claimUla, h]
      exact ⟨trivial, trivial⟩
    | ok x =>
      obtain ⟨m, idx, ula⟩ := x
      obtain ⟨hseats, hstore⟩ := RosterState.resolveUla_eq_ok h
      simp only [claimUla, h]
      exact ⟨hstore, hseats⟩
  refine tidy_onCoordinator_bind (fun amb c => (hclaim amb c).1)
    (fun amb c => .inl (hclaim amb c).2) ?_
  rintro (e | ⟨peerId, event⟩)
  · trivial
  · have hjoin : ∀ amb c,
        (applyJoin peerId event resolved observed amb c).1.rosterStore = c.rosterStore ∧
        ((applyJoin peerId event resolved observed amb c).1.seats = c.seats ∨
          ∃ entry, (applyJoin peerId event resolved observed amb c).2 = .ok entry) := by
      intro amb c
      unfold applyJoin
      cases h : c.toRosterState.applyPeerJoined amb.now event with
      | error e => exact ⟨rfl, .inl rfl⟩
      | ok x =>
        obtain ⟨m, entry⟩ := x
        refine ⟨?_, .inr ⟨_, rfl⟩⟩
        unfold RosterState.applyPeerJoined at h
        split at h
        · cases h
        · split at h
          · cases h
          · split_ifs at h
            obtain ⟨rfl, -⟩ := Prod.mk.inj (Except.ok.inj h)
            rfl
    refine tidy_onCoordinator_bind (fun amb c => (hjoin amb c).1) ?_ ?_
    · intro amb c
      rcases (hjoin amb c).2 with h | ⟨entry, h⟩
      · exact .inl h
      · rw [h]
        exact .inr trivial
    · rintro (e | entry) <;> trivial

theorem tidy_registerHandler (req : RegisterRequest) (bearer : Option String)
    (observed : Option SocketAddr) :
    (registerHandler req bearer observed).Tidy Mesh.durable seatsOf := by
  have hlocked : ∀ claims pubkey,
      (registerLocked req claims pubkey observed).Tidy Mesh.durable seatsOf := by
    intro claims pubkey
    refine (Async.tidy_look _).bind ?_
    rintro (_ | id)
    · exact (tidy_evictStaleUlaHolder _).bind fun _ =>
        (tidy_joinPeer req claims pubkey _ observed).bind fun _ => trivial
    · exact (tidy_refreshExisting id req claims _ observed).bind fun _ => trivial
  have hauth : (registerAuthenticated req bearer observed).Tidy Mesh.durable seatsOf := by
    refine (Async.tidy_look _).bind ?_
    rintro (e | ⟨claims, pubkey⟩)
    · trivial
    · exact (hlocked claims pubkey).bind (fun _ => trivial)
  refine hauth.bind ?_
  rintro (e | ⟨entry, outcome⟩)
  · trivial
  · exact (Async.tidy_look _).bind (fun _ => trivial)

end Serving

theorem Request.tidy_serve (request : Request) : request.serve.Tidy Mesh.durable seatsOf := by
  cases request with
  | register req bearer observed =>
    exact (Serving.tidy_registerHandler req bearer observed).bind (fun _ => trivial)
  | deregister peerId =>
    have hhandler : (Serving.deregisterHandler peerId).Tidy Mesh.durable seatsOf := by
      unfold Serving.deregisterHandler
      cases Uuid.parseStr peerId with
      | error e => trivial
      | ok id => exact (Serving.tidy_deregister id _).bind (fun _ => trivial)
    exact hhandler.bind (fun _ => trivial)
  | sweep => exact Serving.tidy_sweepOnce.bind (fun _ => trivial)
  | other op h =>
    refine Async.tidy_act ?_ ?_
    · intro _ s
      change ((s.step op).1.coordinator.rosterStore.head?).getD [] = _
      rw [(s.step_seatsKept h).rosterStore]
      rfl
    · intro _ s
      change seatsOf (s.step op).1.coordinator.rosterSnapshot = seatsOf s.coordinator.rosterSnapshot
      rw [RosterState.seatsOf_rosterSnapshot, RosterState.seatsOf_rosterSnapshot]
      exact (s.step_seatsKept h).seats

/-- Whenever every request is answered, and the saves all succeeded and ended in the order their
snapshots were taken, the file agrees with the live roster. -/
theorem saved_roster_is_live {s₀ : Mesh} (h₀ : s₀.FileCurrent)
    {tr : List (Turn Request Ambient × Unit)} {p : Pool Ambient Mesh (List PeerJoined) Reply}
    (h : (serving s₀).Run Pool.InOrder tr p) (hfinished : p.Finished) : p.shared.FileCurrent := by
  have hstart : seatsOf (Mesh.durable.stored s₀) = seatsOf (Mesh.durable.capture s₀) :=
    h₀.trans (RosterState.seatsOf_rosterSnapshot _).symm
  exact (Pool.stored_of_run durable_lawful Request.tidy_serve hstart h hfinished).trans
    (RosterState.seatsOf_rosterSnapshot _)

end

attribute [local instance] referenceCrates

theorem fileCurrent_restart_alice :
    ((stateAfter openConfig aliceOps).step (.restart openConfig 5 (some 0))).1.FileCurrent :=
  fileCurrent_restart reach_aliceOps openConfig 5

def appRequest (key ula : String) : Request := .register (plainRequest key "" (some ula)) none none

def advances (handle n : Nat) (nowV7 : Uuid) : List (Turn Request Ambient) :=
  List.replicate n (.advance handle (ambientAt 0 nowV7))

/-- The first node is registered. The second one joins, and before the snapshot with both of
them is saved the first one leaves and a snapshot without it is taken. The two saves end in the
order of `places`. -/
def overlapTurns (places : List Nat) : List (Turn Request Ambient) :=
  .start (appRequest keyOne "fd5a:1f02:1::1") :: advances 0 7 1 ++ .land 0 true :: advances 0 2 1 ++
    .start (appRequest keyTwo "fd5a:1f02:2::1") :: advances 1 7 2 ++
    .start (.deregister (Uuid.toString 1)) :: advances 2 3 3 ++
    places.map (fun place => .land place true) ++ advances 1 2 2

def overlap (places : List Nat) :
    List (Turn Request Ambient × Unit) × Pool Ambient Mesh (List PeerJoined) Reply :=
  (serving (Mesh.init openConfig)).exec [] (serving (Mesh.init openConfig)).init
    (overlapTurns places)

/-- Every save succeeds and every request is answered, and yet a restart brings back a peer that
left. -/
theorem late_save_resurrects_peer :
    ∃ tr p, (serving (Mesh.init openConfig)).Run (fun _ turn => turn.succeeds = true) tr p ∧
      p.Finished ∧ ¬ p.shared.FileCurrent ∧ p.shared.coordinator.roster.lookup 1 = none ∧
      ((p.shared.coordinator.restart openConfig 0 (some 0)).roster.lookup 1).isSome = true := by
  have hall : (serving (Mesh.init openConfig)).Admissible (fun _ turn => turn.succeeds = true) []
        (serving (Mesh.init openConfig)).init (overlapTurns [1, 0]) ∧
      (overlap [1, 0]).2.Finished ∧ ¬ (overlap [1, 0]).2.shared.FileCurrent ∧
      (overlap [1, 0]).2.shared.coordinator.roster.lookup 1 = none ∧
      (((overlap [1, 0]).2.shared.coordinator.restart openConfig 0 (some 0)).roster.lookup
        1).isSome = true := by decide +kernel
  have hrun : (serving (Mesh.init openConfig)).Run (fun _ turn => turn.succeeds = true)
      (overlap [1, 0]).1 (overlap [1, 0]).2 := Machine.Run.start.exec hall.1
  exact ⟨(overlap [1, 0]).1, (overlap [1, 0]).2, hrun, hall.2⟩

theorem saved_roster_is_live_overlap :
    (overlap [0, 0]).2.Finished ∧ (overlap [0, 0]).2.shared.FileCurrent := by
  have hall : (serving (Mesh.init openConfig)).Admissible Pool.InOrder []
        (serving (Mesh.init openConfig)).init (overlapTurns [0, 0]) ∧
      (overlap [0, 0]).2.Finished := by decide +kernel
  have hrun : (serving (Mesh.init openConfig)).Run Pool.InOrder
      (overlap [0, 0]).1 (overlap [0, 0]).2 := Machine.Run.start.exec hall.1
  exact ⟨hall.2, saved_roster_is_live (fileCurrent_init openConfig) hrun hall.2⟩

end ServiceMesh
