import ServiceMesh.Registration

/-! Membership in the abstract: who sits at which address. The invariant of a roster together
with its key index, its counters and its saved snapshots, and the steps membership is
changed by. -/

namespace ServiceMesh

open StdNet (Ipv6Addr)

variable [Crates]

def SlotBound (ula : Ipv6Addr) (network : String) : Prop :=
  ula.seg1 = hostUlaSlot → isFixedInfraUla ula = false → ula.seg2 = networkSlot network

structure PeerEntry.Seated (G : Uuid → Ipv6Addr → Prop) (e : PeerEntry) : Prop where
  granted : G e.peerId e.ula
  index : e.peerIndex = e.ula.seg3
  uniqueLocal : isUniqueLocal e.ula = true
  slotBound : SlotBound e.ula e.network
  endpoint : e.listenEndpoint ≠ some ""

structure Distinct (l : List PeerEntry) : Prop where
  peerId : (l.map PeerEntry.peerId).Nodup
  wgPublicKey : (l.map PeerEntry.wgPublicKey).Nodup
  ula : (l.map PeerEntry.ula).Nodup

def GoodSnapshot (G : Uuid → Ipv6Addr → Prop) (peers : List PeerJoined) : Prop :=
  ∃ l : List PeerEntry, Distinct l ∧ (∀ e ∈ l, e.Seated G) ∧ peers = l.map PeerEntry.toJoinedEvent

structure RosterState.Inv (G : Uuid → Ipv6Addr → Prop) (m : RosterState) : Prop where
  keyed : ∀ {id e}, m.roster.lookup id = some e → e.peerId = id
  seated : ∀ {id e}, m.roster.lookup id = some e → e.Seated G
  index : ∀ {k id}, m.byPubkey.lookup k = some id ↔
    ∃ e, m.roster.lookup id = some e ∧ e.wgPublicKey = k
  ula : ∀ {id id' e e'}, m.roster.lookup id = some e → m.roster.lookup id' = some e' →
    e.ula = e'.ula → id = id'
  counter : ∀ {id e}, m.roster.lookup id = some e →
    e.ula.seg3 ≤ m.allocator.perNetwork e.ula.seg2
  store : ∀ peers ∈ m.rosterStore, GoodSnapshot G peers

structure Grant where
  peerId : Uuid
  ula : Ipv6Addr
  network : String
  sequential : Bool

structure SameSeat (e e' : PeerEntry) : Prop where
  peerId : e'.peerId = e.peerId
  wgPublicKey : e'.wgPublicKey = e.wgPublicKey
  ula : e'.ula = e.ula
  peerIndex : e'.peerIndex = e.peerIndex
  network : e'.network = e.network
  endpoint : e.listenEndpoint ≠ some "" → e'.listenEndpoint ≠ some ""

def RosterState.NextUla (m : RosterState) (network : String) (ula : Ipv6Addr) : Prop :=
  ∃ allocator idx, m.allocator.allocate network = .ok (allocator, idx, ula)

namespace RosterState

inductive Step : RosterState → Option Grant → RosterState → Prop
  | touch {m : RosterState} (id : Uuid) (f : PeerEntry → PeerEntry)
      (hf : ∀ e, m.roster.lookup id = some e → SameSeat e (f e)) :
      Step m none { m with roster := m.roster.modify id f }
  | reorder {m : RosterState} (l : List (Sigma fun _ : Uuid => PeerEntry))
      (h : l.Perm m.roster.entries) : Step m none { m with roster := m.roster.reorder l h }
  | join {m : RosterState} (e : PeerEntry) (sequential : Bool)
      (hid : m.roster.lookup e.peerId = none)
      (hkey : m.byPubkey.lookup e.wgPublicKey = none)
      (hula : ∀ x ∈ m.roster.values, x.ula ≠ e.ula)
      (hindex : e.peerIndex = e.ula.seg3)
      (hul : isUniqueLocal e.ula = true)
      (hslot : SlotBound e.ula e.network)
      (hend : e.listenEndpoint ≠ some "")
      (hseq : sequential = true → m.NextUla e.network e.ula) :
      Step m (some ⟨e.peerId, e.ula, e.network, sequential⟩) (m.insertEntry e)
  | rehome {m : RosterState} {e : PeerEntry} {allocator : UlaAllocator} {idx : UInt16}
      {ula : Ipv6Addr} (id : Uuid) (network : String) (f : PeerEntry → PeerEntry)
      (he : m.roster.lookup id = some e)
      (ha : m.allocator.allocate network = .ok (allocator, idx, ula))
      (hf : SameSeat e (f e)) :
      Step m (some ⟨id, ula, network, true⟩)
        { m with
          allocator := allocator
          roster := m.roster.modify id (fun x => rehomedEntry network ula idx (f x)) }
  | leave {m : RosterState} {id : Uuid} {e : PeerEntry} (he : m.roster.lookup id = some e) :
      Step m none
        { m with roster := m.roster.erase id, byPubkey := m.byPubkey.erase e.wgPublicKey }
  | save {m : RosterState} : Step m none (m.saveRoster m.rosterSnapshot true)

inductive Steps : RosterState → List Grant → RosterState → Prop
  | refl (m : RosterState) : Steps m [] m
  | tail {m m' m'' : RosterState} {gs : List Grant} {g : Option Grant} :
      Steps m gs m' → Step m' g m'' → Steps m (gs ++ g.toList) m''

variable {m m' : RosterState}

theorem Steps.single {g : Option Grant} (h : Step m g m') : Steps m g.toList m' :=
  .tail (.refl m) h

theorem Steps.quiet {gs : List Grant} (hs : Steps m gs m') {m'' : RosterState}
    (h : Step m' none m'') : Steps m gs m'' := by
  simpa using hs.tail h

theorem Steps.trans {m'' : RosterState} {gs gs' : List Grant} (h : Steps m gs m')
    (h' : Steps m' gs' m'') : Steps m (gs ++ gs') m'' := by
  induction h' with
  | refl => simpa using h
  | tail _ hstep ih =>
    rw [← List.append_assoc]
    exact ih.tail hstep

/-- Entries are updated in place or iterated in another order, and nobody gets or loses a seat. -/
inductive SeatsKept (m : RosterState) : RosterState → Prop
  | refl : SeatsKept m m
  | touch {m' : RosterState} (h : SeatsKept m m') (id : Uuid) (f : PeerEntry → PeerEntry)
      (hf : ∀ e, SameSeat e (f e)) : SeatsKept m { m' with roster := m'.roster.modify id f }
  | reorder {m' : RosterState} (h : SeatsKept m m') (l : List (Sigma fun _ : Uuid => PeerEntry))
      (hl : l.Perm m'.roster.entries) : SeatsKept m { m' with roster := m'.roster.reorder l hl }

omit [Crates] in
theorem SeatsKept.trans {m'' : RosterState} (h : SeatsKept m m') (h' : SeatsKept m' m'') :
    SeatsKept m m'' := by
  induction h' with
  | refl => exact h
  | touch _ id f hf ih => exact ih.touch id f hf
  | reorder _ l hl ih => exact ih.reorder l hl

omit [Crates] in
theorem SeatsKept.rosterStore (h : SeatsKept m m') : m'.rosterStore = m.rosterStore := by
  induction h with
  | refl => rfl
  | touch _ _ _ _ ih => exact ih
  | reorder _ _ _ ih => exact ih

theorem SeatsKept.steps (h : SeatsKept m m') : Steps m [] m' := by
  induction h with
  | refl => exact .refl m
  | touch _ id f hf ih => exact ih.quiet (.touch id f (fun e _ => hf e))
  | reorder _ l hl ih => exact ih.quiet (.reorder l hl)

end RosterState

end ServiceMesh
