import ServiceMesh.RosterIntegrity

/-! The snapshot of a reachable roster replays into a fresh coordinator without loss, in any
order the roster is written out in. -/

namespace ServiceMesh

open StdNet (Ipv6Addr)

structure SameRecord (e e' : PeerEntry) : Prop where
  wgPublicKey : e'.wgPublicKey = e.wgPublicKey
  ula : e'.ula = e.ula
  peerIndex : e'.peerIndex = e.peerIndex
  network : e'.network = e.network
  tags : e'.tags = e.tags
  displayName : e'.displayName = e.displayName
  listenEndpoint : e'.listenEndpoint = e.listenEndpoint
  hostedAppUlas : e'.hostedAppUlas = e.hostedAppUlas
  kind : e'.kind = e.kind
  parent : e'.parent = e.parent
  appUuid : e'.appUuid = e.appUuid
  softwareVersion : e'.softwareVersion = e.softwareVersion
  meshVersion : e'.meshVersion = e.meshVersion
  relayOnly : e'.relayOnly = e.relayOnly
  joinedAtMicros : e'.joinedAtMicros = e.joinedAtMicros

theorem Distinct.perm {l l' : List PeerEntry} (h : Distinct l) (hp : l'.Perm l) : Distinct l' where
  peerId := (hp.map _).nodup_iff.mpr h.peerId
  wgPublicKey := (hp.map _).nodup_iff.mpr h.wgPublicKey
  ula := (hp.map _).nodup_iff.mpr h.ula

section

variable [Crates]

theorem sameRecord_restoredEntry {G : Uuid → Ipv6Addr → Prop} {e : PeerEntry} (h : e.Seated G)
    (now : Nat) : SameRecord e (restoredEntry now e) := by
  -- the wire form has no absent endpoint, so the empty text must not be one
  have hend : ∀ endpoint : Option String, endpoint ≠ some "" →
      (if endpoint.getD "" = "" then none else some (endpoint.getD "")) = endpoint := by
    intro endpoint hne
    cases endpoint with
    | none => rfl
    | some text => exact if_neg (fun hc => hne (congrArg some hc))
  constructor
  case listenEndpoint => exact hend e.listenEndpoint h.endpoint
  case peerIndex => exact h.index.symm
  all_goals rfl

theorem restoredFrom_roster {G : Uuid → Ipv6Addr → Prop} {m : RosterState} (h : m.Inv G)
    {l : List PeerEntry} (hl : l.Perm m.roster.values) {now : Nat} {m' : RosterState}
    (hr : RestoredFrom now l m') :
    (∀ id e', m'.roster.lookup id = some e' ↔
      ∃ e, m.roster.lookup id = some e ∧ e' = restoredEntry now e) ∧
    ∀ k, m'.byPubkey.lookup k = m.byPubkey.lookup k := by
  have hmem : ∀ id e, (e ∈ l ∧ e.peerId = id) ↔ m.roster.lookup id = some e := by
    intro id e
    rw [hl.mem_iff, AList.mem_values_iff]
    constructor
    · rintro ⟨⟨k, hk⟩, rfl⟩
      rw [h.keyed hk]
      exact hk
    · intro he
      exact ⟨⟨id, he⟩, h.keyed he⟩
  constructor
  · intro id e'
    rw [hr.roster]
    constructor
    · rintro ⟨e, he, hid, rfl⟩
      exact ⟨e, (hmem id e).mp ⟨he, hid⟩, rfl⟩
    · rintro ⟨e, he, rfl⟩
      obtain ⟨hel, hid⟩ := (hmem id e).mpr he
      exact ⟨e, hel, hid, rfl⟩
  · intro k
    apply Option.ext
    intro id
    rw [hr.byPubkey, h.index]
    constructor
    · rintro ⟨e, he, hk, hid⟩
      exact ⟨e, (hmem id e).mp ⟨he, hid⟩, hk⟩
    · rintro ⟨e, he, hk⟩
      obtain ⟨hel, hid⟩ := (hmem id e).mpr he
      exact ⟨e, hel, hk, hid⟩

/-- Whatever order the roster is iterated in, the events decoded from the file all apply to a fresh
coordinator, which has the same peers, records and key index and hands out no address of theirs. -/
theorem snapshot_round_trip {cfg : Config} {tr : List (Op × Reply)} {s : Mesh}
    (h : (mesh cfg).Reach tr s) {File : Type} (encode : List PeerJoined → File)
    (decode : File → Option (List PeerJoined))
    (hcodec : ∀ peers, decode (encode peers) = some peers) {order : List PeerEntry}
    (horder : order.Perm s.coordinator.roster.values) (now : Nat) (store : List (List PeerJoined)) :
    ∃ peers m, decode (encode (order.map PeerEntry.toJoinedEvent)) = some peers ∧
      RosterState.restoreAll now (RosterState.fresh store) peers = .ok m ∧
      RosterState.restoreEvents now (RosterState.fresh store) peers = m ∧
      (∀ id, (m.roster.lookup id).isSome = (s.coordinator.roster.lookup id).isSome) ∧
      (∀ id e e', s.coordinator.roster.lookup id = some e → m.roster.lookup id = some e' →
        SameRecord e e') ∧
      (∀ k, m.byPubkey.lookup k = s.coordinator.byPubkey.lookup k) ∧
      ∀ networks id e', m.roster.lookup id = some e' → e'.ula ∉ m.allocator.allocateAll networks := by
  have hi := inv_of_reach h
  obtain ⟨m, hall, hr⟩ := restoreAll_fresh now (hi.distinct.perm horder) store
  obtain ⟨hroster, hkeys⟩ := restoredFrom_roster hi horder hr
  refine ⟨_, m, hcodec _, hall, RosterState.restoreEvents_of_restoreAll hall, ?_, ?_, hkeys, ?_⟩
  · intro id
    rw [Bool.eq_iff_iff, Option.isSome_iff_exists, Option.isSome_iff_exists]
    constructor
    · rintro ⟨e', he'⟩
      obtain ⟨e, he, -⟩ := (hroster id e').mp he'
      exact ⟨e, he⟩
    · rintro ⟨e, he⟩
      exact ⟨_, (hroster id _).mpr ⟨e, he, rfl⟩⟩
  · intro id e e' he he'
    obtain ⟨e₀, he₀, rfl⟩ := (hroster id e').mp he'
    obtain rfl := Option.some.inj (he.symm.trans he₀)
    exact sameRecord_restoredEntry (hi.seated he) now
  · intro networks id e' he'
    obtain ⟨e, hel, -, rfl⟩ := hr.roster.mp he'
    exact not_mem_allocateAll (hr.le_counter e hel) networks

end

attribute [local instance] referenceCrates

theorem snapshot_round_trip_alice :
    ∃ m, RosterState.restoreAll 0 (RosterState.fresh [])
        (stateAfter openConfig aliceOps).coordinator.rosterSnapshot = .ok m ∧
      (m.roster.lookup 1).isSome = true := by
  have hid : ((stateAfter openConfig aliceOps).coordinator.roster.lookup 1).isSome = true := by
    decide
  obtain ⟨peers, m, hpeers, hall, -, hids, -⟩ := snapshot_round_trip reach_aliceOps
    id some (fun _ => rfl) (List.Perm.refl _) 0 []
  obtain rfl := Option.some.inj hpeers
  exact ⟨m, hall, (hids 1).trans hid⟩

end ServiceMesh
