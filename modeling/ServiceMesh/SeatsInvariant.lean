import ServiceMesh.Restore

/-! Every step of membership keeps the invariant, with the grant it made added to those known
before. -/

namespace ServiceMesh

open StdNet (Ipv6Addr)

variable [Crates] {G G' : Uuid → Ipv6Addr → Prop}

omit [Crates] in
theorem PeerEntry.Seated.mono (hG : ∀ id ula, G id ula → G' id ula) {e : PeerEntry}
    (h : e.Seated G) : e.Seated G' :=
  { h with granted := hG _ _ h.granted }

theorem GoodSnapshot.mono (hG : ∀ id ula, G id ula → G' id ula) {peers : List PeerJoined}
    (h : GoodSnapshot G peers) : GoodSnapshot G' peers := by
  obtain ⟨l, hd, hs, rfl⟩ := h
  exact ⟨l, hd, fun e he => (hs e he).mono hG, rfl⟩

omit [Crates] in
theorem SameSeat.refl (e : PeerEntry) : SameSeat e e := ⟨rfl, rfl, rfl, rfl, rfl, fun h => h⟩

omit [Crates] in
theorem SameSeat.trans {e e' e'' : PeerEntry} (h : SameSeat e e') (h' : SameSeat e' e'') :
    SameSeat e e'' where
  peerId := h'.peerId.trans h.peerId
  wgPublicKey := h'.wgPublicKey.trans h.wgPublicKey
  ula := h'.ula.trans h.ula
  peerIndex := h'.peerIndex.trans h.peerIndex
  network := h'.network.trans h.network
  endpoint := fun he => h'.endpoint (h.endpoint he)

omit [Crates] in
theorem SameSeat.seated {e e' : PeerEntry} (h : SameSeat e e') (hs : e.Seated G) :
    e'.Seated G where
  granted := by rw [h.peerId, h.ula]; exact hs.granted
  index := by rw [h.peerIndex, h.ula]; exact hs.index
  uniqueLocal := by rw [h.ula]; exact hs.uniqueLocal
  slotBound := by rw [h.ula, h.network]; exact hs.slotBound
  endpoint := h.endpoint hs.endpoint

namespace RosterState

def Extend (G : Uuid → Ipv6Addr → Prop) (gs : List Grant) (id : Uuid) (ula : Ipv6Addr) : Prop :=
  G id ula ∨ ∃ g ∈ gs, g.peerId = id ∧ g.ula = ula

omit [Crates] in
theorem extend_left (gs : List Grant) (id : Uuid) (ula : Ipv6Addr) (h : G id ula) :
    Extend G gs id ula :=
  .inl h

theorem Inv.mono {m : RosterState} (h : m.Inv G) (hG : ∀ id ula, G id ula → G' id ula) :
    m.Inv G' :=
  { h with
    seated := fun he => (h.seated he).mono hG
    store := fun peers hp => (h.store peers hp).mono hG }

theorem Inv.wgPublicKey {m : RosterState} (h : m.Inv G) {id id' : Uuid} {e e' : PeerEntry}
    (he : m.roster.lookup id = some e) (he' : m.roster.lookup id' = some e')
    (hk : e.wgPublicKey = e'.wgPublicKey) : id = id' := by
  have h1 := h.index.mpr ⟨e, he, rfl⟩
  have h2 := h.index.mpr ⟨e', he', rfl⟩
  rw [← hk, h1] at h2
  exact Option.some.inj h2

theorem Inv.lookup_eq_none {m : RosterState} (h : m.Inv G) {id : Uuid} (hno : ∀ ula, ¬ G id ula) :
    m.roster.lookup id = none := by
  cases he : m.roster.lookup id with
  | none => rfl
  | some e =>
    have hg := (h.seated he).granted
    rw [h.keyed he] at hg
    exact absurd hg (hno e.ula)

theorem Inv.distinct {m : RosterState} (h : m.Inv G) : Distinct m.roster.values where
  peerId := AList.nodup_map_values _ fun he he' heq => by rw [← h.keyed he, ← h.keyed he', heq]
  wgPublicKey := AList.nodup_map_values _ fun he he' heq => h.wgPublicKey he he' heq
  ula := AList.nodup_map_values _ fun he he' heq => h.ula he he' heq

theorem Inv.goodSnapshot {m : RosterState} (h : m.Inv G) : GoodSnapshot G m.rosterSnapshot := by
  refine ⟨m.roster.values, h.distinct, ?_, rfl⟩
  intro e he
  obtain ⟨id, hid⟩ := AList.mem_values_iff.mp he
  exact h.seated hid

theorem inv_fresh {store : List (List PeerJoined)} (hs : ∀ peers ∈ store, GoodSnapshot G peers) :
    (fresh store).Inv G where
  keyed := by simp [fresh]
  seated := by simp [fresh]
  index := by simp [fresh]
  ula := by simp [fresh]
  counter := by simp [fresh]
  store := hs

end RosterState

theorem seated_restoredEntry {now : Nat} {e : PeerEntry} (h : e.Seated G) :
    (restoredEntry now e).Seated G where
  granted := h.granted
  index := rfl
  uniqueLocal := h.uniqueLocal
  slotBound := h.slotBound
  endpoint := by
    simp only [restoredEntry, RosterState.joinedEntry]
    split
    · simp
    · rename_i hne
      simpa using hne

theorem RestoredFrom.inv {now : Nat} {l : List PeerEntry} {m : RosterState}
    (h : RestoredFrom now l m) (hd : Distinct l) (hs : ∀ e ∈ l, e.Seated G)
    (hstore : ∀ peers ∈ m.rosterStore, GoodSnapshot G peers) : m.Inv G where
  keyed := by
    intro id e' he'
    obtain ⟨e, -, rfl, rfl⟩ := h.roster.mp he'
    rfl
  seated := by
    intro id e' he'
    obtain ⟨e, he, rfl, rfl⟩ := h.roster.mp he'
    exact seated_restoredEntry (hs e he)
  index := by
    intro k id
    rw [h.byPubkey]
    constructor
    · rintro ⟨e, he, rfl, rfl⟩
      exact ⟨restoredEntry now e, h.roster.mpr ⟨e, he, rfl, rfl⟩, rfl⟩
    · rintro ⟨e', he', rfl⟩
      obtain ⟨e, he, rfl, rfl⟩ := h.roster.mp he'
      exact ⟨e, he, rfl, rfl⟩
  ula := by
    intro id id' e e' he he' heq
    obtain ⟨x, hx, rfl, rfl⟩ := h.roster.mp he
    obtain ⟨y, hy, rfl, rfl⟩ := h.roster.mp he'
    have hxy : x = y := List.inj_on_of_nodup_map hd.ula hx hy heq
    rw [hxy]
  counter := by
    intro id e he
    obtain ⟨x, hx, rfl, rfl⟩ := h.roster.mp he
    exact h.le_counter x hx
  store := hstore

namespace RosterState

variable {m : RosterState}

theorem Inv.load (h : m.Inv G) (file : Option Nat) : GoodSnapshot G (m.load file) := by
  have hempty : GoodSnapshot G [] := ⟨[], ⟨by simp, by simp, by simp⟩, by simp, rfl⟩
  unfold RosterState.load
  cases hf : file.bind (fun k => m.rosterStore[k]?) with
  | none => simpa using hempty
  | some peers =>
    obtain ⟨k, -, hk⟩ := Option.bind_eq_some_iff.mp hf
    exact h.store peers (List.mem_of_getElem? hk)

theorem Inv.restart_restoredFrom (h : m.Inv G) (now : Nat) (file : Option Nat) :
    ∃ l, Distinct l ∧ (∀ e ∈ l, e.Seated G) ∧ m.load file = l.map PeerEntry.toJoinedEvent ∧
      RestoredFrom now l (m.restart now file) := by
  obtain ⟨l, hd, hs, hl⟩ := h.load file
  obtain ⟨m', hm', hr⟩ := restoreAll_fresh now hd m.rosterStore
  refine ⟨l, hd, hs, hl, ?_⟩
  rw [RosterState.restart, hl, restoreEvents_of_restoreAll hm']
  exact hr

theorem Inv.restart (h : m.Inv G) (now : Nat) (file : Option Nat) : (m.restart now file).Inv G := by
  obtain ⟨l, hd, hs, -, hr⟩ := h.restart_restoredFrom now file
  refine hr.inv hd hs ?_
  rw [RosterState.restart, rosterStore_restoreEvents]
  exact h.store

omit [Crates] in
theorem NextUla.addressFor {network : String} {ula : Ipv6Addr} (h : m.NextUla network ula) :
    ∃ idx, m.allocator.perNetwork (networkSlot network) < idx ∧
      ula = UlaAllocator.addressFor (networkSlot network) idx := by
  obtain ⟨a, idx, ha⟩ := h
  exact ⟨idx, UlaAllocator.lt_of_allocateInSlot_eq_ok ha,
    (UlaAllocator.allocateInSlot_eq_ok ha).2.2.1⟩

theorem Inv.nextUla_free (h : m.Inv G) {network : String} {ula : Ipv6Addr}
    (hn : m.NextUla network ula) {id : Uuid} {e : PeerEntry} (he : m.roster.lookup id = some e) :
    e.ula ≠ ula := by
  obtain ⟨idx, hlt, rfl⟩ := hn.addressFor
  apply addressFor_ne_of_lt
  intro hs
  have hle := h.counter he
  rw [hs] at hle
  exact UInt16.lt_of_le_of_lt hle hlt

theorem Inv.touch (h : m.Inv G) {id : Uuid} {f : PeerEntry → PeerEntry}
    (hf : ∀ e, m.roster.lookup id = some e → SameSeat e (f e)) :
    ({ m with roster := m.roster.modify id f } : RosterState).Inv G := by
  -- every entry afterwards has the seat of an entry before
  have old : ∀ {k e'}, (m.roster.modify id f).lookup k = some e' →
      ∃ e, m.roster.lookup k = some e ∧ SameSeat e e' := by
    intro k e' he'
    rw [AList.lookup_modify] at he'
    split at he'
    · rename_i hk
      subst hk
      obtain ⟨e, he, rfl⟩ := Option.map_eq_some_iff.mp he'
      exact ⟨e, he, hf e he⟩
    · exact ⟨e', he', SameSeat.refl _⟩
  have new : ∀ {k e}, m.roster.lookup k = some e →
      ∃ e', (m.roster.modify id f).lookup k = some e' ∧ SameSeat e e' := by
    intro k e he
    rw [AList.lookup_modify]
    split
    · rename_i hk
      subst hk
      exact ⟨f e, by rw [he]; rfl, hf e he⟩
    · exact ⟨e, he, SameSeat.refl _⟩
  constructor
  case keyed =>
    intro k e' he'
    obtain ⟨e, he, hs⟩ := old he'
    rw [hs.peerId, h.keyed he]
  case seated =>
    intro k e' he'
    obtain ⟨e, he, hs⟩ := old he'
    exact hs.seated (h.seated he)
  case index =>
    intro k p
    rw [h.index]
    constructor
    · rintro ⟨e, he, rfl⟩
      obtain ⟨e', he', hs⟩ := new he
      exact ⟨e', he', hs.wgPublicKey⟩
    · rintro ⟨e', he', rfl⟩
      obtain ⟨e, he, hs⟩ := old he'
      exact ⟨e, he, hs.wgPublicKey.symm⟩
  case ula =>
    intro k k' e1 e2 h1 h2 heq
    obtain ⟨x, hx, hsx⟩ := old h1
    obtain ⟨y, hy, hsy⟩ := old h2
    exact h.ula hx hy (by rw [← hsx.ula, ← hsy.ula, heq])
  case counter =>
    intro k e' he'
    obtain ⟨e, he, hs⟩ := old he'
    rw [hs.ula]
    exact h.counter he
  case store => exact h.store

theorem Inv.insertEntry (h : m.Inv G) {e : PeerEntry} (hs : e.Seated G)
    (hid : m.roster.lookup e.peerId = none) (hkey : m.byPubkey.lookup e.wgPublicKey = none)
    (hula : ∀ x ∈ m.roster.values, x.ula ≠ e.ula) : (m.insertEntry e).Inv G := by
  have split : ∀ {k x}, (m.insertEntry e).roster.lookup k = some x →
      (k = e.peerId ∧ x = e) ∨ (k ≠ e.peerId ∧ m.roster.lookup k = some x) := by
    intro k x hx
    rw [RosterState.insertEntry, AList.lookup_insert_eq_ite] at hx
    by_cases hk : k = e.peerId
    · rw [if_pos hk] at hx
      exact .inl ⟨hk, (Option.some.inj hx).symm⟩
    · rw [if_neg hk] at hx
      exact .inr ⟨hk, hx⟩
  have hself : (m.insertEntry e).roster.lookup e.peerId = some e := by
    rw [RosterState.insertEntry, AList.lookup_insert]
  have hother : ∀ {k x}, m.roster.lookup k = some x →
      (m.insertEntry e).roster.lookup k = some x := by
    intro k x hx
    have hk : k ≠ e.peerId := by
      rintro rfl
      rw [hid] at hx
      exact absurd hx (by simp)
    rw [RosterState.insertEntry, AList.lookup_insert_ne hk, hx]
  constructor
  case keyed =>
    intro k x hx
    rcases split hx with ⟨rfl, rfl⟩ | ⟨-, hx⟩
    · rfl
    · exact h.keyed hx
  case seated =>
    intro k x hx
    rcases split hx with ⟨rfl, rfl⟩ | ⟨-, hx⟩
    · exact hs
    · exact h.seated hx
  case index =>
    intro k p
    rw [RosterState.insertEntry, AList.lookup_insert_eq_ite]
    constructor
    · intro hk
      by_cases hke : k = e.wgPublicKey
      · rw [if_pos hke] at hk
        obtain rfl := Option.some.inj hk
        exact ⟨e, hself, hke.symm⟩
      · rw [if_neg hke] at hk
        obtain ⟨x, hx, hxk⟩ := h.index.mp hk
        exact ⟨x, hother hx, hxk⟩
    · rintro ⟨x, hx, rfl⟩
      rcases split hx with ⟨rfl, rfl⟩ | ⟨-, hx⟩
      · rw [if_pos rfl]
      · have hk := h.index.mpr ⟨x, hx, rfl⟩
        have hne : x.wgPublicKey ≠ e.wgPublicKey := by
          intro hc
          rw [hc, hkey] at hk
          exact absurd hk (by simp)
        rw [if_neg hne, hk]
  case ula =>
    intro k k' x y hx hy heq
    rcases split hx with ⟨rfl, rfl⟩ | ⟨-, hx'⟩
    · rcases split hy with ⟨rfl, rfl⟩ | ⟨-, hy⟩
      · rfl
      · exact absurd heq.symm (hula y (AList.lookup_mem_values hy))
    · rcases split hy with ⟨rfl, rfl⟩ | ⟨-, hy⟩
      · exact absurd heq (hula x (AList.lookup_mem_values hx'))
      · exact h.ula hx' hy heq
  case counter =>
    intro k x hx
    rcases split hx with ⟨rfl, rfl⟩ | ⟨-, hx⟩
    · exact UlaAllocator.le_bumpSlotAtLeast_self _ _ _
    · exact UInt16.le_trans (h.counter hx) (UlaAllocator.le_bumpSlotAtLeast _ _ _ _)
  case store => exact h.store

theorem Inv.congr {m' : RosterState} (h : m.Inv G)
    (hr : ∀ k, m'.roster.lookup k = m.roster.lookup k)
    (hb : ∀ k, m'.byPubkey.lookup k = m.byPubkey.lookup k) (ha : m'.allocator = m.allocator)
    (hs : m'.rosterStore = m.rosterStore) : m'.Inv G := by
  constructor
  case keyed => intro k e he; rw [hr] at he; exact h.keyed he
  case seated => intro k e he; rw [hr] at he; exact h.seated he
  case index => intro k p; simp only [hb, hr]; exact h.index
  case ula => intro k k' e e' he he'; rw [hr] at he he'; exact h.ula he he'
  case counter => intro k e he; rw [hr] at he; rw [ha]; exact h.counter he
  case store => rw [hs]; exact h.store

theorem Inv.leave (h : m.Inv G) {id : Uuid} {e : PeerEntry} (he : m.roster.lookup id = some e) :
    ({ m with roster := m.roster.erase id, byPubkey := m.byPubkey.erase e.wgPublicKey } :
      RosterState).Inv G := by
  have hold : ∀ {k x}, (m.roster.erase id).lookup k = some x ↔
      k ≠ id ∧ m.roster.lookup k = some x := by
    intro k x
    rw [AList.lookup_erase_eq_ite]
    by_cases hk : k = id <;> simp [hk]
  constructor
  case keyed => intro k x hx; exact h.keyed (hold.mp hx).2
  case seated => intro k x hx; exact h.seated (hold.mp hx).2
  case index =>
    intro k p
    rw [AList.lookup_erase_eq_ite]
    constructor
    · intro hk
      split at hk
      · exact absurd hk (by simp)
      · rename_i hne
        obtain ⟨x, hx, rfl⟩ := h.index.mp hk
        refine ⟨x, hold.mpr ⟨?_, hx⟩, rfl⟩
        rintro rfl
        rw [he] at hx
        exact hne (by rw [Option.some.inj hx])
    · rintro ⟨x, hx', rfl⟩
      obtain ⟨hne, hx⟩ := hold.mp hx'
      have hkey : x.wgPublicKey ≠ e.wgPublicKey := fun hc => hne (h.wgPublicKey hx he hc)
      rw [if_neg hkey]
      exact h.index.mpr ⟨x, hx, rfl⟩
  case ula => intro k k' x y hx hy; exact h.ula (hold.mp hx).2 (hold.mp hy).2
  case counter => intro k x hx; exact h.counter (hold.mp hx).2
  case store => exact h.store

theorem Inv.rehome (h : m.Inv G) {id : Uuid} {e : PeerEntry} {f : PeerEntry → PeerEntry}
    {network : String} {allocator : UlaAllocator} {idx : UInt16} {ula : Ipv6Addr}
    (he : m.roster.lookup id = some e)
    (ha : m.allocator.allocate network = .ok (allocator, idx, ula)) (hf : SameSeat e (f e))
    (hg : G id ula) :
    ({ m with
        allocator := allocator
        roster := m.roster.modify id (fun x => rehomedEntry network ula idx (f x)) } :
      RosterState).Inv G := by
  obtain ⟨-, -, rfl, hal⟩ := UlaAllocator.allocateInSlot_eq_ok ha
  have hleft := h.leave he
  have hid : (rehomedEntry network (UlaAllocator.addressFor (networkSlot network) idx) idx
      (f e)).peerId = id := hf.peerId.trans (h.keyed he)
  have hkey := hf.wgPublicKey
  have hseat : (rehomedEntry network (UlaAllocator.addressFor (networkSlot network) idx) idx
      (f e)).Seated G :=
    { granted := by rw [hid]; exact hg
      index := rfl
      uniqueLocal := isUniqueLocal_addressFor _ _
      slotBound := fun _ _ => rfl
      endpoint := hf.endpoint (h.seated he).endpoint }
  refine (hleft.insertEntry hseat ?_ ?_ ?_).congr ?_ ?_ ?_ rfl
  · rw [hid]
    simp
  · rw [rehomedEntry, hkey]
    simp
  · intro x hx
    obtain ⟨k, hk⟩ := AList.mem_values_iff.mp hx
    rw [AList.lookup_erase_eq_ite] at hk
    split at hk
    · exact absurd hk (by simp)
    · exact h.nextUla_free ⟨allocator, idx, ha⟩ hk
  · intro k
    rw [RosterState.insertEntry, hid, AList.lookup_insert_eq_ite, AList.lookup_erase_eq_ite,
      AList.lookup_modify]
    by_cases hk : k = id
    · subst hk
      simp [he]
    · simp [hk]
  · intro k
    have hk' : (rehomedEntry network (UlaAllocator.addressFor (networkSlot network) idx) idx
      (f e)).wgPublicKey = e.wgPublicKey := hkey
    rw [RosterState.insertEntry, hk', hid, AList.lookup_insert_eq_ite, AList.lookup_erase_eq_ite]
    by_cases hk : k = e.wgPublicKey
    · subst hk
      simp [h.index.mpr ⟨e, he, rfl⟩]
    · simp [hk]
  · exact hal

theorem Step.inv {m' : RosterState} {g : Option Grant} (hstep : Step m g m') (h : m.Inv G) :
    m'.Inv (Extend G g.toList) := by
  have h' := h.mono (extend_left g.toList)
  cases hstep with
  | touch id f hf => exact h'.touch hf
  | reorder l hl => exact h'.congr (fun k => AList.lookup_reorder _ _ hl k) (fun _ => rfl) rfl rfl
  | join e sequential hid hkey hula hindex hul hslot hend hseq =>
    exact h'.insertEntry ⟨.inr ⟨_, List.mem_singleton_self _, rfl, rfl⟩, hindex, hul, hslot, hend⟩
      hid hkey hula
  | rehome id network f he ha hf => exact h'.rehome he ha hf (.inr ⟨_, List.mem_singleton_self _, rfl, rfl⟩)
  | leave he => exact h'.leave he
  | save =>
    refine { h' with store := ?_ }
    intro peers hp
    rcases List.mem_cons.mp hp with rfl | hp
    · exact h'.goodSnapshot
    · exact h'.store peers hp

theorem Steps.inv {m' : RosterState} {gs : List Grant} (hs : Steps m gs m') (h : m.Inv G) :
    m'.Inv (Extend G gs) := by
  induction hs with
  | refl => exact h.mono (extend_left [])
  | tail _ hstep ih =>
    refine (hstep.inv ih).mono ?_
    rintro id ula ((hG | ⟨g, hg, heq⟩) | ⟨g, hg, heq⟩)
    · exact .inl hG
    · exact .inr ⟨g, List.mem_append_left _ hg, heq⟩
    · exact .inr ⟨g, List.mem_append_right _ hg, heq⟩

omit [Crates] in
theorem extend_nil {id : Uuid} {ula : Ipv6Addr} (h : Extend G [] id ula) : G id ula := by
  rcases h with h | ⟨g, hg, -⟩
  · exact h
  · simp at hg

theorem Steps.inv_quiet {m' : RosterState} (hs : Steps m [] m') (h : m.Inv G) : m'.Inv G :=
  (hs.inv h).mono fun _ _ => extend_nil

end RosterState

end ServiceMesh
