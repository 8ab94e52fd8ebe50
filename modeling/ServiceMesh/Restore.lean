import ServiceMesh.Seats

/-! Replaying a saved snapshot into an empty coordinator: no event of a good snapshot is
refused, and the result is the snapshot's entries with their key index and counters. -/

namespace ServiceMesh

open StdNet (Ipv6Addr)

variable [Crates]

def restoredEntry (now : Nat) (e : PeerEntry) : PeerEntry :=
  RosterState.joinedEntry e.toJoinedEvent e.peerId e.ula now

structure RestoredFrom (now : Nat) (l : List PeerEntry) (m : RosterState) : Prop where
  roster : ∀ {id e'}, m.roster.lookup id = some e' ↔
    ∃ e ∈ l, e.peerId = id ∧ e' = restoredEntry now e
  byPubkey : ∀ {k id}, m.byPubkey.lookup k = some id ↔
    ∃ e ∈ l, e.wgPublicKey = k ∧ e.peerId = id
  le_counter : ∀ e ∈ l, e.ula.seg3 ≤ m.allocator.perNetwork e.ula.seg2
  counter : ∀ slot, m.allocator.perNetwork slot = 0 ∨
    ∃ e ∈ l, e.ula.seg2 = slot ∧ e.ula.seg3 = m.allocator.perNetwork slot

namespace RosterState

def restoreAll (now : Nat) (m : RosterState) (peers : List PeerJoined) :
    Except CoordinatorError RosterState :=
  peers.foldlM (fun m event => (m.applyPeerJoined now event).map Prod.fst) m

theorem restoreEvents_of_restoreAll {now : Nat} {m m' : RosterState} {peers : List PeerJoined}
    (h : restoreAll now m peers = .ok m') : restoreEvents now m peers = m' := by
  induction peers generalizing m with
  | nil => simpa [restoreAll, restoreEvents, pure, Except.pure] using h
  | cons event peers ih =>
    rw [restoreAll, List.foldlM_cons] at h
    cases happ : m.applyPeerJoined now event with
    | error e => simp [happ, Except.map, bind, Except.bind] at h
    | ok r =>
      simp only [happ, Except.map, bind, Except.bind] at h
      have hrest := ih h
      simp only [restoreEvents, List.foldl_cons, happ]
      exact hrest

theorem applyPeerJoined_entry {now : Nat} {m m' : RosterState} {event : PeerJoined}
    {entry : PeerEntry} (h : m.applyPeerJoined now event = .ok (m', entry)) :
    ∃ id ula, Uuid.parseStr event.peerId = .ok id ∧ Ipv6Addr.parse event.ula = some ula ∧
      entry = joinedEntry event id ula now ∧ m' = m.insertEntry entry := by
  unfold applyPeerJoined at h
  split at h
  · simp at h
  · rename_i id hid
    split at h
    · simp at h
    · rename_i ula hula
      split at h
      · simp at h
      · simp only [Except.ok.injEq, Prod.mk.injEq] at h
        obtain ⟨rfl, rfl⟩ := h
        exact ⟨id, ula, hid, hula, rfl, rfl⟩

theorem applyPeerJoined_eq_ok {now : Nat} {m m' : RosterState} {event : PeerJoined}
    {entry : PeerEntry} (h : m.applyPeerJoined now event = .ok (m', entry)) :
    Ipv6Addr.parse event.ula = some entry.ula ∧ m' = m.insertEntry entry := by
  obtain ⟨id, ula, -, hula, rfl, hm⟩ := applyPeerJoined_entry h
  exact ⟨hula, hm⟩

theorem rosterStore_restoreEvents (now : Nat) (m : RosterState) (peers : List PeerJoined) :
    (restoreEvents now m peers).rosterStore = m.rosterStore := by
  induction peers generalizing m with
  | nil => rfl
  | cons event peers ih =>
    simp only [restoreEvents, List.foldl_cons]
    refine (ih _).trans ?_
    split
    · rename_i h
      rw [(applyPeerJoined_eq_ok h).2]
      rfl
    · rfl

theorem applyPeerJoined_of_free {now : Nat} {m : RosterState} {event : PeerJoined} {id : Uuid}
    {ula : Ipv6Addr} (hid : event.peerId = id.toString) (hula : event.ula = ula.toString)
    (hfree : ∀ x ∈ m.roster.values, x.ula ≠ ula) :
    m.applyPeerJoined now event =
      .ok (m.insertEntry (joinedEntry event id ula now), joinedEntry event id ula now) := by
  have hno : m.roster.values.any (fun x => x.ula == ula && x.peerId != id) = false := by
    rw [List.any_eq_false]
    intro x hx
    simp [hfree x hx]
  simp [applyPeerJoined, hid, hula, hno]

end RosterState

omit [Crates] in
theorem Distinct.of_append_cons {done todo : List PeerEntry} {e : PeerEntry}
    (h : Distinct (done ++ e :: todo)) {x : PeerEntry} (hx : x ∈ done) :
    x.peerId ≠ e.peerId ∧ x.wgPublicKey ≠ e.wgPublicKey ∧ x.ula ≠ e.ula := by
  have key {β : Type} (f : PeerEntry → β) (hf : ((done ++ e :: todo).map f).Nodup) : f x ≠ f e := by
    rw [List.map_append, List.nodup_append] at hf
    exact hf.2.2 (f x) (List.mem_map_of_mem hx) (f e) (by simp)
  exact ⟨key _ h.peerId, key _ h.wgPublicKey, key _ h.ula⟩

theorem RestoredFrom.insertEntry {now : Nat} {l : List PeerEntry} {m : RosterState} {e : PeerEntry}
    (h : RestoredFrom now l m)
    (hne : ∀ x ∈ l, x.peerId ≠ e.peerId ∧ x.wgPublicKey ≠ e.wgPublicKey ∧ x.ula ≠ e.ula) :
    RestoredFrom now (l ++ [e]) (m.insertEntry (restoredEntry now e)) where
  roster := by
    intro id e'
    rw [RosterState.insertEntry, AList.lookup_insert_eq_ite]
    by_cases hid : id = e.peerId
    · subst hid
      have hnone : ∀ x ∈ l, x.peerId ≠ e.peerId := fun x hx => (hne x hx).1
      simp only [restoredEntry, RosterState.joinedEntry, if_true, Option.some.injEq, List.mem_append,
        List.mem_singleton]
      constructor
      · rintro rfl
        exact ⟨e, .inr rfl, rfl, rfl⟩
      · rintro ⟨x, hx | rfl, hid, rfl⟩
        · exact absurd hid (hnone x hx)
        · rfl
    · have hid' : id ≠ (restoredEntry now e).peerId := hid
      rw [if_neg hid', h.roster]
      simp only [List.mem_append, List.mem_singleton]
      constructor
      · rintro ⟨x, hx, rfl, rfl⟩
        exact ⟨x, .inl hx, rfl, rfl⟩
      · rintro ⟨x, hx | rfl, hx', rfl⟩
        · exact ⟨x, hx, hx', rfl⟩
        · exact absurd hx'.symm hid
  byPubkey := by
    intro k id
    rw [RosterState.insertEntry, AList.lookup_insert_eq_ite]
    by_cases hk : k = e.wgPublicKey
    · have hk' : k = (restoredEntry now e).wgPublicKey := hk
      rw [if_pos hk']
      simp only [Option.some.injEq, List.mem_append, List.mem_singleton]
      constructor
      · rintro rfl
        exact ⟨e, .inr rfl, hk.symm, rfl⟩
      · rintro ⟨x, hx | rfl, hxk, rfl⟩
        · exact absurd (hxk.trans hk) (hne x hx).2.1
        · rfl
    · have hk' : k ≠ (restoredEntry now e).wgPublicKey := hk
      rw [if_neg hk', h.byPubkey]
      simp only [List.mem_append, List.mem_singleton]
      constructor
      · rintro ⟨x, hx, rfl, rfl⟩
        exact ⟨x, .inl hx, rfl, rfl⟩
      · rintro ⟨x, hx | rfl, hxk, rfl⟩
        · exact ⟨x, hx, hxk, rfl⟩
        · exact absurd hxk.symm hk
  le_counter := by
    intro x hx
    rcases List.mem_append.mp hx with hx | hx
    · exact UInt16.le_trans (h.le_counter x hx) (UlaAllocator.le_bumpSlotAtLeast _ _ _ _)
    · rw [List.mem_singleton.mp hx]
      exact UlaAllocator.le_bumpSlotAtLeast_self _ _ _
  counter := by
    intro slot
    have hval : (m.insertEntry (restoredEntry now e)).allocator.perNetwork slot =
        if slot = e.ula.seg2 ∧ m.allocator.perNetwork e.ula.seg2 < e.ula.seg3 then e.ula.seg3
        else m.allocator.perNetwork slot :=
      UlaAllocator.perNetwork_bumpSlotAtLeast _ _ _ _
    rw [hval]
    by_cases hb : slot = e.ula.seg2 ∧ m.allocator.perNetwork e.ula.seg2 < e.ula.seg3
    · rw [if_pos hb]
      exact .inr ⟨e, by simp, hb.1.symm, rfl⟩
    · rw [if_neg hb]
      rcases h.counter slot with h0 | ⟨x, hx, hs, hi⟩
      · exact .inl h0
      · exact .inr ⟨x, List.mem_append_left _ hx, hs, hi⟩

theorem RestoredFrom.restoreAll {now : Nat} {done todo : List PeerEntry} {m : RosterState}
    (h : RestoredFrom now done m) (hd : Distinct (done ++ todo)) :
    ∃ m', RosterState.restoreAll now m (todo.map PeerEntry.toJoinedEvent) = .ok m' ∧
      RestoredFrom now (done ++ todo) m' := by
  induction todo generalizing done m with
  | nil => exact ⟨m, rfl, by simpa using h⟩
  | cons e todo ih =>
    have hne : ∀ x ∈ done, x.peerId ≠ e.peerId ∧ x.wgPublicKey ≠ e.wgPublicKey ∧ x.ula ≠ e.ula :=
      fun x hx => hd.of_append_cons hx
    have hfree : ∀ x ∈ m.roster.values, x.ula ≠ e.ula := by
      intro x hx
      obtain ⟨id, hid⟩ := AList.mem_values_iff.mp hx
      obtain ⟨y, hy, -, rfl⟩ := h.roster.mp hid
      exact (hne y hy).2.2
    have hd' : Distinct ((done ++ [e]) ++ todo) := by simpa using hd
    obtain ⟨m', hm', hr⟩ := ih (h.insertEntry hne) hd'
    refine ⟨m', ?_, by simpa using hr⟩
    rw [RosterState.restoreAll, List.map_cons, List.foldlM_cons,
      RosterState.applyPeerJoined_of_free rfl rfl hfree]
    exact hm'

theorem RestoredFrom.fresh (now : Nat) (store : List (List PeerJoined)) :
    RestoredFrom now [] (RosterState.fresh store) where
  roster := by simp [RosterState.fresh]
  byPubkey := by simp [RosterState.fresh]
  le_counter := by simp
  counter := fun _ => .inl rfl

theorem restoreAll_fresh (now : Nat) {l : List PeerEntry} (hd : Distinct l)
    (store : List (List PeerJoined)) :
    ∃ m, RosterState.restoreAll now (RosterState.fresh store) (l.map PeerEntry.toJoinedEvent) =
      .ok m ∧ RestoredFrom now l m := by
  have hd' : Distinct ([] ++ l) := by simpa using hd
  simpa using (RestoredFrom.fresh now store).restoreAll hd'

end ServiceMesh
