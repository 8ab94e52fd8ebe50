import ServiceMesh.Ghosts

/-! Removals for want of heartbeats. A sweep and an eviction judge a peer in one step and remove
it in a later one; in between the peer may be heard from. -/

namespace ServiceMesh

open StdNet (Ipv6Addr)

def Move.now? : Move → Option Nat
  | .start _ => none
  | .advance _ amb => some amb.now

def Deed.stamps : Deed → Option Uuid
  | .stamped peerId => some peerId
  | _ => Option.none

def Deed.expires : Deed → Option Uuid
  | .expired peerId => some peerId
  | _ => Option.none

def HeardFrom (tr : List (Move × Deed)) (id : Uuid) (t : Nat) : Prop :=
  ∃ x ∈ tr, x.1.now? = some t ∧ x.2.stamps = some id

instance (tr : List (Move × Deed)) (id : Uuid) (t : Nat) : Decidable (HeardFrom tr id t) :=
  inferInstanceAs (Decidable (∃ x ∈ tr, x.1.now? = some t ∧ x.2.stamps = some id))

theorem Move.le_of_notBefore {move : Move} {handle : Nat} {amb : Ambient} {t : Nat}
    (h : move.NotBefore (.advance handle amb)) (ht : move.now? = some t) : t ≤ amb.now := by
  cases move with
  | start call => cases ht
  | advance other amb' =>
    obtain rfl : amb'.now = t := Option.some.inj ht
    exact h

def Thread.condemned : Thread → List Uuid
  | .leave .timeout peerId .find rest _ => peerId :: rest
  | .leave .timeout peerId (.remove _ _) rest _ => peerId :: rest
  | .leave .timeout _ (.announce _) rest _ => rest
  | .leave .timeout _ .persist rest _ => rest
  | .enrol _ (.readTags holderId _) => [holderId]
  | .enrol _ (.announceEvicted holderId _ _) => [holderId]
  | .enrol _ (.evict holderId _) => [holderId]
  | _ => []

section

variable [Crates]

/-- No heartbeat and no register of a peer is accepted while a thread that found the peer stale
has still to remove it. -/
def SparesCondemned (p : Process) : Move → Prop
  | .start _ => True
  | .advance handle _ =>
    match p.threads[handle]? with
    | none => True
    | some t =>
      match (t.deed p.shared).stamps with
      | none => True
      | some id => ∀ u ∈ p.threads, id ∉ u.condemned

instance (p : Process) : (move : Move) → Decidable (SparesCondemned p move)
  | .start _ => .isTrue trivial
  | .advance handle amb =>
    match h : p.threads[handle]? with
    | none => .isTrue (by simp only [SparesCondemned, h])
    | some t =>
      match hd : (t.deed p.shared).stamps with
      | none => .isTrue (by simp only [SparesCondemned, h, hd])
      | some id =>
        decidable_of_iff (∀ u ∈ p.threads, id ∉ u.condemned) (by simp only [SparesCondemned, h, hd])

theorem heartbeatTimeout_applyPeerLeft (c : Coordinator) (event : PeerLeft) :
    (c.applyPeerLeft event).heartbeatTimeout = c.heartbeatTimeout := by
  unfold Coordinator.applyPeerLeft
  split
  · rfl
  · split <;> rfl

theorem heartbeatTimeout_tryEmitHolepunchPair (now : Int) (a : PeerEntry) (c : Coordinator)
    (b : PeerEntry) :
    (Coordinator.tryEmitHolepunchPair now a c b).heartbeatTimeout = c.heartbeatTimeout := by
  unfold Coordinator.tryEmitHolepunchPair
  split
  · split <;> rfl
  · rfl

theorem heartbeatTimeout_routeUplink (c : Coordinator) (now : Nat) (wallMicros : Int)
    (myPubkey buf : List UInt8) :
    (c.routeUplink now wallMicros myPubkey buf).1.heartbeatTimeout = c.heartbeatTimeout := by
  unfold Coordinator.routeUplink Coordinator.noteRelayPairForwarded Coordinator.wakeDestination
  dsimp only
  repeat' split
  all_goals rfl

theorem Mesh.single_heartbeatTimeout (s : Mesh) {op : Op} (h : op.isSingle = true) :
    (s.step op).1.coordinator.heartbeatTimeout = s.coordinator.heartbeatTimeout := by
  have hleaves := s.leaves op
  generalize (s.step op).1.coordinator = c at hleaves ⊢
  cases hleaves with
  | register | heartbeat | deregister | sweep | policy | restart => cases h
  | uplink => exact heartbeatTimeout_routeUplink _ _ _ _ _
  | _ => rfl

omit [Crates] in
theorem Coordinator.mem_stalePeers {c : Coordinator} {now : Nat} {id : Uuid} :
    id ∈ c.stalePeers now ↔
      ∃ e, c.roster.lookup id = some e ∧ c.heartbeatTimeout < now - e.lastHeartbeat := by
  simp only [stalePeers, List.mem_filterMap]
  constructor
  · rintro ⟨⟨k, e⟩, hmem, hkey⟩
    split at hkey
    · rename_i hstale
      obtain rfl : k = id := Option.some.inj hkey
      exact ⟨e, AList.mem_lookup_iff.mpr hmem, hstale⟩
    · cases hkey
  · rintro ⟨e, he, hstale⟩
    exact ⟨⟨id, e⟩, AList.mem_lookup_iff.mp he, if_pos hstale⟩

namespace Thread

variable {t : Thread} {amb : Ambient} {s : Shared} {id : Uuid}

theorem heartbeatTimeout_step (t : Thread) (amb : Ambient) (s : Shared) :
    (t.step amb s).1.coordinator.heartbeatTimeout = s.coordinator.heartbeatTimeout := by
  cases t with
  | enrol r pc =>
    cases pc with
    | evict holderId leftAt => exact heartbeatTimeout_applyPeerLeft _ _
    | _ =>
      simp only [step, EnrolPc.step]
      repeat' split
      all_goals rfl
  | beat b pc =>
    cases pc with
    | punch snapshot now candidates =>
      cases candidates with
      | nil => rfl
      | cons candidate candidates => exact heartbeatTimeout_tryEmitHolepunchPair _ _ _ _
    | _ =>
      simp only [step, BeatPc.step, Coordinator.recordPeerPaths, Coordinator.ackCommands]
      repeat' split
      all_goals rfl
  | leave reason peerId pc rest reply =>
    cases pc with
    | find =>
      simp only [step, LeavePc.step]
      split <;> rfl
    | remove tags leftAt => exact heartbeatTimeout_applyPeerLeft _ _
    | announce | persist => rfl
  | stream pc =>
    cases pc with
    | findViewer peerId =>
      simp only [step, StreamPc.step]
      split <;> rfl
    | subscribe | snapshot | attach => rfl
  | single op h => exact s.mesh.single_heartbeatTimeout h
  | resync peers => cases peers <;> rfl
  | arrive | replacePolicy =>
    simp only [step]
    split <;> rfl
  | reap | listStale | listPeers | done => rfl

omit [Crates] in
theorem ifPresent_eq {peerId : Uuid} {deed : Deed} (hdeed : s.ifPresent peerId deed ≠ .none) :
    s.ifPresent peerId deed = deed ∧ ∃ e, s.coordinator.roster.lookup peerId = some e := by
  unfold Shared.ifPresent at hdeed ⊢
  split at hdeed
  · rename_i hsome
    rw [if_pos hsome]
    exact ⟨rfl, Option.isSome_iff_exists.mp hsome⟩
  · exact absurd rfl hdeed

inductive Timed (s : Shared) : Thread → Deed → Prop
  | insert (r : Enrolment) (id : Uuid) (ula : Ipv6Addr) (event : PeerJoined) :
      Timed s (.enrol r (.insert id ula event)) (.stamped id)
  | refresh (r : Enrolment) {id : Uuid} (realloc : Option (UInt16 × Ipv6Addr)) {e : PeerEntry} :
      s.coordinator.roster.lookup id = some e →
      Timed s (.enrol r (.refresh id realloc)) (.stamped id)
  | apply {b : Beat} {e : PeerEntry} : s.coordinator.roster.lookup b.peerId = some e →
      Timed s (.beat b .apply) (.stamped b.peerId)
  | remove {id : Uuid} (tags : List String) (leftAt : Int) (rest : List Uuid) (reply : Reply)
      {e : PeerEntry} : s.coordinator.roster.lookup id = some e →
      Timed s (.leave .timeout id (.remove tags leftAt) rest reply) (.expired id)
  | evict (r : Enrolment) {id : Uuid} (leftAt : Int) {e : PeerEntry} :
      s.coordinator.roster.lookup id = some e → Timed s (.enrol r (.evict id leftAt)) (.expired id)

theorem timed (h : (t.deed s).stamps ≠ none ∨ (t.deed s).expires ≠ none) :
    Timed s t (t.deed s) := by
  have hsome : t.deed s ≠ .none := by
    intro hnone
    simp [hnone, Deed.stamps, Deed.expires] at h
  unfold deed at h hsome ⊢
  split at h
  · exact .insert _ _ _ _
  · obtain ⟨hdeed, e, he⟩ := ifPresent_eq hsome
    rw [hdeed]
    exact .refresh _ _ he
  · obtain ⟨hdeed, e, he⟩ := ifPresent_eq hsome
    rw [hdeed]
    exact .apply he
  · obtain ⟨hdeed, e, he⟩ := ifPresent_eq hsome
    rw [hdeed]
    exact .remove _ _ _ _ he
  · obtain ⟨hdeed, e, he⟩ := ifPresent_eq hsome
    rw [hdeed]
    exact .evict _ _ he
  · simp [Deed.stamps, Deed.expires] at h
  · exfalso
    split at h
    · simp [Deed.stamps, Deed.expires] at h
    · split at h
      · simp [Deed.stamps, Deed.expires] at h
      · simp [Deed.stamps, Deed.expires] at h
  · simp [Deed.stamps, Deed.expires] at h

omit [Crates] in
theorem stamped_of_stamps {deed : Deed} (h : deed.stamps = some id) : deed = .stamped id := by
  cases deed with
  | stamped peerId => exact congrArg Deed.stamped (Option.some.inj h)
  | _ => cases h

omit [Crates] in
theorem expired_of_expires {deed : Deed} (h : deed.expires = some id) : deed = .expired id := by
  cases deed with
  | expired peerId => exact congrArg Deed.expired (Option.some.inj h)
  | _ => cases h

theorem lookup_of_stamps (amb : Ambient) (h : (t.deed s).stamps = some id) :
    ∃ e, (t.step amb s).1.coordinator.roster.lookup id = some e ∧ e.lastHeartbeat = amb.now := by
  have htimed : Timed s t (t.deed s) := timed (.inl (by simp [h]))
  rw [stamped_of_stamps h] at htimed
  cases htimed with
  | insert r _ ula event => exact ⟨_, AList.lookup_insert _, rfl⟩
  | @refresh r _ realloc e he =>
    refine ⟨r.refreshed realloc amb.now e, ?_, (standing_refreshed r realloc amb.now e).2⟩
    simp only [step, EnrolPc.step, he]
    change (s.coordinator.roster.modify id _).lookup id = _
    rw [AList.lookup_modify, if_pos rfl, he, Option.map_some]
  | @apply b e he =>
    simp only [step, BeatPc.step, RosterState.applyPeerHeartbeat, Uuid.parseStr_toString]
    change ∃ e', (s.coordinator.roster.modify b.peerId _).lookup b.peerId = some e' ∧ _
    rw [AList.lookup_modify, if_pos rfl, he, Option.map_some]
    exact ⟨_, rfl, rfl⟩

theorem lookup_of_not_stamps (h : (t.deed s).stamps ≠ some id) {e' : PeerEntry}
    (he' : (t.step amb s).1.coordinator.roster.lookup id = some e') :
    ∃ e, s.coordinator.roster.lookup id = some e ∧ e.lastHeartbeat = e'.lastHeartbeat := by
  have hstep := t.step_lookup amb s id
  rw [he'] at hstep
  generalize hbefore : s.coordinator.roster.lookup id = before at hstep
  generalize (t.step amb s).2 = t' at hstep
  generalize hafter : some e' = after at hstep
  cases hstep with
  | kept hkept =>
    subst hafter
    obtain ⟨e, he, hstanding⟩ := Option.map_eq_some_iff.mp hkept.symm
    exact ⟨e, he, congrArg Standing.lastHeartbeat hstanding⟩
  | beaten hid hstanding =>
    subst hid
    refine absurd ?_ h
    simp only [deed, Shared.ifPresent, hbefore, Option.isSome_some, if_true, Deed.stamps]
  | refreshed howes =>
    refine absurd ?_ h
    simp only [deed, Shared.ifPresent, hbefore, Option.isSome_some, if_true, Deed.stamps]
  | inserted howes => exact absurd rfl h
  | left howes => cases hafter
  | evicted => cases hafter

theorem expires_deed (h : (t.deed s).expires = some id) :
    id ∈ t.condemned ∧ ∃ e, s.coordinator.roster.lookup id = some e := by
  have htimed : Timed s t (t.deed s) := timed (.inr (by simp [h]))
  rw [expired_of_expires h] at htimed
  cases htimed with
  | remove tags leftAt rest reply he => exact ⟨List.mem_cons_self, _, he⟩
  | evict r leftAt he => exact ⟨List.mem_cons_self, _, he⟩

omit [Crates] in
theorem condemned_leaveAll (reply : Reply) (ids : List Uuid) :
    (leaveAll .timeout reply ids).condemned = ids := by
  cases ids <;> rfl

omit [Crates] in
theorem condemned_leaveAll_client (reply : Reply) (ids : List Uuid) :
    (leaveAll .client reply ids).condemned = [] := by
  cases ids <;> rfl

theorem condemned_step (h : id ∈ (t.step amb s).2.condemned) :
    id ∈ t.condemned ∨ ∀ e, (t.step amb s).1.coordinator.roster.lookup id = some e →
      s.coordinator.heartbeatTimeout < amb.now - e.lastHeartbeat := by
  cases t with
  | listStale =>
    right
    intro e he
    have hid : id ∈ s.coordinator.stalePeers amb.now := by
      rw [← condemned_leaveAll .done (s.coordinator.stalePeers amb.now)]
      exact h
    obtain ⟨e', he', hstale⟩ := Coordinator.mem_stalePeers.mp hid
    obtain rfl : e' = e := Option.some.inj (he'.symm.trans he)
    exact hstale
  | enrol r pc =>
    cases pc with
    | checkStale holderId =>
      simp only [step, EnrolPc.step] at h ⊢
      split at h
      · rename_i hstale
        right
        obtain rfl : id = holderId := List.mem_singleton.mp h
        rw [if_pos hstale]
        intro e he
        rw [he] at hstale
        exact of_decide_eq_true hstale
      · cases h
    | readTags | announceEvicted => exact .inl h
    | _ =>
      simp only [step, EnrolPc.step] at h
      repeat' split at h
      all_goals cases h
  | leave reason peerId pc rest reply =>
    left
    cases reason with
    | client =>
      cases pc with
      | find =>
        simp only [step, LeavePc.step] at h
        split at h
        · rw [condemned_leaveAll_client] at h
          cases h
        · cases h
      | persist =>
        change id ∈ (leaveAll .client reply rest).condemned at h
        rw [condemned_leaveAll_client] at h
        cases h
      | remove | announce => cases h
    | timeout =>
      cases pc with
      | find =>
        simp only [step, LeavePc.step] at h
        split at h
        · rw [condemned_leaveAll] at h
          exact List.mem_cons_of_mem _ h
        · exact h
      | remove tags leftAt => exact List.mem_cons_of_mem _ h
      | announce tags => exact h
      | persist =>
        change id ∈ (leaveAll .timeout reply rest).condemned at h
        rw [condemned_leaveAll] at h
        exact h
  | beat b pc =>
    cases pc with
    | punch snapshot now candidates => cases candidates <;> cases h
    | _ =>
      simp only [step, BeatPc.step] at h
      repeat' split at h
      all_goals cases h
  | resync peers => cases peers <;> cases h
  | stream pc =>
    cases pc with
    | findViewer peerId =>
      simp only [step, StreamPc.step] at h
      split at h <;> cases h
    | _ => cases h
  | arrive | replacePolicy =>
    simp only [step] at h
    split at h <;> cases h
  | _ => cases h

end Thread

structure Judged (tr : List (Move × Deed)) (p : Process) : Prop where
  heard : ∀ {id t}, HeardFrom tr id t → ∀ {e}, p.coordinator.roster.lookup id = some e →
    t ≤ e.lastHeartbeat
  condemned : ∀ {u}, u ∈ p.threads → ∀ {id}, id ∈ u.condemned → ∃ n, (∃ x ∈ tr, x.1.now? = some n) ∧
    ∀ {e}, p.coordinator.roster.lookup id = some e →
      p.coordinator.heartbeatTimeout < n - e.lastHeartbeat

namespace Judged

variable {tr : List (Move × Deed)} {p : Process}

theorem start (h : Judged tr p) (call : Call) :
    Judged ((.start call, .none) :: tr) ⟨p.shared, p.threads ++ [call.thread]⟩ := by
  refine ⟨?_, ?_⟩
  · rintro id t ⟨x, hx, hnow, hstamps⟩ e he
    rcases List.mem_cons.mp hx with rfl | hx
    · cases hnow
    · exact h.heard ⟨x, hx, hnow, hstamps⟩ he
  · intro u hu id hid
    rcases List.mem_append.mp hu with hu | hu
    · obtain ⟨n, ⟨x, hx, hnow⟩, hstale⟩ := h.condemned hu hid
      exact ⟨n, ⟨x, List.mem_cons_of_mem _ hx, hnow⟩, hstale⟩
    · -- a call that has not taken a step condemns nobody
      have hnone : call.thread.condemned = [] := by
        cases call with
        | heartbeat req observed | deregister peerId =>
          simp only [Call.thread]
          split <;> rfl
        | openStream peerId => cases peerId <;> rfl
        | _ => rfl
      rw [List.mem_singleton.mp hu, hnone] at hid
      cases hid

variable {handle : Nat} {t : Thread} {amb : Ambient}

theorem heard_after (h : Judged tr p)
    (hclock : ∀ x ∈ tr, x.1.NotBefore (.advance handle amb)) {id : Uuid} {n : Nat}
    (hheard : HeardFrom ((.advance handle amb, t.deed p.shared) :: tr) id n) {e : PeerEntry}
    (he : (p.after handle t amb).coordinator.roster.lookup id = some e) : n ≤ e.lastHeartbeat := by
  by_cases hstamps : (t.deed p.shared).stamps = some id
  · -- whatever was accepted before, this step has set the time
    obtain ⟨e', he', hnow⟩ := Thread.lookup_of_stamps amb hstamps
    obtain rfl : e' = e := Option.some.inj (he'.symm.trans he)
    rw [hnow]
    obtain ⟨x, hx, hn, -⟩ := hheard
    rcases List.mem_cons.mp hx with rfl | hx
    · exact le_of_eq (Option.some.inj hn).symm
    · exact Move.le_of_notBefore (hclock x hx) hn
  · obtain ⟨e', he', hsame⟩ := Thread.lookup_of_not_stamps hstamps he
    rw [← hsame]
    obtain ⟨x, hx, hn, hid⟩ := hheard
    rcases List.mem_cons.mp hx with rfl | hx
    · exact absurd hid hstamps
    · exact h.heard ⟨x, hx, hn, hid⟩ he'

theorem condemned_after (h : Judged tr p) (ht : p.threads[handle]? = some t)
    (hspares : SparesCondemned p (.advance handle amb)) {u : Thread}
    (hu : u ∈ (p.after handle t amb).threads) {id : Uuid} (hid : id ∈ u.condemned) :
    ∃ n, (∃ x ∈ (Move.advance handle amb, t.deed p.shared) :: tr, x.1.now? = some n) ∧
      ∀ {e}, (p.after handle t amb).coordinator.roster.lookup id = some e →
        (p.after handle t amb).coordinator.heartbeatTimeout < n - e.lastHeartbeat := by
  have htimeout : (p.after handle t amb).coordinator.heartbeatTimeout =
      p.coordinator.heartbeatTimeout := t.heartbeatTimeout_step amb p.shared
  -- a thread that condemned the peer before this step, whose entry the step may not renew
  have hold : ∀ v ∈ p.threads, id ∈ v.condemned → ∃ n,
      (∃ x ∈ (Move.advance handle amb, t.deed p.shared) :: tr, x.1.now? = some n) ∧
      ∀ {e}, (p.after handle t amb).coordinator.roster.lookup id = some e →
        (p.after handle t amb).coordinator.heartbeatTimeout < n - e.lastHeartbeat := by
    intro v hv hcondemned
    obtain ⟨n, ⟨x, hx, hnow⟩, hstale⟩ := h.condemned hv hcondemned
    refine ⟨n, ⟨x, List.mem_cons_of_mem _ hx, hnow⟩, ?_⟩
    intro e he
    have hunheard : (t.deed p.shared).stamps ≠ some id := by
      intro hstamps
      simp only [SparesCondemned, ht, hstamps] at hspares
      exact hspares v hv hcondemned
    obtain ⟨e', he', hsame⟩ := Thread.lookup_of_not_stamps hunheard he
    rw [htimeout, ← hsame]
    exact hstale he'
  rcases Process.of_mem_after hu with hu | rfl
  · exact hold u hu hid
  · rcases Thread.condemned_step hid with hcondemned | hjudged
    · exact hold t (List.mem_of_getElem? ht) hcondemned
    · refine ⟨amb.now, ⟨_, List.mem_cons_self, rfl⟩, ?_⟩
      intro e he
      rw [htimeout]
      exact hjudged e he

theorem step (h : Judged tr p) {move : Move} (hclock : ∀ x ∈ tr, x.1.NotBefore move)
    (hspares : SparesCondemned p move) : Judged ((move, (p.step move).2) :: tr) (p.step move).1 := by
  cases move with
  | start call => exact h.start call
  | advance handle amb =>
    cases ht : p.threads[handle]? with
    | none =>
      simp only [Process.step, ht]
      refine ⟨?_, ?_⟩
      · rintro id n ⟨x, hx, hnow, hstamps⟩ e he
        rcases List.mem_cons.mp hx with rfl | hx
        · cases hstamps
        · exact h.heard ⟨x, hx, hnow, hstamps⟩ he
      · intro u hu id hid
        obtain ⟨n, ⟨x, hx, hnow⟩, hstale⟩ := h.condemned hu hid
        exact ⟨n, ⟨x, List.mem_cons_of_mem _ hx, hnow⟩, hstale⟩
    | some t =>
      simp only [Process.step, ht]
      refine ⟨?_, ?_⟩
      · intro id n hheard e he
        exact h.heard_after hclock hheard he
      · intro u hu id hid
        exact h.condemned_after ht hspares hu hid

end Judged

theorem judged_of_run {s : Mesh} {tr : List (Move × Deed)} {p : Process}
    (h : (threads s).Run SparesCondemned tr p) : Judged tr p := by
  refine h.invariant (I := Judged) ⟨?_, ?_⟩ ?_
  · rintro id t ⟨x, hx, -⟩
    cases hx
  · intro u hu
    cases hu
  · intro tr p move _ hjudged hclock hspares
    exact hjudged.step hclock hspares

/-- In every run in which a peer is not heard from between the step that finds it stale and the one
that removes it, a peer that a sweep or an eviction removes was last heard from more than
`heartbeat_timeout` before. -/
theorem expired_peer_was_silent {s : Mesh} {tr : List (Move × Deed)} {p : Process}
    (h : (threads s).Run SparesCondemned tr p) {handle : Nat} {amb : Ambient}
    (hclock : (threads s).admits tr (.advance handle amb)) {id : Uuid}
    (hexpires : (p.step (.advance handle amb)).2.expires = some id) {t : Nat}
    (hheard : HeardFrom tr id t) : p.coordinator.heartbeatTimeout < amb.now - t := by
  have hjudged := judged_of_run h
  cases ht : p.threads[handle]? with
  | none =>
    simp only [Process.step, ht] at hexpires
    cases hexpires
  | some u =>
    simp only [Process.step, ht] at hexpires
    obtain ⟨hcondemned, e, he⟩ := Thread.expires_deed hexpires
    obtain ⟨n, ⟨x, hx, hnow⟩, hstale⟩ := hjudged.condemned (List.mem_of_getElem? ht) hcondemned
    have hlast : t ≤ e.lastHeartbeat := hjudged.heard hheard he
    have hearlier : n ≤ amb.now := Move.le_of_notBefore (hclock x hx) hnow
    have hgap : p.coordinator.heartbeatTimeout < n - e.lastHeartbeat := hstale he
    omega

end

attribute [local instance] referenceCrates

def stepsAt (now handle steps : Nat) (nowV7 : Uuid) : List Move :=
  List.replicate steps (.advance handle (ambientAt now nowV7))

def joinMoves : List Move :=
  .start (.register (opsRequest keyOne "fd5a:1f02:1::1") none none) :: stepsAt 0 0 12 1

def sweptMoves : List Move :=
  joinMoves ++ [.start .sweep] ++ stepsAt (secs 100) 1 3 0 ++
    [.start (.heartbeat (opsBeat 1) none)] ++ stepsAt (secs 100) 2 14 0

def evictedMoves : List Move :=
  joinMoves ++ [.start (.register (opsRequest keyTwo "fd5a:1f02:1::1") none none)] ++
    stepsAt (secs 100) 1 7 2 ++ [.start (.heartbeat (opsBeat 1) none)] ++ stepsAt (secs 100) 2 14 0

def ExpiresLive (moves : List Move) : Prop :=
  (threads opsStart).admits (movesRun moves).1 (.advance 1 (ambientAt (secs 101) 0)) ∧
  ((movesRun moves).2.step (.advance 1 (ambientAt (secs 101) 0))).2.expires = some 1 ∧
  HeardFrom (movesRun moves).1 1 (secs 100) ∧
  ¬ (movesRun moves).2.coordinator.heartbeatTimeout < secs 101 - secs 100

instance (moves : List Move) : Decidable (ExpiresLive moves) :=
  inferInstanceAs (Decidable (_ ∧ _ ∧ _ ∧ _))

theorem live_peer_expires :
    (threads opsStart).Reach (movesRun sweptMoves).1 (movesRun sweptMoves).2 ∧
    ExpiresLive sweptMoves ∧
    (threads opsStart).Reach (movesRun evictedMoves).1 (movesRun evictedMoves).2 ∧
    ExpiresLive evictedMoves := by
  have hswept : (threads opsStart).Admissible (fun _ _ => True) [] ⟨⟨opsStart, false⟩, []⟩
      sweptMoves ∧ ExpiresLive sweptMoves := by
    decide
  have hevicted : (threads opsStart).Admissible (fun _ _ => True) [] ⟨⟨opsStart, false⟩, []⟩
      evictedMoves ∧ ExpiresLive evictedMoves := by
    decide
  exact ⟨Machine.Run.start.exec hswept.1, hswept.2, Machine.Run.start.exec hevicted.1, hevicted.2⟩

def silentMoves : List Move :=
  joinMoves ++ [.start (.heartbeat (opsBeat 1) none)] ++ stepsAt (secs 10) 1 14 0 ++
    [.start .sweep] ++ stepsAt (secs 200) 2 3 0

theorem expired_peer_was_silent_swept :
    ((movesRun silentMoves).2.step (.advance 2 (ambientAt (secs 200) 0))).2.expires = some 1 ∧
    HeardFrom (movesRun silentMoves).1 1 (secs 10) ∧
    (movesRun silentMoves).2.coordinator.heartbeatTimeout < secs 200 - secs 10 := by
  have hall : (threads opsStart).Admissible SparesCondemned [] ⟨⟨opsStart, false⟩, []⟩ silentMoves ∧
      (threads opsStart).admits (movesRun silentMoves).1 (.advance 2 (ambientAt (secs 200) 0)) ∧
      ((movesRun silentMoves).2.step (.advance 2 (ambientAt (secs 200) 0))).2.expires = some 1 ∧
      HeardFrom (movesRun silentMoves).1 1 (secs 10) := by
    decide
  obtain ⟨hadm, hclock, hexpires, hheard⟩ := hall
  exact ⟨hexpires, hheard,
    expired_peer_was_silent (Machine.Run.start.exec hadm) hclock hexpires hheard⟩

end ServiceMesh
