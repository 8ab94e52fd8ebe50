import ServiceMesh.Refinement

/-! What each operation broadcasts and on what grounds: announcements come from the roster,
hole-punch directives from a heartbeat that finds a pair, wakes from a relayed frame. -/

namespace ServiceMesh

open StdNet (Ipv6Addr SocketAddr)

def Coordinator.Logs (P : PeerEvent → Prop) (c c' : Coordinator) : Prop :=
  ∃ new, c'.broadcaster = c.broadcaster ++ new ∧ ∀ event ∈ new, P event

namespace Coordinator.Logs

variable {P Q : PeerEvent → Prop} {c c' c'' : Coordinator}

theorem of_eq (h : c'.broadcaster = c.broadcaster) : Logs P c c' := ⟨[], by simp [h], by simp⟩

theorem refl (c : Coordinator) : Logs P c c := of_eq rfl

theorem broadcast {event : PeerEvent} (h : P event) : Logs P c (c.broadcast event) :=
  ⟨[event], rfl, by simpa using h⟩

theorem trans (h : Logs P c c') (h' : Logs P c' c'') : Logs P c c'' := by
  obtain ⟨new, hnew, hP⟩ := h
  obtain ⟨new', hnew', hP'⟩ := h'
  refine ⟨new ++ new', by rw [hnew', hnew, List.append_assoc], ?_⟩
  intro event he
  rcases List.mem_append.mp he with he | he
  · exact hP event he
  · exact hP' event he

theorem mono (h : Logs P c c') (hPQ : ∀ event, P event → Q event) : Logs Q c c' := by
  obtain ⟨new, hnew, hP⟩ := h
  exact ⟨new, hnew, fun event he => hPQ event (hP event he)⟩

theorem foldl {α : Type} {f : Coordinator → α → Coordinator} (hf : ∀ c a, Logs P c (f c a))
    (l : List α) (c : Coordinator) : Logs P c (l.foldl f c) := by
  induction l generalizing c with
  | nil => exact refl c
  | cons a l ih => exact (hf c a).trans (ih (f c a))

end Coordinator.Logs

def PeerEvent.IsRemoval : PeerEvent → Prop
  | .removed _ _ => True
  | _ => False

section

variable [Crates]

def Announces (roster : DashMap Uuid PeerEntry) : PeerEvent → Prop
  | .added info | .updated info =>
    ∃ e ∈ roster.values, e.peerId.toString = info.peerId ∧ e.tags = info.tags
  | .removed _ _ => True
  | .holePunch _ | .relayWake _ => False

def Quotes (roster : DashMap Uuid PeerEntry) : PeerEvent → Prop
  | .added info | .updated info =>
    ∃ e ∈ roster.values, ∃ connectivity age, info = e.toInfoWithConnectivity connectivity age
  | .removed _ _ => True
  | .holePunch _ | .relayWake _ => False

theorem Quotes.announces {roster : DashMap Uuid PeerEntry} {event : PeerEvent}
    (h : Quotes roster event) : Announces roster event := by
  cases event with
  | added info | updated info =>
    obtain ⟨e, he, connectivity, age, rfl⟩ := h
    exact ⟨e, he, rfl, rfl⟩
  | removed => trivial
  | holePunch | relayWake => exact h

theorem PeerEvent.IsRemoval.quotes {event : PeerEvent} (h : event.IsRemoval)
    (roster : DashMap Uuid PeerEntry) : Quotes roster event := by
  cases event with
  | removed => trivial
  | _ => exact h.elim

namespace Coordinator

open Coordinator (Logs)

variable {G : Uuid → Ipv6Addr → Prop}

@[simp] theorem broadcaster_persistRoster (c : Coordinator) (saved : Bool) :
    (c.persistRoster saved).broadcaster = c.broadcaster := rfl

theorem broadcaster_applyPeerLeft (c : Coordinator) (event : PeerLeft) :
    (c.applyPeerLeft event).broadcaster = c.broadcaster := by
  unfold applyPeerLeft
  split
  · rfl
  · split <;> rfl

theorem evictStaleUlaHolder_logs (c : Coordinator) (amb : Ambient) (requestedUla : Option String) :
    Logs PeerEvent.IsRemoval c (c.evictStaleUlaHolder amb requestedUla) := by
  unfold evictStaleUlaHolder
  split
  · exact .refl c
  · rename_i id _
    have hleft : ((c.evictHolder amb.nowUnixMicros id).persistRoster (amb.saved id)).broadcaster =
        (c.broadcast (.removed id.toString
          (((c.roster.lookup id).map PeerEntry.tags).getD []))).broadcaster := by
      rw [broadcaster_persistRoster, evictHolder, broadcaster_applyPeerLeft]
    exact (Logs.broadcast trivial).trans (.of_eq hleft)

def ShowsEntry (answer : Except CoordinatorError PeerEntry) (event : PeerEvent) : Prop :=
  event.IsRemoval ∨ ∃ entry, answer = .ok entry ∧
    (event = .added entry.toInfo ∨ event = .updated entry.toInfo)

section Register

variable {c : Coordinator} (amb : Ambient) (req : RegisterRequest) (claims : Option ValidatedClaims)
  (pubkey : List UInt8) (observed : Option SocketAddr)

theorem refreshExisting_logs (h : c.toRosterState.Inv G) (id : Uuid) :
    let r := c.refreshExisting amb id req claims (req.resolved observed) observed
    Logs (ShowsEntry r.2) c r.1 ∧
      ∀ entry, r.2 = .ok entry → r.1.roster.lookup entry.peerId = some entry := by
  intro r
  simp only [r, refreshExisting]
  cases hold : c.roster.lookup id with
  | none =>
    simp only [refreshEntry, hold]
    exact ⟨.refl c, by simp⟩
  | some old =>
    have hid : old.peerId = id := h.keyed hold
    have shown : ∀ f : PeerEntry → PeerEntry, (f old).peerId = id →
        (c.roster.modify id f).lookup (f old).peerId = some (f old) := by
      intro f hf
      rw [hf, AList.lookup_modify, if_pos rfl, hold]
      rfl
    rcases refreshEntry_cases amb req claims (req.resolved observed) observed h hold with
      ⟨-, hr⟩ | ⟨err, -, hr⟩ | ⟨allocator, idx, ula, -, -, hr⟩
    · rw [hr]
      refine ⟨⟨[_], rfl, ?_⟩, ?_⟩
      · intro event he
        exact .inr ⟨_, rfl, .inr (List.mem_singleton.mp he)⟩
      · intro entry he
        obtain rfl := Except.ok.inj he
        exact shown _ hid
    · rw [hr]
      exact ⟨.refl c, by simp⟩
    · rw [hr]
      refine ⟨⟨[.removed id.toString old.tags, .added (rehomedEntry
        (stampIdentity req claims).network ula idx (refreshedEntry req (stampIdentity req claims)
          (req.resolved observed) observed amb.now old)).toInfo], ?_, ?_⟩, ?_⟩
      · exact List.append_assoc _ _ _
      · intro event he
        rcases List.mem_cons.mp he with rfl | he
        · exact .inl trivial
        · exact .inr ⟨_, rfl, .inl (List.mem_singleton.mp he)⟩
      · intro entry he
        obtain rfl := Except.ok.inj he
        simp only [if_true, toRosterState_persistRoster, RosterState.roster_persistRoster]
        exact shown (fun e => rehomedEntry (stampIdentity req claims).network ula idx
          (refreshedEntry req (stampIdentity req claims) (req.resolved observed) observed
            amb.now e)) hid

theorem joinPeer_logs (h : c.toRosterState.Inv G) :
    let r := c.joinPeer amb req claims pubkey (req.resolved observed) observed
    Logs (ShowsEntry r.2) c r.1 ∧
      ∀ entry, r.2 = .ok entry → r.1.roster.lookup entry.peerId = some entry := by
  intro r
  rcases joinPeer_cases amb req claims pubkey (req.resolved observed) observed h with
    ⟨err, -, hj⟩ | ⟨ula, -, hj⟩
  · simp only [r, hj]
    exact ⟨.refl c, by simp⟩
  · simp only [r, hj]
    refine ⟨⟨[_], rfl, ?_⟩, ?_⟩
    · intro event he
      exact .inr ⟨_, rfl, .inl (List.mem_singleton.mp he)⟩
    · intro entry he
      obtain rfl := Except.ok.inj he
      have hlook : ((c.toRosterState.insertEntry (firstEntry amb req claims pubkey
          (req.resolved observed) ula)).roster.modify amb.nowV7
            (seedReflexive (req.resolved observed) observed)).lookup amb.nowV7 =
          some (seedReflexive (req.resolved observed) observed (firstEntry amb req claims pubkey
            (req.resolved observed) ula)) := by
        rw [AList.lookup_modify, if_pos rfl, RosterState.insertEntry]
        exact congrArg (Option.map _) (AList.lookup_insert c.roster)
      exact hlook

variable (bearer : Option String)

theorem registerAuthenticated_logs (h : c.toRosterState.Inv G) :
    let r := c.registerAuthenticated amb req bearer observed
    Logs (ShowsEntry (r.2.map Prod.fst)) c r.1 ∧
      ∀ entry outcome, r.2 = .ok (entry, outcome) →
        r.1.roster.lookup entry.peerId = some entry := by
  intro r
  cases hadm : c.admission amb req bearer with
  | error err =>
    simp only [r, registerAuthenticated_refused observed hadm]
    exact ⟨.refl c, by simp⟩
  | ok a =>
    obtain ⟨claims, pubkey⟩ := a
    cases hk : c.byPubkey.lookup pubkey with
    | some id =>
      simp only [r, registerAuthenticated_known observed hadm hk]
      obtain ⟨hlogs, hlook⟩ := refreshExisting_logs amb req claims observed h id
      generalize c.refreshExisting amb id req claims (req.resolved observed) observed = x at hlogs hlook
      obtain ⟨c', err | entry⟩ := x
      · exact ⟨hlogs, by simp [Except.map]⟩
      · refine ⟨hlogs, ?_⟩
        intro entry' outcome he
        obtain ⟨rfl, -⟩ := Prod.mk.inj (Except.ok.inj he)
        exact hlook entry rfl
    | none =>
      simp only [r, registerAuthenticated_new observed hadm hk]
      have hev := (c.evictStaleUlaHolder_steps amb req.requestedUla).inv_quiet h
      have hgone := c.evictStaleUlaHolder_logs amb req.requestedUla
      obtain ⟨hlogs, hlook⟩ := joinPeer_logs amb req claims pubkey observed hev
      have hall := (hgone.mono (fun _ hr => Or.inl hr)).trans hlogs
      generalize (c.evictStaleUlaHolder amb req.requestedUla).joinPeer amb req claims pubkey
        (req.resolved observed) observed = x at hall hlook
      obtain ⟨c', err | entry⟩ := x
      · exact ⟨hall, by simp [Except.map]⟩
      · refine ⟨hall, ?_⟩
        intro entry' outcome he
        obtain ⟨rfl, -⟩ := Prod.mk.inj (Except.ok.inj he)
        have hsaved : (c'.persistRoster (amb.saved amb.nowV7)).roster = c'.roster :=
          RosterState.roster_persistRoster _ _
        have hstored := hlook entry rfl
        rw [← hsaved] at hstored
        exact hstored

theorem registerHandler_lookup (h : c.toRosterState.Inv G) {reg : Registered}
    (hr : (c.registerHandler amb req bearer observed).2 = .ok reg) :
    (c.registerHandler amb req bearer observed).1.roster.lookup reg.entry.peerId =
      some reg.entry := by
  rw [registerHandler_fst]
  exact (registerAuthenticated_logs amb req observed bearer h).2 _ _ (registerHandler_eq_ok hr).1

theorem registerHandler_logs (h : c.toRosterState.Inv G) :
    Logs (Quotes (c.registerHandler amb req bearer observed).1.roster) c
      (c.registerHandler amb req bearer observed).1 := by
  obtain ⟨hlogs, hlook⟩ := registerAuthenticated_logs amb req observed bearer h
  rw [registerHandler_fst]
  refine hlogs.mono ?_
  rintro event (hrem | ⟨entry, hans, hev⟩)
  · exact hrem.quotes _
  · cases hr : (c.registerAuthenticated amb req bearer observed).2 with
    | error err => simp [hr, Except.map] at hans
    | ok x =>
      obtain ⟨entry', outcome⟩ := x
      obtain rfl : entry' = entry := by simpa [hr, Except.map] using hans
      have hmem := AList.lookup_mem_values (hlook entry' outcome hr)
      rcases hev with rfl | rfl <;> exact ⟨entry', hmem, none, none, rfl⟩

end Register

variable {c : Coordinator}

omit [Crates] in
theorem punchPeerForPair_eq_some {e : PeerEntry} {other : Uuid} {p : PunchPeer}
    (h : c.punchPeerForPair e other = some p) : p.peerId = e.peerId := by
  unfold punchPeerForPair at h
  split at h
  · simp at h
  · split at h
    · simp at h
    · split at h
      · simp at h
      · split at h
        · simp at h
        · obtain ⟨dial, -, rfl⟩ := Option.map_eq_some_iff.mp h
          rfl

def Directs (c : Coordinator) (now : Int) (a b : PeerEntry) (event : PeerEvent) : Prop :=
  ∃ pa pb, c.punchPeerForPair a b.peerId = some pa ∧ c.punchPeerForPair b a.peerId = some pb ∧
    event ∈ punchDirectives pa pb now

theorem tryEmitHolepunchPair_logs (now : Int) (a : PeerEntry) (c : Coordinator) (b : PeerEntry) :
    Logs (c.Directs now a b) c (tryEmitHolepunchPair now a c b) := by
  unfold tryEmitHolepunchPair
  split
  · rename_i pa pb ha hb
    split
    · rename_i tracker events hemit
      refine ⟨events, rfl, ?_⟩
      intro event he
      refine ⟨pa, pb, ha, hb, ?_⟩
      unfold tryEmitPair at hemit
      split at hemit
      · simp at hemit
      · split at hemit
        · simp at hemit
        · split at hemit
          · obtain ⟨-, hev⟩ := Prod.mk.inj hemit
            rw [Option.some.inj hev]
            exact he
          · simp at hemit
    · exact .of_eq rfl
  · exact .refl c

def SameGates (c c' : Coordinator) : Prop :=
  c'.directPairFlags = c.directPairFlags ∧ c'.proactive = c.proactive

omit [Crates] in
theorem SameGates.punchPeerForPair {c' : Coordinator} (h : c.SameGates c') (e : PeerEntry)
    (other : Uuid) : c'.punchPeerForPair e other = c.punchPeerForPair e other := by
  simp only [Coordinator.punchPeerForPair, h.1, h.2]

theorem sameGates_tryEmitHolepunchPair (now : Int) (a : PeerEntry) (c : Coordinator)
    (b : PeerEntry) : c.SameGates (tryEmitHolepunchPair now a c b) := by
  unfold tryEmitHolepunchPair
  split
  · split <;> exact ⟨rfl, rfl⟩
  · exact ⟨rfl, rfl⟩

theorem tryEmitHolepunchPairs_logs (c : Coordinator) (now : Int) (a : PeerEntry) :
    Logs (fun event => ∃ b ∈ c.roster.values, b.peerId ≠ a.peerId ∧ c.Directs now a b event) c
      (c.tryEmitHolepunchPairs now a) := by
  have hloop : ∀ (candidates : List PeerEntry) (c' : Coordinator), c.SameGates c' →
      Logs (fun event => ∃ b ∈ candidates, c.Directs now a b event) c'
        (candidates.foldl (tryEmitHolepunchPair now a) c') := by
    intro candidates
    induction candidates with
    | nil => exact fun c' _ => .refl c'
    | cons b candidates ih =>
      intro c' hgates
      have hround := tryEmitHolepunchPair_logs now a c' b
      have hnext := sameGates_tryEmitHolepunchPair now a c' b
      have hgates' : c.SameGates (tryEmitHolepunchPair now a c' b) :=
        ⟨hnext.1.trans hgates.1, hnext.2.trans hgates.2⟩
      refine (hround.mono ?_).trans ((ih _ hgates').mono ?_)
      · rintro event ⟨pa, pb, ha, hb, hev⟩
        rw [hgates.punchPeerForPair] at ha hb
        exact ⟨b, List.mem_cons_self, pa, pb, ha, hb, hev⟩
      · rintro event ⟨b', hb', hev⟩
        exact ⟨b', List.mem_cons_of_mem b hb', hev⟩
  refine (hloop _ c ⟨rfl, rfl⟩).mono ?_
  rintro event ⟨b, hb, hev⟩
  obtain ⟨hmem, hne⟩ := List.mem_filter.mp hb
  exact ⟨b, hmem, by simpa using hne, hev⟩

theorem broadcaster_recordReports (c : Coordinator) (id : Uuid) (req : HeartbeatRequest) :
    (c.recordReports id req).1.broadcaster = c.broadcaster := by
  simp only [recordReports, drainCommands, ackCommands, recordDataplaneHealth, recordPeerPaths]
  split <;> split <;> rfl

structure FindsPair (c : Coordinator) (amb : Ambient) (req : HeartbeatRequest)
    (observed : Option SocketAddr) (a b : PeerEntry) : Prop where
  beats : ∃ id, Uuid.parseStr req.peerId = .ok id ∧ c.roster.lookup id = some a
  other : b ∈ c.roster.values
  distinct : b.peerId ≠ a.peerId
  ready : (c.punchPeerForPair (req.beaten amb.now observed a) b.peerId).isSome = true
  otherReady : (c.punchPeerForPair b a.peerId).isSome = true

theorem lookup_beat (amb : Ambient) {id : Uuid} (req : HeartbeatRequest)
    (observed : Option SocketAddr) {e : PeerEntry} (he : c.roster.lookup id = some e) :
    (c.beat amb id req observed e).roster.lookup id = some (req.beaten amb.now observed e) := by
  rw [beat, toRosterState_tryEmitHolepunchPairs]
  exact (AList.lookup_modify _ _ _ _).trans (by rw [if_pos rfl, he]; rfl)

theorem recordReports_lookup {id : Uuid} {e : PeerEntry} (req : HeartbeatRequest)
    (he : c.roster.lookup id = some e) :
    ∃ e', (c.recordReports id req).1.roster.lookup id = some e' ∧ e'.peerId = e.peerId ∧
      e'.tags = e.tags ∧ e'.toInfo = e.toInfo := by
  simp only [recordReports, drainCommands, ackCommands, recordDataplaneHealth, recordPeerPaths, he,
    Option.isNone_some, Bool.false_eq_true, if_false]
  split
  · simp [AList.lookup_modify, he, PeerEntry.toInfo, PeerEntry.toInfoWithConnectivity]
  · simp [AList.lookup_modify, he, PeerEntry.toInfo, PeerEntry.toInfoWithConnectivity]

def PunchBetween (a b : PeerEntry) (event : PeerEvent) : Prop :=
  ∃ hp, event = .holePunch hp ∧
    (hp.initiatorPeerId = a.peerId.toString ∧ hp.targetPeerId = b.peerId.toString ∨
      hp.initiatorPeerId = b.peerId.toString ∧ hp.targetPeerId = a.peerId.toString)

theorem Directs.punchBetween {now : Int} {a b : PeerEntry} {event : PeerEvent}
    (h : c.Directs now a b event) : PunchBetween a b event := by
  obtain ⟨pa, pb, ha, hb, hev⟩ := h
  have hpa := punchPeerForPair_eq_some ha
  have hpb := punchPeerForPair_eq_some hb
  simp only [punchDirectives, List.mem_cons, List.not_mem_nil, or_false] at hev
  rcases hev with rfl | rfl
  · exact ⟨_, rfl, .inl ⟨by rw [← hpa], by rw [← hpb]⟩⟩
  · exact ⟨_, rfl, .inr ⟨by rw [← hpb], by rw [← hpa]⟩⟩

theorem beat_logs (amb : Ambient) {id : Uuid} {req : HeartbeatRequest}
    (observed : Option SocketAddr) {e : PeerEntry} (hid : Uuid.parseStr req.peerId = .ok id)
    (he : c.roster.lookup id = some e) :
    Logs (fun event => event = .updated (req.beaten amb.now observed e).toInfo ∨
        ∃ b, c.FindsPair amb req observed e b ∧ PunchBetween e b event)
      c (c.beat amb id req observed e) := by
  have hpid : (req.beaten amb.now observed e).peerId = e.peerId :=
    (sameSeat_beatenEntry _ _ _ _ _ _ _ e).peerId
  obtain ⟨new, hnew, hdirect⟩ := tryEmitHolepunchPairs_logs
    (({ c with roster := c.roster.modify id (req.beaten amb.now observed) } : Coordinator).broadcast
      (.updated (req.beaten amb.now observed e).toInfo)) amb.nowUnixMicros
    (req.beaten amb.now observed e)
  refine ⟨.updated (req.beaten amb.now observed e).toInfo :: new, ?_, ?_⟩
  · rw [beat, hnew]
    exact List.append_assoc _ _ _
  · intro event hev
    rcases List.mem_cons.mp hev with rfl | hev
    · exact .inl rfl
    · obtain ⟨b, hb, hne, hdir⟩ := hdirect event hev
      obtain ⟨hp, rfl, hends⟩ := hdir.punchBetween
      obtain ⟨pa, pb, ha, hpb, -⟩ := hdir
      have hgates : c.SameGates (({ c with
          roster := c.roster.modify id (req.beaten amb.now observed) } : Coordinator).broadcast
          (.updated (req.beaten amb.now observed e).toInfo)) := ⟨rfl, rfl⟩
      rw [hgates.punchPeerForPair] at ha hpb
      rw [hpid] at hne hpb hends
      have hmem : b ∈ c.roster.values := by
        obtain ⟨k, hk⟩ := AList.mem_values_iff.mp hb
        rw [show (({ c with roster := c.roster.modify id (req.beaten amb.now observed) } :
          Coordinator).broadcast (.updated (req.beaten amb.now observed e).toInfo)).roster =
          c.roster.modify id (req.beaten amb.now observed) from rfl, AList.lookup_modify] at hk
        by_cases hki : k = id
        · rw [if_pos hki, hki, he] at hk
          have hb' := congrArg PeerEntry.peerId (Option.some.inj hk)
          exact absurd (hb'.symm.trans hpid) hne
        · rw [if_neg hki] at hk
          exact AList.lookup_mem_values hk
      exact .inr ⟨b, ⟨⟨id, hid, he⟩, hmem, hne, by rw [ha]; rfl, by rw [hpb]; rfl⟩, hp, rfl, hends⟩

theorem heartbeatHandler_logs (h : c.toRosterState.Inv G) (amb : Ambient) (req : HeartbeatRequest)
    (observed : Option SocketAddr) :
    Logs (fun event => Quotes (c.heartbeatHandler amb req observed).1.roster event ∨
        ∃ a b, c.FindsPair amb req observed a b ∧ PunchBetween a b event)
      c (c.heartbeatHandler amb req observed).1 := by
  rcases c.heartbeatHandler_cases amb req observed with ⟨err, hsame⟩ | ⟨id, e, hid, he⟩
  · rw [hsame]
    exact .refl c
  · have hpid : (req.beaten amb.now observed e).peerId = id :=
      (sameSeat_beatenEntry _ _ _ _ _ _ _ e).peerId.trans (h.keyed he)
    obtain ⟨e', he', -, -, hinfo⟩ := recordReports_lookup req (lookup_beat amb req observed he)
    have hreports : ((c.beat amb id req observed e).recordReports id req).1.broadcaster =
        (c.beat amb id req observed e).broadcaster := broadcaster_recordReports _ _ _
    rw [heartbeatHandler_eq amb observed hid he]
    simp only [hpid]
    refine ((beat_logs amb observed hid he).mono ?_).trans (.of_eq hreports)
    rintro event (rfl | ⟨b, hb⟩)
    · exact .inl ⟨e', AList.lookup_mem_values he', none, none, hinfo.symm⟩
    · exact .inr ⟨e, b, hb⟩

theorem deregister_logs (c : Coordinator) (amb : Ambient) (id : Uuid) (reason : String) :
    Logs PeerEvent.IsRemoval c (c.deregister amb id reason).1 := by
  unfold deregister
  split
  · exact .refl c
  · rename_i e _
    refine ⟨[.removed id.toString e.tags], ?_, by simp [PeerEvent.IsRemoval]⟩
    rw [broadcaster_persistRoster, departPeer, broadcast, broadcaster_applyPeerLeft]

theorem sweepOnce_logs (c : Coordinator) (amb : Ambient) :
    Logs PeerEvent.IsRemoval c (c.sweepOnce amb) := by
  have hreap : (c.reapStaleResources amb.now amb.nowUnixMicros).broadcaster = c.broadcaster := rfl
  exact (Logs.of_eq hreap).trans (.foldl (fun c id => c.deregister_logs amb id _) _ _)

theorem mem_snapshot_toInfo {info : PeerInfo} (h : info ∈ c.snapshot) :
    ∃ e ∈ c.roster.values, ∃ connectivity age, info = e.toInfoWithConnectivity connectivity age := by
  obtain ⟨e, he, rfl⟩ := List.mem_map.mp h
  exact ⟨e, (List.perm_insertionSort _ c.roster.values).mem_iff.mp he, _, _, rfl⟩

theorem mem_snapshot {info : PeerInfo} (h : info ∈ c.snapshot) :
    ∃ e ∈ c.roster.values, e.peerId.toString = info.peerId ∧ e.tags = info.tags := by
  obtain ⟨e, he, connectivity, age, rfl⟩ := mem_snapshot_toInfo h
  exact ⟨e, he, rfl, rfl⟩

theorem resyncAllPeers_logs (c : Coordinator) : Logs (Quotes c.roster) c c.resyncAllPeers := by
  refine ⟨c.snapshot.map PeerEvent.updated, rfl, ?_⟩
  intro event he
  obtain ⟨info, hinfo, rfl⟩ := List.mem_map.mp he
  exact mem_snapshot_toInfo hinfo

def WakesVisible (c : Coordinator) (event : PeerEvent) : Prop :=
  ∃ rw, event = .relayWake rw ∧ ∃ a ∈ c.roster.values, ∃ b ∈ c.roster.values,
    a.peerId.toString = rw.recipientPeerId ∧ b.ula.toString = rw.sourceUla ∧
    c.policy.current.canSee a.tags b.tags = true

omit [Crates] in
theorem canRelay_eq_true {src dst : List UInt8} (h : c.canRelay src dst = true) :
    ∃ a b p q, c.byPubkey.lookup dst = some p ∧ c.roster.lookup p = some a ∧
      c.byPubkey.lookup src = some q ∧ c.roster.lookup q = some b ∧
      c.policy.current.canSee a.tags b.tags = true := by
  unfold canRelay at h
  split at h
  · rename_i q p hq hp
    split at h
    · rename_i srcTags dstTags hs hd
      obtain ⟨b, hb, rfl⟩ := Option.map_eq_some_iff.mp hs
      obtain ⟨a, ha, rfl⟩ := Option.map_eq_some_iff.mp hd
      refine ⟨a, b, p, q, hp, ha, hq, hb, ?_⟩
      rw [Policy.canSee_comm]
      exact h
    · simp at h
  · simp at h

theorem wakeDestination_logs {src dst : List UInt8} (hcan : c.canRelay src dst = true)
    (h : c.toRosterState.Inv G) (relay : RelayRegistry) (now : Nat) (wallMicros : Int) :
    Logs c.WakesVisible c
      (({ c with relay := relay } : Coordinator).wakeDestination now wallMicros src dst) := by
  obtain ⟨a, b, p, q, hp, ha, hq, hb, hsee⟩ := canRelay_eq_true hcan
  have hdst : ({ c with relay := relay } : Coordinator).peerForPubkey dst = some (p, a.ula) := by
    simp only [peerForPubkey, hp, ha]
    rfl
  have hsrc : ({ c with relay := relay } : Coordinator).peerForPubkey src = some (q, b.ula) := by
    simp only [peerForPubkey, hq, hb]
    rfl
  simp only [wakeDestination, hdst, hsrc]
  split
  · refine ⟨[_], rfl, ?_⟩
    intro event hev
    refine ⟨_, List.mem_singleton.mp hev, a, AList.lookup_mem_values ha, b,
      AList.lookup_mem_values hb, ?_, rfl, hsee⟩
    rw [h.keyed ha]
  · exact .of_eq rfl

theorem routeUplink_logs (h : c.toRosterState.Inv G) (now : Nat) (wallMicros : Int)
    (src buf : List UInt8) : Logs c.WakesVisible c (c.routeUplink now wallMicros src buf).1 := by
  unfold routeUplink
  split
  · exact .refl c
  · rename_i dst payload _
    split
    · exact .refl c
    · rename_i hcan
      have hcan' : c.canRelay src dst = true := by simpa using hcan
      simp only
      split
      · refine .of_eq ?_
        simp only [noteRelayPairForwarded]
        split <;> rfl
      · simp only
        split
        · exact wakeDestination_logs hcan' h _ now wallMicros
        · exact .of_eq rfl

end Coordinator

def Justified (s : Mesh) (op : Op) (event : PeerEvent) : Prop :=
  Announces (s.step op).1.coordinator.roster event ∨
    (∃ amb req observed a b, op = .heartbeat amb req observed ∧
      s.coordinator.FindsPair amb req observed a b ∧ Coordinator.PunchBetween a b event) ∨
    s.coordinator.WakesVisible event

def Grounded (s : Mesh) (op : Op) (event : PeerEvent) : Prop :=
  Quotes (s.step op).1.coordinator.roster event ∨
    (∃ amb req observed a b, op = .heartbeat amb req observed ∧
      s.coordinator.FindsPair amb req observed a b ∧ Coordinator.PunchBetween a b event) ∨
    s.coordinator.WakesVisible event

def Op.Live : Op → Prop
  | .restart _ _ _ => False
  | _ => True

def Op.isUplink : Op → Bool
  | .relayUplink .. => true
  | _ => false

theorem Mesh.step_unwoken {G : Uuid → Ipv6Addr → Prop} {s : Mesh}
    (h : s.coordinator.toRosterState.Inv G) {op : Op} (hlive : op.Live)
    (hop : op.isUplink = false) :
    Coordinator.Logs (fun event => Quotes (s.step op).1.coordinator.roster event ∨
      ∃ amb req observed a b, op = .heartbeat amb req observed ∧
        s.coordinator.FindsPair amb req observed a b ∧ Coordinator.PunchBetween a b event)
      s.coordinator (s.step op).1.coordinator := by
  have hleaves := s.leaves op
  generalize (s.step op).1.coordinator = c at hleaves ⊢
  cases hleaves with
  | same | flags | proactive | command | relay | reorder => exact .of_eq rfl
  | register amb req bearer observed =>
    exact (Coordinator.registerHandler_logs amb req observed bearer h).mono (fun _ => .inl)
  | heartbeat amb req observed =>
    refine (Coordinator.heartbeatHandler_logs h amb req observed).mono ?_
    rintro event (hann | ⟨a, b, hfind, hpunch⟩)
    · exact .inl hann
    · exact .inr ⟨amb, req, observed, a, b, rfl, hfind, hpunch⟩
  | deregister amb hid =>
    exact (s.coordinator.deregister_logs amb _ _).mono (fun _ hr => .inl (hr.quotes _))
  | sweep amb => exact (s.coordinator.sweepOnce_logs amb).mono (fun _ hr => .inl (hr.quotes _))
  | policy ifMatch newPolicy policy =>
    exact (Coordinator.resyncAllPeers_logs { s.coordinator with policy := policy }).mono
      (fun _ => .inl)
  | uplink => simp [Op.isUplink] at hop
  | restart => exact hlive.elim

theorem Mesh.step_grounded {G : Uuid → Ipv6Addr → Prop} {s : Mesh}
    (h : s.coordinator.toRosterState.Inv G) {op : Op} (hlive : op.Live) :
    Coordinator.Logs (Grounded s op) s.coordinator (s.step op).1.coordinator := by
  cases hop : op.isUplink with
  | false =>
    refine (step_unwoken h hlive hop).mono ?_
    rintro event (hann | hpunch)
    · exact .inl hann
    · exact .inr (.inl hpunch)
  | true =>
    cases op with
    | relayUplink now wallMicros handle buf =>
      simp only [step, withSocket]
      split
      · exact .refl _
      · exact (Coordinator.routeUplink_logs h now wallMicros _ buf).mono
          (fun _ hw => .inr (.inr hw))
    | _ => simp [Op.isUplink] at hop

theorem Mesh.step_logs {G : Uuid → Ipv6Addr → Prop} {s : Mesh}
    (h : s.coordinator.toRosterState.Inv G) {op : Op} (hlive : op.Live) :
    Coordinator.Logs (Justified s op) s.coordinator (s.step op).1.coordinator :=
  (step_grounded h hlive).mono (fun _ hg => hg.imp_left Quotes.announces)

end

end ServiceMesh
