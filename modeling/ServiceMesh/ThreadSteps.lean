import ServiceMesh.Entries
import ServiceMesh.Threads
import ServiceMesh.ViewerFrames

/-! What one step of a thread does to the entry of one peer and to the broadcast log. -/

namespace ServiceMesh

open StdNet (Ipv6Addr SocketAddr)

variable [Crates]

namespace Thread

def broadcasts : Thread → Option PeerEvent
  | .enrol _ (.announceMove peerId oldTags _) => some (.removed peerId.toString oldTags)
  | .enrol _ (.announceMoved _ entry) => some (.added entry.toInfo)
  | .enrol _ (.announceRefreshed _ entry) => some (.updated entry.toInfo)
  | .enrol _ (.announceEvicted holderId tags _) => some (.removed holderId.toString tags)
  | .enrol _ (.announceJoined _ entry) => some (.added entry.toInfo)
  | .beat _ (.announce snapshot) => some (.updated snapshot.toInfo)
  | .leave _ peerId (.announce tags) _ _ => some (.removed peerId.toString tags)
  | .resync (info :: _) => some (.updated info)
  | _ => none

def owes : Thread → Option Uuid
  | .enrol _ (.announceMove peerId _ _) => some peerId
  | .enrol _ (.announceRefreshed _ entry) => some entry.peerId
  | .enrol _ (.seed _ entry) => some entry.peerId
  | .enrol _ (.announceJoined _ entry) => some entry.peerId
  | .leave _ peerId (.announce _) _ _ => some peerId
  | _ => none

def evicts : Thread → Option Uuid
  | .enrol _ (.evict holderId _) => some holderId
  | _ => none

end Thread

structure Standing where
  peerId : Uuid
  ula : Ipv6Addr
  tags : List String
  lastHeartbeat : Nat
deriving DecidableEq

def PeerEntry.standing (e : PeerEntry) : Standing := ⟨e.peerId, e.ula, e.tags, e.lastHeartbeat⟩

inductive LookupStep (amb : Ambient) (id : Uuid) :
    Thread → Thread → Option PeerEntry → Option PeerEntry → Prop
  | kept {t t' : Thread} {before after : Option PeerEntry}
      (h : after.map PeerEntry.standing = before.map PeerEntry.standing) :
      LookupStep amb id t t' before after
  | beaten {b : Beat} {t' : Thread} {e e' : PeerEntry} (hid : b.peerId = id)
      (h : e'.standing = { e.standing with lastHeartbeat := amb.now }) :
      LookupStep amb id (.beat b .apply) t' (some e) (some e')
  | refreshed {r : Enrolment} {realloc : Option (UInt16 × Ipv6Addr)} {t' : Thread} {e : PeerEntry}
      (h : t'.owes = some e.peerId ∨ t'.owes = some id) :
      LookupStep amb id (.enrol r (.refresh id realloc)) t' (some e)
        (some (r.refreshed realloc amb.now e))
  | inserted {r : Enrolment} {ula : Ipv6Addr} {event : PeerJoined} {t' : Thread}
      {before : Option PeerEntry} (h : t'.owes = some id) :
      LookupStep amb id (.enrol r (.insert id ula event)) t' before
        (some (RosterState.joinedEntry event id ula amb.now))
  | left {reason : LeaveReason} {tags : List String} {leftAt : Int} {rest : List Uuid}
      {reply : Reply} {t' : Thread} {e : PeerEntry} (h : t'.owes = some id) :
      LookupStep amb id (.leave reason id (.remove tags leftAt) rest reply) t' (some e) none
  | evicted {r : Enrolment} {leftAt : Int} {t' : Thread} {e : PeerEntry} :
      LookupStep amb id (.enrol r (.evict id leftAt)) t' (some e) none

namespace LookupStep

variable {amb : Ambient} {id : Uuid} {t t' : Thread}

omit [Crates] in
theorem same (o : Option PeerEntry) : LookupStep amb id t t' o o := .kept rfl

omit [Crates] in
theorem of_eq {o o' : Option PeerEntry} (h : o' = o) : LookupStep amb id t t' o o' := by
  subst h
  exact .same o'

omit [Crates] in
theorem modify {roster : DashMap Uuid PeerEntry} (peerId : Uuid) {f : PeerEntry → PeerEntry}
    (hf : ∀ e, (f e).standing = e.standing) :
    LookupStep amb id t t' (roster.lookup id) ((roster.modify peerId f).lookup id) := by
  refine .kept ?_
  rw [AList.lookup_modify]
  split
  · rw [Option.map_map]
    congr 1
    funext e
    exact hf e
  · rfl

end LookupStep

omit [Crates] in
theorem standing_refreshed (r : Enrolment) (realloc : Option (UInt16 × Ipv6Addr)) (now : Nat)
    (e : PeerEntry) :
    (r.refreshed realloc now e).peerId = e.peerId ∧ (r.refreshed realloc now e).lastHeartbeat = now := by
  cases realloc with
  | none => exact ⟨rfl, rfl⟩
  | some home => exact ⟨rfl, rfl⟩

omit [Crates] in
theorem standing_roamedEntry (observedExternal : String) (wgListenPort : Option UInt16)
    (relayOnly : Bool) (e : PeerEntry) :
    (roamedEntry observedExternal wgListenPort relayOnly e).standing = e.standing := by
  unfold roamedEntry
  split
  · rfl
  · split
    · rfl
    · split
      · rfl
      · dsimp only
        split <;> rfl

theorem lookup_applyPeerLeft (c : Coordinator) (peerId : Uuid) (reason : String) (leftAt : Int)
    (id : Uuid) :
    (c.applyPeerLeft ⟨peerId.toString, reason, leftAt⟩).roster.lookup id =
      if id = peerId then none else c.roster.lookup id := by
  rw [Coordinator.toRosterState_applyPeerLeft, RosterState.roster_lookup_without]

theorem EnrolPc.step_lookup (r : Enrolment) (pc : EnrolPc) (amb : Ambient) (s : Shared)
    (id : Uuid) :
    LookupStep amb id (.enrol r pc) (pc.step r amb s).2 (s.coordinator.roster.lookup id)
      ((pc.step r amb s).1.coordinator.roster.lookup id) := by
  cases pc with
  | refresh peerId realloc =>
    cases hold : s.coordinator.roster.lookup peerId with
    | none =>
      simp only [step, hold]
      exact .same _
    | some old =>
      simp only [step, hold]
      change LookupStep _ _ _ _ _ ((s.coordinator.roster.modify _ _).lookup id)
      rw [AList.lookup_modify]
      by_cases hid : id = peerId
      · subst hid
        rw [if_pos rfl, hold, Option.map_some]
        refine .refreshed ?_
        cases realloc with
        | none => exact .inl rfl
        | some home => exact .inr rfl
      · rw [if_neg hid]
        exact .same _
  | evict holderId leftAt =>
    simp only [step]
    change LookupStep _ _ _ _ _ ((Coordinator.applyPeerLeft _ _).roster.lookup id)
    rw [lookup_applyPeerLeft]
    by_cases hid : id = holderId
    · subst hid
      rw [if_pos rfl]
      cases s.coordinator.roster.lookup id with
      | none => exact .same none
      | some e => exact .evicted
    · rw [if_neg hid]
      exact .same _
  | insert peerId ula event =>
    simp only [step]
    change LookupStep _ _ _ _ _ ((s.coordinator.roster.insert peerId _).lookup id)
    rw [AList.lookup_insert_eq_ite]
    by_cases hid : id = peerId
    · subst hid
      rw [if_pos rfl]
      exact .inserted rfl
    · rw [if_neg hid]
      exact .same _
  | seed peerId entry => exact .modify peerId (fun _ => rfl)
  | resolveUla =>
    simp only [step]
    split
    · exact .same _
    · rename_i hres
      exact .of_eq (congrArg (AList.lookup id) (RosterState.roster_resolveUla hres))
  | persistMoved peerId entry | persistEvicted peerId | persistJoined peerId entry =>
    exact .of_eq (congrArg (AList.lookup id) (Coordinator.roster_persistRoster _ _))
  | lock | findExisting | readNetwork | allocate | checkHeld | findHolder | checkStale
  | checkConflict =>
    simp only [step]
    repeat' split
    all_goals exact .same _
  | announceMove | announceMoved | announceRefreshed | readTags | announceEvicted | announceJoined
  | unlock | listVisible => exact .same _

theorem BeatPc.step_lookup (b : Beat) (pc : BeatPc) (amb : Ambient) (s : Shared) (id : Uuid) :
    LookupStep amb id (.beat b pc) (pc.step b amb s).2 (s.coordinator.roster.lookup id)
      ((pc.step b amb s).1.coordinator.roster.lookup id) := by
  cases pc with
  | apply =>
    simp only [step, RosterState.applyPeerHeartbeat, Uuid.parseStr_toString]
    change LookupStep _ _ _ _ _ ((s.coordinator.roster.modify _ _).lookup id)
    rw [AList.lookup_modify]
    by_cases hid : id = b.peerId
    · rw [if_pos hid]
      cases s.coordinator.roster.lookup id with
      | none => exact .same none
      | some e => exact .beaten hid.symm rfl
    · rw [if_neg hid]
      exact .same _
  | setRelayOnly => exact .modify b.peerId (fun _ => rfl)
  | roam => exact .modify b.peerId (standing_roamedEntry _ _ _)
  | punch snapshot now candidates =>
    cases candidates with
    | nil => exact .same _
    | cons candidate candidates =>
      refine .of_eq (congrArg (fun m : RosterState => m.roster.lookup id) ?_)
      exact Coordinator.toRosterState_tryEmitHolepunchPair now snapshot s.coordinator candidate
  | recordPaths snapshot =>
    simp only [step, Coordinator.recordPeerPaths]
    split
    · exact .same _
    · exact .modify snapshot.peerId (fun _ => rfl)
  | recordHealth snapshot => exact .modify snapshot.peerId (fun _ => rfl)
  | ack snapshot =>
    simp only [step, Coordinator.ackCommands]
    split
    · exact .same _
    · exact .modify snapshot.peerId (fun _ => rfl)
  | drain snapshot => exact .modify snapshot.peerId (fun _ => rfl)
  | find | read =>
    simp only [step]
    split <;> exact .same _
  | announce | listCandidates | listVisible => exact .same _

theorem LeavePc.step_lookup (reason : LeaveReason) (peerId : Uuid) (rest : List Uuid)
    (reply : Reply) (pc : LeavePc) (amb : Ambient) (s : Shared) (id : Uuid) :
    LookupStep amb id (.leave reason peerId pc rest reply) (pc.step reason peerId rest reply amb s).2
      (s.coordinator.roster.lookup id)
      ((pc.step reason peerId rest reply amb s).1.coordinator.roster.lookup id) := by
  cases pc with
  | find =>
    simp only [step]
    split <;> exact .same _
  | remove tags leftAt =>
    simp only [step]
    change LookupStep _ _ _ _ _ ((Coordinator.applyPeerLeft _ _).roster.lookup id)
    rw [lookup_applyPeerLeft]
    by_cases hid : id = peerId
    · subst hid
      rw [if_pos rfl]
      cases s.coordinator.roster.lookup id with
      | none => exact .same none
      | some e => exact .left rfl
    · rw [if_neg hid]
      exact .same _
  | announce tags => exact .same _
  | persist => exact .of_eq (congrArg (AList.lookup id) (Coordinator.roster_persistRoster _ _))

theorem Mesh.single_lookup (s : Mesh) {op : Op} (h : op.isSingle = true) (id : Uuid) :
    ((s.step op).1.coordinator.roster.lookup id).map PeerEntry.standing =
      (s.coordinator.roster.lookup id).map PeerEntry.standing := by
  have hleaves := s.leaves op
  generalize (s.step op).1.coordinator = c at hleaves
  cases hleaves with
  | register | heartbeat | deregister | sweep | policy | restart => cases h
  | same | flags | proactive | relay => rfl
  | command peerId command k =>
    change ((s.coordinator.roster.modify k _).lookup id).map _ = _
    rw [AList.lookup_modify]
    split
    · rw [Option.map_map]
      rfl
    · rfl
  | uplink => rw [Coordinator.routeUplink_roster]
  | reorder hp =>
    dsimp only
    rw [AList.lookup_reorder]

theorem Thread.step_lookup (t : Thread) (amb : Ambient) (s : Shared) (id : Uuid) :
    LookupStep amb id t (t.step amb s).2 (s.coordinator.roster.lookup id)
      ((t.step amb s).1.coordinator.roster.lookup id) := by
  cases t with
  | arrive req bearer observed =>
    simp only [step]
    split <;> exact .same _
  | enrol r pc => exact pc.step_lookup r amb s id
  | beat b pc => exact pc.step_lookup b amb s id
  | leave reason peerId pc rest reply => exact pc.step_lookup reason peerId rest reply amb s id
  | replacePolicy ifMatch newPolicy =>
    simp only [step]
    split <;> exact .same _
  | resync peers => cases peers <;> exact .same _
  | stream pc =>
    cases pc with
    | findViewer peerId =>
      simp only [step, StreamPc.step]
      split <;> exact .same _
    | subscribe | snapshot | attach => exact .same _
  | single op h => exact .kept (s.mesh.single_lookup h id)
  | reap | listStale | listPeers | done => exact .same _

def PeerEvent.AboutNoPeer (event : PeerEvent) : Prop := ∀ id, event.kindFor id = none

def Coordinator.Tells (c : Coordinator) (said : Option PeerEvent) (c' : Coordinator) : Prop :=
  ∃ new, c'.broadcaster = c.broadcaster ++ (said.toList ++ new) ∧ ∀ event ∈ new, event.AboutNoPeer

namespace Coordinator.Tells

omit [Crates] in
theorem nothing {c c' : Coordinator} (h : c'.broadcaster = c.broadcaster) : c.Tells none c' :=
  ⟨[], by simp [h], by simp⟩

omit [Crates] in
theorem event (c : Coordinator) (event : PeerEvent) : c.Tells (some event) (c.broadcast event) :=
  ⟨[], rfl, by simp⟩

omit [Crates] in
theorem of_logs {c c' : Coordinator} {P : PeerEvent → Prop} (h : Logs P c c')
    (hP : ∀ event, P event → event.AboutNoPeer) : c.Tells none c' := by
  obtain ⟨new, hnew, hall⟩ := h
  exact ⟨new, hnew, fun event he => hP event (hall event he)⟩

end Coordinator.Tells

theorem EnrolPc.step_tells (r : Enrolment) (pc : EnrolPc) (amb : Ambient) (s : Shared) :
    s.coordinator.Tells (Thread.enrol r pc).broadcasts (pc.step r amb s).1.coordinator := by
  cases pc with
  | announceMove | announceMoved | announceRefreshed | announceEvicted | announceJoined =>
    exact .event _ _
  | evict holderId leftAt => exact .nothing (Coordinator.broadcaster_applyPeerLeft _ _)
  | persistMoved | persistEvicted | persistJoined =>
    exact .nothing (Coordinator.broadcaster_persistRoster _ _)
  | lock | findExisting | readNetwork | allocate | checkHeld | refresh | findHolder | checkStale
  | resolveUla | checkConflict =>
    simp only [step]
    repeat' split
    all_goals exact .nothing rfl
  | readTags | insert | seed | unlock | listVisible => exact .nothing rfl

theorem tryEmitHolepunchPair_tells (now : Int) (a : PeerEntry) (c : Coordinator) (b : PeerEntry) :
    c.Tells none (Coordinator.tryEmitHolepunchPair now a c b) := by
  refine .of_logs (Coordinator.tryEmitHolepunchPair_logs now a c b) ?_
  rintro event ⟨pa, pb, -, -, hevent⟩
  simp only [punchDirectives, List.mem_cons, List.not_mem_nil, or_false] at hevent
  rcases hevent with rfl | rfl
  · exact fun _ => rfl
  · exact fun _ => rfl

theorem BeatPc.step_tells (b : Beat) (pc : BeatPc) (amb : Ambient) (s : Shared) :
    s.coordinator.Tells (Thread.beat b pc).broadcasts (pc.step b amb s).1.coordinator := by
  cases pc with
  | announce snapshot => exact .event _ _
  | punch snapshot now candidates =>
    cases candidates with
    | nil => exact .nothing rfl
    | cons candidate candidates => exact tryEmitHolepunchPair_tells now snapshot _ candidate
  | find | read | recordPaths | ack =>
    simp only [step, Coordinator.recordPeerPaths, Coordinator.ackCommands]
    split <;> exact .nothing rfl
  | apply | setRelayOnly | roam | listCandidates | recordHealth | drain | listVisible =>
    exact .nothing rfl

theorem LeavePc.step_tells (reason : LeaveReason) (peerId : Uuid) (rest : List Uuid)
    (reply : Reply) (pc : LeavePc) (amb : Ambient) (s : Shared) :
    s.coordinator.Tells (Thread.leave reason peerId pc rest reply).broadcasts
      (pc.step reason peerId rest reply amb s).1.coordinator := by
  cases pc with
  | find =>
    simp only [step]
    split <;> exact .nothing rfl
  | remove tags leftAt => exact .nothing (Coordinator.broadcaster_applyPeerLeft _ _)
  | announce tags => exact .event _ _
  | persist => exact .nothing (Coordinator.broadcaster_persistRoster _ _)

theorem routeUplink_tells (c : Coordinator) (now : Nat) (wallMicros : Int)
    (myPubkey buf : List UInt8) :
    c.Tells none (c.routeUplink now wallMicros myPubkey buf).1 := by
  unfold Coordinator.routeUplink
  split
  · exact .nothing rfl
  · split
    · exact .nothing rfl
    · dsimp only
      split
      · dsimp only [Coordinator.noteRelayPairForwarded]
        split <;> exact .nothing rfl
      · dsimp only
        split
        · unfold Coordinator.wakeDestination
          split
          · split
            · exact ⟨[_], rfl, fun event he => List.mem_singleton.mp he ▸ fun _ => rfl⟩
            · exact .nothing rfl
          · exact .nothing rfl
        · exact .nothing rfl

theorem Mesh.single_tells (s : Mesh) {op : Op} (h : op.isSingle = true) :
    s.coordinator.Tells none (s.step op).1.coordinator := by
  have hleaves := s.leaves op
  generalize (s.step op).1.coordinator = c at hleaves
  cases hleaves with
  | register | heartbeat | deregister | sweep | policy | restart => cases h
  | same | flags | proactive | command | relay | reorder => exact .nothing rfl
  | uplink => exact routeUplink_tells _ _ _ _ _

theorem Thread.step_tells (t : Thread) (amb : Ambient) (s : Shared) :
    s.coordinator.Tells t.broadcasts (t.step amb s).1.coordinator := by
  cases t with
  | enrol r pc => exact pc.step_tells r amb s
  | beat b pc => exact pc.step_tells b amb s
  | leave reason peerId pc rest reply => exact pc.step_tells reason peerId rest reply amb s
  | arrive | replacePolicy =>
    simp only [step]
    split <;> exact .nothing rfl
  | resync peers =>
    cases peers with
    | nil => exact .nothing rfl
    | cons info peers => exact .event _ _
  | stream pc =>
    cases pc with
    | findViewer peerId =>
      simp only [step, StreamPc.step]
      split <;> exact .nothing rfl
    | subscribe | snapshot | attach => exact .nothing rfl
  | single op h => exact s.mesh.single_tells h
  | reap | listStale | listPeers | done => exact .nothing rfl

end ServiceMesh
