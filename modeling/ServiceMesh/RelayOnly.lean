import ServiceMesh.Disclosure
import ServiceMesh.ThreadSteps

/-! Relay-only peers and their endpoints. The flag and the endpoint are written by different
requests: a register writes both at once, a heartbeat writes the flag alone and then leaves the
endpoint of a relay-only peer untouched. -/

namespace ServiceMesh

open StdNet (Ipv6Addr SocketAddr)

section

variable [Crates]

def PeerEntry.Concealed (e : PeerEntry) : Prop := e.relayOnly = true → e.listenEndpoint = none

def PeerInfo.Concealed (info : PeerInfo) : Prop :=
  info.relayOnly = true → info.listenEndpoint = none

def PeerInfo.Copies (roster : DashMap Uuid PeerEntry) (info : PeerInfo) : Prop :=
  ∃ e ∈ roster.values, ∃ connectivity age, info = e.toInfoWithConnectivity connectivity age

/-- No heartbeat switches `relay_only` on for a peer that has an endpoint stored. -/
def FlipsWithoutEndpoint (s : Mesh) : Op → Prop
  | .heartbeat _ req _ =>
    req.relayOnly = true → ∀ id, Uuid.parseStr req.peerId = .ok id →
      ∀ e, s.coordinator.roster.lookup id = some e → e.relayOnly = false → e.listenEndpoint = none
  | _ => True

instance (s : Mesh) : (op : Op) → Decidable (FlipsWithoutEndpoint s op)
  | .heartbeat _ req _ =>
    match h : Uuid.parseStr req.peerId with
    | .error _ => .isTrue (by simp [FlipsWithoutEndpoint, h])
    | .ok id =>
      decidable_of_iff (req.relayOnly = true → ∀ e ∈ (s.coordinator.roster.lookup id).toList,
          e.relayOnly = false → e.listenEndpoint = none)
        (by simp [FlipsWithoutEndpoint, h])
  | .register .. | .deregister .. | .sweep .. | .putPolicy .. | .postDirect .. | .setProactive ..
  | .postCommand .. | .openStream .. | .pollStream .. | .closeStream .. | .relayConnect ..
  | .relayUplink .. | .relayDeliver .. | .relaySendEnd .. | .relayDisconnect ..
  | .reorderRoster .. | .restart .. => .isTrue trivial

namespace PeerEntry.Concealed

omit [Crates] in
theorem of_standing {e e' : PeerEntry} (h : SameStanding e e') (he : e.Concealed) :
    e'.Concealed := by
  obtain ⟨hflag, hendpoint⟩ := h.endpoint
  intro hrelay
  rw [hendpoint]
  exact he (hflag ▸ hrelay)

theorem of_writes {c : Coordinator} {amb : Ambient} {req : RegisterRequest} {bearer : Option String}
    {observed : Option SocketAddr} {claims : Option ValidatedClaims} {e : PeerEntry}
    (h : c.Writes amb req bearer observed claims e) : e.Concealed := by
  intro hrelay
  have hreq : req.relayOnly = true := h.relayOnly ▸ hrelay
  have hresolved : req.resolved observed = ⟨none, false⟩ := by
    unfold RegisterRequest.resolved resolveListenEndpoint
    rw [if_pos hreq]
  rw [h.listenEndpoint, hresolved]

omit [Crates] in
theorem beaten {req : HeartbeatRequest} {e : PeerEntry} (now : Nat) (observed : Option SocketAddr)
    (he : req.relayOnly = true → e.listenEndpoint = none) :
    (req.beaten now observed e).Concealed := by
  cases hflag : req.relayOnly with
  | true =>
    -- the roaming step returns at once for a relay-only peer
    have hbeaten : (req.beaten now observed e).listenEndpoint = e.listenEndpoint := by
      rw [HeartbeatRequest.beaten, hflag]
      rfl
    intro _
    rw [hbeaten]
    exact he hflag
  | false =>
    have hbeaten : (req.beaten now observed e).relayOnly = false := by
      rw [HeartbeatRequest.beaten, hflag, beatenEntry]
      unfold roamedEntry
      rw [if_neg Bool.false_ne_true]
      split
      · rfl
      · split
        · rfl
        · dsimp only
          split <;> rfl
    intro hrelay
    rw [hbeaten] at hrelay
    cases hrelay

theorem restored {e : PeerEntry} (he : e.Concealed) (id : Uuid) (ula : Ipv6Addr) (now : Nat) :
    (RosterState.joinedEntry e.toJoinedEvent id ula now).Concealed := by
  intro hrelay
  have hnone : e.listenEndpoint = none := he hrelay
  have hsaved : e.toJoinedEvent.listenEndpoint = "" := by
    simp only [PeerEntry.toJoinedEvent, hnone, Option.getD_none]
  exact if_pos hsaved

end PeerEntry.Concealed

theorem PeerInfo.Concealed.of_copy {m : RosterState} (h : m.Every PeerEntry.Concealed)
    {info : PeerInfo} (hcopy : info.Copies m.roster) : info.Concealed := by
  obtain ⟨e, he, connectivity, age, rfl⟩ := hcopy
  obtain ⟨id, hid⟩ := AList.mem_values_iff.mp he
  exact h.entry hid

theorem Mesh.step_concealed {G : Uuid → Ipv6Addr → Prop} {s : Mesh}
    (hinv : s.coordinator.toRosterState.Inv G)
    (h : s.coordinator.toRosterState.Every PeerEntry.Concealed) {op : Op}
    (hflip : FlipsWithoutEndpoint s op) :
    (s.step op).1.coordinator.toRosterState.Every PeerEntry.Concealed := by
  refine s.step_every hinv h (fun e e' => .of_standing) ?_ ?_ ?_
  · intro amb req bearer observed claims e _ hw
    exact .of_writes hw
  · intro amb req observed id e hop hid he hconcealed
    subst hop
    refine .beaten amb.now observed ?_
    intro hreq
    cases hflag : e.relayOnly with
    | true => exact hconcealed hflag
    | false => exact hflip hreq id hid e he hflag
  · intro now e id ula he
    exact he.restored id ula now

theorem PeerInfo.Copies.toInfo {roster : DashMap Uuid PeerEntry} {id : Uuid} {e : PeerEntry}
    (h : roster.lookup id = some e) : e.toInfo.Copies roster :=
  ⟨e, AList.lookup_mem_values h, none, none, rfl⟩

namespace Coordinator

theorem visiblePeers_copies {c : Coordinator} {viewerId : Uuid} {viewerTags : List String}
    {info : PeerInfo} (h : info ∈ c.visiblePeers viewerId viewerTags) : info.Copies c.roster := by
  obtain ⟨e, he, rfl⟩ := List.mem_map.mp h
  have hmem := (List.perm_insertionSort _ _).mem_iff.mp he
  exact ⟨e, (List.mem_filter.mp hmem).1, none, none, rfl⟩

theorem snapshotWithVantage_copies {c : Coordinator} {vantage : Option Uuid} {info : PeerInfo}
    (h : info ∈ c.snapshotWithVantage vantage) : info.Copies c.roster := by
  obtain ⟨e, he, rfl⟩ := List.mem_map.mp h
  have hmem := (List.perm_insertionSort _ c.roster.values).mem_iff.mp he
  exact ⟨e, hmem, _, _, rfl⟩

theorem snapshot_copies {c : Coordinator} {info : PeerInfo} (h : info ∈ c.snapshot) :
    info.Copies c.roster := by
  have hself : c.snapshotWithVantage none = c.snapshot := rfl
  exact snapshotWithVantage_copies (hself ▸ h)

end Coordinator

omit [Crates] in
theorem PeerEvent.AboutNoPeer.info {event : PeerEvent} (h : event.AboutNoPeer) :
    event.info = none := by
  cases event with
  | added info | updated info =>
    have hkind := h info.peerId
    simp [PeerEvent.kindFor] at hkind
  | removed | holePunch | relayWake => rfl

omit [Crates] in
theorem PeerEvent.IsRemoval.info {event : PeerEvent} (h : event.IsRemoval) : event.info = none := by
  cases event with
  | removed => rfl
  | _ => exact h.elim

def Displays (roster : DashMap Uuid PeerEntry) (event : PeerEvent) : Prop :=
  ∀ info, event.info = some info → info.Copies roster

namespace Displays

variable {roster : DashMap Uuid PeerEntry}

theorem of_info {event : PeerEvent} (h : event.info = none) : Displays roster event := by
  intro info hinfo
  rw [h] at hinfo
  cases hinfo

theorem of_copy {event : PeerEvent} {info : PeerInfo} (hevent : event.info = some info)
    (h : info.Copies roster) : Displays roster event := by
  intro info' hinfo
  rw [hevent] at hinfo
  exact Option.some.inj hinfo ▸ h

end Displays

section

open Coordinator (Logs)

variable {G : Uuid → Ipv6Addr → Prop}

theorem registerHandler_displays {c : Coordinator} (h : c.toRosterState.Inv G) (amb : Ambient)
    (req : RegisterRequest) (bearer : Option String) (observed : Option SocketAddr) :
    Logs (Displays (c.registerHandler amb req bearer observed).1.roster) c
      (c.registerHandler amb req bearer observed).1 := by
  obtain ⟨hlogs, hlook⟩ := Coordinator.registerAuthenticated_logs amb req observed bearer h
  rw [Coordinator.registerHandler_fst]
  refine hlogs.mono ?_
  intro event hshows
  rcases hshows with hgone | ⟨entry, hans, hevent⟩
  · exact .of_info hgone.info
  · cases hr : (c.registerAuthenticated amb req bearer observed).2 with
    | error err => simp [hr, Except.map] at hans
    | ok x =>
      obtain ⟨entry', outcome⟩ := x
      obtain rfl : entry' = entry := by simpa [hr, Except.map] using hans
      have hcopy := PeerInfo.Copies.toInfo (hlook entry' outcome hr)
      rcases hevent with rfl | rfl
      · exact .of_copy rfl hcopy
      · exact .of_copy rfl hcopy

theorem heartbeatHandler_displays {c : Coordinator} (h : c.toRosterState.Inv G) (amb : Ambient)
    (req : HeartbeatRequest) (observed : Option SocketAddr) :
    Logs (Displays (c.heartbeatHandler amb req observed).1.roster) c
      (c.heartbeatHandler amb req observed).1 := by
  rcases c.heartbeatHandler_cases amb req observed with ⟨err, hsame⟩ | ⟨id, e, hid, he⟩
  · rw [hsame]
    exact .refl c
  · have hstored : (c.heartbeatHandler amb req observed).1.roster.lookup id =
        some (Coordinator.reported req (req.beaten amb.now observed e)) := by
      rw [Coordinator.heartbeatHandler_roster h amb observed hid he, AList.lookup_modify,
        if_pos rfl, he]
      rfl
    have hlog : (c.heartbeatHandler amb req observed).1.broadcaster =
        (c.beat amb id req observed e).broadcaster := by
      rw [Coordinator.heartbeatHandler_eq amb observed hid he]
      exact Coordinator.broadcaster_recordReports _ _ _
    refine ((Coordinator.beat_logs amb observed hid he).mono ?_).trans (.of_eq hlog)
    intro event hevent
    rcases hevent with rfl | ⟨b, -, hp, rfl, -⟩
    · -- the reports recorded after the broadcast are not part of an info
      have hcopy := PeerInfo.Copies.toInfo hstored
      exact .of_copy rfl hcopy
    · exact .of_info rfl

theorem Mesh.step_displays {s : Mesh} (h : s.coordinator.toRosterState.Inv G) {op : Op}
    (hlive : op.Live) :
    Logs (Displays (s.step op).1.coordinator.roster) s.coordinator (s.step op).1.coordinator := by
  by_cases hsingle : op.isSingle = true
  · obtain ⟨new, hnew, hquiet⟩ := s.single_tells hsingle
    exact ⟨new, hnew, fun event he => .of_info (hquiet event he).info⟩
  · have hleaves := s.leaves op
    generalize (s.step op).1.coordinator = c at hleaves ⊢
    cases hleaves with
    | same => exact .refl _
    | register amb req bearer observed => exact registerHandler_displays h amb req bearer observed
    | heartbeat amb req observed => exact heartbeatHandler_displays h amb req observed
    | deregister amb =>
      exact (s.coordinator.deregister_logs amb _ _).mono (fun _ hgone => .of_info hgone.info)
    | sweep amb =>
      exact (s.coordinator.sweepOnce_logs amb).mono (fun _ hgone => .of_info hgone.info)
    | policy ifMatch newPolicy policy =>
      refine ⟨_, rfl, ?_⟩
      intro event hevent
      obtain ⟨info, hinfo, rfl⟩ := List.mem_map.mp hevent
      exact .of_copy rfl (Coordinator.snapshot_copies hinfo)
    | restart => exact hlive.elim
    | relay hrelay => cases hrelay <;> cases hsingle rfl
    | _ => cases hsingle rfl

end

def Reply.infos : Reply → List PeerInfo
  | .register (.ok r) => r.response.peers
  | .heartbeat (.ok r) => r.peers
  | .opened _ frames => frames.filterMap PeerEvent.info
  | .frame (some event) => event.info.toList
  | _ => []

theorem Stream.opened_copies {c : Coordinator} {viewer : Option (Uuid × List String)}
    {frame : PeerEvent} (hframe : frame ∈ (Stream.opened c viewer).2) {info : PeerInfo}
    (hinfo : frame.info = some info) : info.Copies c.roster := by
  have bootstrap : ∀ event ∈ c.snapshot.map PeerEvent.added, event.info = some info →
      info.Copies c.roster := by
    intro event hevent hshown
    obtain ⟨info', hmem, rfl⟩ := List.mem_map.mp hevent
    have hsame : info' = info := Option.some.inj hshown
    exact Coordinator.snapshot_copies (hsame ▸ hmem)
  cases viewer with
  | none => exact bootstrap frame hframe hinfo
  | some viewer =>
    obtain ⟨event, hevent, hpass⟩ := ViewerFilter.applyAll_passes hframe
    exact bootstrap event hevent (hpass.info hinfo)

theorem Stream.next_info {stream : Stream} {c : Coordinator} {frame : PeerEvent}
    (hframe : (stream.next c).2 = some frame) {info : PeerInfo} (hinfo : frame.info = some info) :
    ∃ event ∈ c.broadcaster, event.info = some info := by
  cases hf : stream.filter with
  | some f =>
    obtain ⟨event, hevent, hpass⟩ := Stream.next_passes hf hframe
    exact ⟨event, List.mem_of_getElem? hevent, hpass.info hinfo⟩
  | none =>
    unfold Stream.next at hframe
    split at hframe
    · cases hframe
    · split at hframe
      · cases hframe
      · rename_i event hevent
        simp only [hf] at hframe
        exact ⟨event, List.mem_of_getElem? hevent, Option.some.inj hframe ▸ hinfo⟩

theorem Mesh.openStream_copies {s : Mesh} {viewer : Option (Uuid × List String)} {info : PeerInfo}
    (h : info ∈ (s.openStream viewer).2.infos) :
    info.Copies (s.openStream viewer).1.coordinator.roster := by
  obtain ⟨frame, hframe, hinfo⟩ := List.mem_filterMap.mp h
  exact Stream.opened_copies hframe hinfo

theorem Mesh.step_infos {s : Mesh} {op : Op} {info : PeerInfo} (h : info ∈ (s.step op).2.infos) :
    info.Copies (s.step op).1.coordinator.roster ∨
      ∃ event ∈ s.coordinator.broadcaster, event.info = some info := by
  cases op with
  | register amb req bearer observed =>
    left
    simp only [step, Coordinator.registerHandler] at h ⊢
    split at h
    · cases h
    · exact Coordinator.visiblePeers_copies h
  | heartbeat amb req observed =>
    left
    simp only [step, Coordinator.heartbeatHandler] at h ⊢
    split at h
    · cases h
    · split at h
      · cases h
      · exact Coordinator.visiblePeers_copies h
  | openStream peerId =>
    left
    cases peerId with
    | none => exact openStream_copies h
    | some peerId =>
      simp only [step] at h ⊢
      split at h
      · cases h
      · exact openStream_copies h
  | pollStream handle =>
    right
    simp only [step, pollStream] at h
    split at h
    · cases h
    · rename_i stream _
      dsimp only at h
      cases hframe : (stream.next s.coordinator).2 with
      | none => simp [hframe, Reply.infos] at h
      | some frame =>
        rw [hframe] at h
        exact Stream.next_info hframe (Option.mem_toList.mp h)
  | relayConnect now pubkey lane =>
    simp only [step, relayConnect] at h
    split at h <;> cases h
  | relayUplink | relayDeliver | relaySendEnd | relayDisconnect =>
    simp only [step, withSocket] at h
    split at h <;> cases h
  | _ => cases h

structure Discreet (tr : List (Op × Reply)) (s : Mesh) : Prop where
  entries : s.coordinator.toRosterState.Every PeerEntry.Concealed
  log : ∀ event ∈ s.coordinator.broadcaster, ∀ info, event.info = some info → info.Concealed
  replies : ∀ x ∈ tr, ∀ info ∈ x.2.infos, info.Concealed

theorem Discreet.step {cfg : Config} {tr : List (Op × Reply)} {s : Mesh} {op : Op}
    (hrun : (mesh cfg).Reach tr s) (h : Discreet tr s) (hflip : FlipsWithoutEndpoint s op) :
    Discreet ((op, (s.step op).2) :: tr) (s.step op).1 := by
  have hinv := inv_of_reach hrun
  have hentries := s.step_concealed hinv h.entries hflip
  refine ⟨hentries, ?_, ?_⟩
  · by_cases hlive : op.Live
    · obtain ⟨new, hnew, hshown⟩ := s.step_displays hinv hlive
      rw [hnew]
      intro event hevent info hinfo
      rcases List.mem_append.mp hevent with hevent | hevent
      · exact h.log event hevent info hinfo
      · exact .of_copy hentries (hshown event hevent info hinfo)
    · -- a restart begins with an empty log
      cases op with
      | restart cfg now file =>
        intro event hevent
        cases hevent
      | _ => exact absurd trivial hlive
  · intro x hx info hinfo
    rcases List.mem_cons.mp hx with rfl | hx
    · rcases s.step_infos hinfo with hcopy | ⟨event, hevent, hshown⟩
      · exact .of_copy hentries hcopy
      · exact h.log event hevent info hshown
    · exact h.replies x hx info hinfo

theorem discreet_of_run {cfg : Config} {tr : List (Op × Reply)} {s : Mesh}
    (h : (mesh cfg).Run FlipsWithoutEndpoint tr s) : Discreet tr s := by
  refine Machine.Run.invariant (I := Discreet) ?_ ?_ h
  · refine ⟨⟨?_, ?_⟩, ?_, ?_⟩
    · intro id e he
      cases he
    · intro peers hpeers
      cases hpeers
    · intro event hevent
      cases hevent
    · intro x hx
      cases hx
  · intro tr s op hrun hdiscreet _ hflip
    exact hdiscreet.step hrun.reach hflip

theorem relayOnly_hides_endpoint {cfg : Config} {tr : List (Op × Reply)} {s : Mesh}
    (h : (mesh cfg).Run FlipsWithoutEndpoint tr s) :
    (∀ id e, s.coordinator.roster.lookup id = some e → e.relayOnly = true →
      e.listenEndpoint = none) ∧
    (∀ event ∈ s.coordinator.broadcaster, ∀ info, event.info = some info → info.relayOnly = true →
      info.listenEndpoint = none) ∧
    (∀ x ∈ tr, ∀ info ∈ x.2.infos, info.relayOnly = true → info.listenEndpoint = none) ∧
    ∀ vantage, ∀ info ∈ s.coordinator.snapshotWithVantage vantage, info.relayOnly = true →
      info.listenEndpoint = none := by
  have hall := discreet_of_run h
  refine ⟨fun id e he => hall.entries.entry he, hall.log, hall.replies, ?_⟩
  intro vantage info hinfo
  exact PeerInfo.Concealed.of_copy hall.entries (Coordinator.snapshotWithVantage_copies hinfo)

end

attribute [local instance] referenceCrates

def hideBeat (id : Uuid) : Op :=
  .heartbeat (ambientAt 0 0) ⟨id.toString, none, [], none, none, true, [], true, []⟩ none

def hideOps : List Op := [appOp 1 keyOne "fd5a:1f02:1::1" "1.1.1.1:1" [], hideBeat 1]

theorem relayOnly_heartbeat_keeps_endpoint :
    ∃ tr s e info, (mesh openConfig).Reach tr s ∧ s.coordinator.roster.lookup 1 = some e ∧
      e.relayOnly = true ∧ e.listenEndpoint = some "1.1.1.1:1" ∧
      PeerEvent.updated info ∈ s.coordinator.broadcaster ∧ info.relayOnly = true ∧
      info.listenEndpoint = some "1.1.1.1:1" := by
  have hall : (mesh openConfig).Admissible (fun _ _ => True) [] (Mesh.init openConfig) hideOps ∧
      ((stateAfter openConfig hideOps).coordinator.roster.lookup 1).map
        (fun e => (e.relayOnly, e.listenEndpoint)) = some (true, some "1.1.1.1:1") ∧
      ((stateAfter openConfig hideOps).coordinator.broadcaster.findSome? PeerEvent.shown).map
        (fun info => (info.relayOnly, info.listenEndpoint)) = some (true, some "1.1.1.1:1") := by
    decide +kernel
  obtain ⟨hadm, hentry, hlog⟩ := hall
  obtain ⟨e, he, hpair⟩ := Option.map_eq_some_iff.mp hentry
  obtain ⟨info, hinfo, hpair'⟩ := Option.map_eq_some_iff.mp hlog
  obtain ⟨event, hevent, hshown⟩ := List.exists_of_findSome?_eq_some hinfo
  obtain rfl := PeerEvent.shown_eq_some hshown
  obtain ⟨hflag, hendpoint⟩ := Prod.mk.inj hpair
  obtain ⟨hflag', hendpoint'⟩ := Prod.mk.inj hpair'
  exact ⟨_, _, e, info, reach_of_admissible hadm, he, hflag, hendpoint, hevent, hflag', hendpoint'⟩

def hiddenOps : List Op :=
  [appOp 1 keyOne "fd5a:1f02:1::1" "1.1.1.1:1" [],
    registerOp 0 2 (plainRequest keyTwo "" (some "fd5a:1f02:2::1")), hideBeat 2,
    registerOp 0 3 (plainRequest keyThree "" (some "fd5a:1f02:3::1")),
    .restart openConfig 0 (some 0)]

theorem relayOnly_hides_endpoint_hidden :
    ∃ e, (stateAfter openConfig hiddenOps).coordinator.roster.lookup 2 = some e ∧
      e.relayOnly = true ∧ e.listenEndpoint = none := by
  have hall : (mesh openConfig).Admissible FlipsWithoutEndpoint [] (Mesh.init openConfig)
        hiddenOps ∧
      ((stateAfter openConfig hiddenOps).coordinator.roster.lookup 2).map PeerEntry.relayOnly =
        some true := by decide +kernel
  have hrun : (mesh openConfig).Run FlipsWithoutEndpoint (traceAfter openConfig hiddenOps)
      (stateAfter openConfig hiddenOps) := Machine.Run.start.exec hall.1
  obtain ⟨e, he, hflag⟩ := Option.map_eq_some_iff.mp hall.2
  exact ⟨e, he, hflag, (relayOnly_hides_endpoint hrun).1 2 e he hflag⟩

end ServiceMesh
