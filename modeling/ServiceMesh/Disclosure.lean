import ServiceMesh.RosterIntegrity
import ServiceMesh.ViewerFrames

/-! Who is told about whom. Peer lists and streamed announcements pass the policy on their way
out; hole-punch directives are routed by peer id alone, and a stream keeps the tags its viewer
had when it subscribed. -/

namespace ServiceMesh

open StdNet (Ipv6Addr SocketAddr)

section

variable [Crates]

inductive Delivers (s : Mesh) : Op → Uuid → Option Nat → PeerEvent → Prop
  | registerPeers {amb : Ambient} {req : RegisterRequest} {bearer : Option String}
      {observed : Option SocketAddr} {r : Registered} {info : PeerInfo}
      (hr : (s.step (.register amb req bearer observed)).2 = .register (.ok r))
      (hinfo : info ∈ r.response.peers) :
      Delivers s (.register amb req bearer observed) r.entry.peerId none (.added info)
  | heartbeatPeers {amb : Ambient} {req : HeartbeatRequest} {observed : Option SocketAddr}
      {viewer : Uuid} {response : HeartbeatResponse} {info : PeerInfo}
      (hid : Uuid.parseStr req.peerId = .ok viewer)
      (hr : (s.step (.heartbeat amb req observed)).2 = .heartbeat (.ok response))
      (hinfo : info ∈ response.peers) :
      Delivers s (.heartbeat amb req observed) viewer none (.added info)
  | streamOpened {peerId : String} {viewer : Uuid} {handle : Nat} {frames : List PeerEvent}
      {frame : PeerEvent} (hid : Uuid.parseStr peerId = .ok viewer)
      (hr : (s.step (.openStream (some peerId))).2 = .opened handle frames)
      (hframe : frame ∈ frames) : Delivers s (.openStream (some peerId)) viewer none frame
  | streamPolled {handle : Nat} {stream : Stream} {f : ViewerFilter} {frame : PeerEvent}
      (hs : s.streams.lookup handle = some stream) (hf : stream.filter = some f)
      (hr : (s.step (.pollStream handle)).2 = .frame (some frame)) :
      Delivers s (.pollStream handle) f.viewerId (some stream.cursor) frame

section Permission

variable (cfg : Config) (C : Mesh → Op → Prop) (tr : List (Op × Reply)) (s : Mesh) (op : Op)

def Stored (q : PeerEntry) : Prop :=
  q ∈ (s.step op).1.coordinator.roster.values ∨
    ∃ s₀ i, (mesh cfg).Since C Op.Live tr s₀ i ∧ q ∈ (s₀.step i).1.coordinator.roster.values

structure ProducedAt (position : Option Nat) (event : PeerEvent) (s₀ : Mesh) (i : Op) : Prop where
  since : (mesh cfg).Since C Op.Live tr s₀ i
  at_position : ∃ k, position = some k ∧ s₀.coordinator.broadcaster.length ≤ k ∧
    (s₀.step i).1.coordinator.broadcaster[k]? = some event

def Permitted (p : PeerEntry) (position : Option Nat) : PeerEvent → Prop
  | .added info | .updated info =>
    ∃ q, Stored cfg C tr s op q ∧ q.peerId.toString = info.peerId ∧ q.tags = info.tags ∧
      (s.step op).1.coordinator.policy.current.canSee p.tags q.tags = true
  | .removed _ _ => True
  | .holePunch hp =>
    ∃ s₀ i, ProducedAt cfg C tr position (.holePunch hp) s₀ i ∧
      ∃ a ∈ s₀.coordinator.roster.values, ∃ q ∈ s₀.coordinator.roster.values,
        a.peerId = p.peerId ∧ q.peerId.toString = hp.targetPeerId ∧
        s₀.coordinator.policy.current.canSee a.tags q.tags = true
  | .relayWake rw =>
    ∃ s₀ i, ProducedAt cfg C tr position (.relayWake rw) s₀ i ∧
      ∃ a ∈ s₀.coordinator.roster.values, ∃ q ∈ s₀.coordinator.roster.values,
        a.peerId = p.peerId ∧ q.ula.toString = rw.sourceUla ∧
        s₀.coordinator.policy.current.canSee a.tags q.tags = true

end Permission

/-- A heartbeat finds only pairs that see each other, and a stream is polled only while its viewer
has the tags it subscribed with. -/
def DisclosesByPolicy (s : Mesh) : Op → Prop
  | .heartbeat amb req observed =>
    ∀ a b, s.coordinator.FindsPair amb req observed a b →
      s.coordinator.policy.current.canSee a.tags b.tags = true
  | .pollStream handle =>
    ∀ stream f p, s.streams.lookup handle = some stream → stream.filter = some f →
      s.coordinator.roster.lookup f.viewerId = some p → f.viewerTags = p.tags
  | _ => True

theorem mem_visiblePeers {c : Coordinator} {viewer : Uuid} {tags : List String} {info : PeerInfo}
    (h : info ∈ c.visiblePeers viewer tags) :
    ∃ q ∈ c.roster.values, q.peerId.toString = info.peerId ∧ q.tags = info.tags ∧
      c.policy.current.canSee tags q.tags = true := by
  obtain ⟨q, hq, rfl⟩ := List.mem_map.mp h
  have hmem := (List.perm_insertionSort _ _).mem_iff.mp hq
  obtain ⟨hval, hsee⟩ := List.mem_filter.mp hmem
  simp only [Bool.and_eq_true] at hsee
  exact ⟨q, hval, rfl, rfl, hsee.2⟩

theorem heartbeatHandler_peers {G : Uuid → Ipv6Addr → Prop} {c : Coordinator}
    (hi : c.toRosterState.Inv G) {amb : Ambient} {req : HeartbeatRequest}
    {observed : Option SocketAddr} {viewer : Uuid} {response : HeartbeatResponse}
    (hid : Uuid.parseStr req.peerId = .ok viewer)
    (h : (c.heartbeatHandler amb req observed).2 = .ok response) :
    ∃ p, (c.heartbeatHandler amb req observed).1.roster.lookup viewer = some p ∧
      response.peers = (c.heartbeatHandler amb req observed).1.visiblePeers viewer p.tags := by
  cases he : c.roster.lookup viewer with
  | none =>
    rw [Coordinator.heartbeatHandler_unknown amb observed hid he] at h
    simp at h
  | some e =>
    have hpid : (req.beaten amb.now observed e).peerId = viewer :=
      (sameSeat_beatenEntry _ _ _ _ _ _ _ e).peerId.trans (hi.keyed he)
    obtain ⟨p, hp, -, htags, -⟩ := Coordinator.recordReports_lookup req
      (Coordinator.lookup_beat amb req observed he)
    rw [Coordinator.heartbeatHandler_eq amb observed hid he] at h ⊢
    simp only [hpid] at h ⊢
    obtain rfl := Except.ok.inj h
    exact ⟨p, hp, by rw [htags]⟩

theorem streamViewer_eq_some {c : Coordinator} {peerId : String} {viewer : Uuid}
    {tags : List String} (h : c.streamViewer peerId = some (viewer, tags)) :
    Uuid.parseStr peerId = .ok viewer ∧ ∃ p, c.roster.lookup viewer = some p ∧ p.tags = tags := by
  unfold Coordinator.streamViewer at h
  split at h
  · simp at h
  · rename_i id hid
    obtain ⟨tags', htags, hpair⟩ := Option.map_eq_some_iff.mp h
    obtain ⟨rfl, rfl⟩ := Prod.mk.inj hpair
    obtain ⟨p, hp, rfl⟩ := Option.map_eq_some_iff.mp htags
    exact ⟨hid, p, hp, rfl⟩

theorem produced_of_run {cfg : Config} {C : Mesh → Op → Prop} {tr : List (Op × Reply)} {s : Mesh}
    (h : (mesh cfg).Run C tr s) {k : Nat} {event : PeerEvent}
    (hk : s.coordinator.broadcaster[k]? = some event) :
    ∃ s₀ i, ProducedAt cfg C tr (some k) event s₀ i ∧ C s₀ i ∧ Justified s₀ i event := by
  have happend : ∀ {tr s i}, (mesh cfg).Run C tr s → (mesh cfg).admits tr i → i.Live →
      List.IsPrefix s.coordinator.broadcaster ((mesh cfg).step s i).1.coordinator.broadcaster := by
    intro tr s i hr _ hlive
    obtain ⟨new, hnew, -⟩ := Mesh.step_logs (inv_of_run hr) hlive
    exact ⟨new, hnew.symm⟩
  have hempty : ∀ (s : Mesh) (i : Op), ¬ i.Live →
      ((mesh cfg).step s i).1.coordinator.broadcaster = [] := by
    intro s i hdead
    cases i with
    | restart => rfl
    | _ => exact absurd trivial hdead
  obtain ⟨s₀, i, hsince, hle, hat⟩ := Machine.Run.since_of_log
    (fun s : Mesh => s.coordinator.broadcaster) rfl happend hempty h hk
  have ⟨_, _, _, hrun, hc, _⟩ := hsince
  refine ⟨s₀, i, ⟨hsince, k, rfl, hle, hat⟩, hc, ?_⟩
  by_cases hlive : i.Live
  · obtain ⟨new, hnew, hjust⟩ := Mesh.step_logs (inv_of_run hrun) hlive
    have hat' : (s₀.coordinator.broadcaster ++ new)[k]? = some event := hnew ▸ hat
    rw [List.getElem?_append_right hle] at hat'
    exact hjust event (List.mem_of_getElem? hat')
  · rw [hempty s₀ i hlive] at hat
    simp at hat

theorem permitted_of_poll {cfg : Config} {tr : List (Op × Reply)} {s : Mesh}
    (h : (mesh cfg).Run DisclosesByPolicy tr s) {handle : Nat} {stream : Stream} {f : ViewerFilter}
    {frame : PeerEvent} {p : PeerEntry} (hs : s.streams.lookup handle = some stream)
    (hf : stream.filter = some f) (hnext : (stream.next s.coordinator).2 = some frame)
    (hp : s.coordinator.roster.lookup f.viewerId = some p) (htags : f.viewerTags = p.tags) :
    Permitted cfg DisclosesByPolicy tr s (.pollStream handle) p (some stream.cursor) frame := by
  have hsame : (s.step (.pollStream handle)).1.coordinator = s.coordinator := by
    simp only [Mesh.step, Mesh.pollStream, hs]
  have hpid : p.peerId = f.viewerId := (inv_of_run h).keyed hp
  obtain ⟨event, hevent, hpass⟩ := Stream.next_passes hf hnext
  obtain ⟨s₀, i, hprod, hc, hjust⟩ := produced_of_run h hevent
  have shown : ∀ info, (event = .added info ∨ event = .updated info) ∧
      s.coordinator.viewerCanSee f.viewerTags info.tags = true →
      ∃ q, Stored cfg DisclosesByPolicy tr s (.pollStream handle) q ∧
        q.peerId.toString = info.peerId ∧ q.tags = info.tags ∧
        (s.step (.pollStream handle)).1.coordinator.policy.current.canSee p.tags q.tags = true := by
    rintro info ⟨hinfo, hsee⟩
    have hann : ∃ q ∈ (s₀.step i).1.coordinator.roster.values, q.peerId.toString = info.peerId ∧
        q.tags = info.tags := by
      rcases hinfo with rfl | rfl <;>
      · rcases hjust with hann | ⟨_, _, _, _, _, -, -, hp, hhp, -⟩ | ⟨rw, hrw, -⟩
        · exact hann
        · simp at hhp
        · simp at hrw
    obtain ⟨q, hq, hid, hqtags⟩ := hann
    refine ⟨q, .inr ⟨s₀, i, hprod.since, hq⟩, hid, hqtags, ?_⟩
    rw [hsame, hqtags, ← htags]
    exact hsee
  cases frame with
  | added info => exact shown info hpass
  | updated info => exact shown info hpass
  | removed => trivial
  | holePunch hp =>
    obtain ⟨rfl, hinit⟩ := hpass
    refine ⟨s₀, i, hprod, ?_⟩
    rcases hjust with hann | ⟨amb, req, observed, a, b, rfl, hfind, hp', hhp, hends⟩ | ⟨rw, hrw, -⟩
    · exact hann.elim
    · obtain rfl := PeerEvent.holePunch.inj hhp
      have hsee := hc a b hfind
      obtain ⟨id, -, ha⟩ := hfind.beats
      have hamem := AList.lookup_mem_values ha
      rcases hends with ⟨hi, ht⟩ | ⟨hi, ht⟩
      · have hid : a.peerId = p.peerId := (Uuid.toString_inj.mp (hi.symm.trans hinit)).trans hpid.symm
        exact ⟨a, hamem, b, hfind.other, hid, ht.symm, hsee⟩
      · have hid : b.peerId = p.peerId := (Uuid.toString_inj.mp (hi.symm.trans hinit)).trans hpid.symm
        refine ⟨b, hfind.other, a, hamem, hid, ht.symm, ?_⟩
        rw [Policy.canSee_comm]
        exact hsee
    · simp at hrw
  | relayWake rw =>
    obtain ⟨rfl, hrec⟩ := hpass
    refine ⟨s₀, i, hprod, ?_⟩
    rcases hjust with hann | ⟨_, _, _, _, _, -, -, hp, hhp, -⟩ | ⟨rw', hrw, a, ha, q, hq, hid, hsrc, hsee⟩
    · exact hann.elim
    · simp at hhp
    · obtain rfl := PeerEvent.relayWake.inj hrw
      exact ⟨a, ha, q, hq, (Uuid.toString_inj.mp (hid.trans hrec)).trans hpid.symm, hsrc, hsee⟩

theorem opened_frames {s : Mesh} {peerId : String} {handle : Nat} {frames : List PeerEvent}
    (h : (s.step (.openStream (some peerId))).2 = .opened handle frames) :
    ∃ viewer tags, s.coordinator.streamViewer peerId = some (viewer, tags) ∧
      ∀ frame ∈ frames, ∃ info ∈ s.coordinator.snapshot,
        (ViewerFilter.mk viewer tags []).Passes s.coordinator (.added info) frame := by
  simp only [Mesh.step] at h
  split at h
  · simp at h
  · rename_i viewer hviewer
    obtain ⟨viewer, tags⟩ := viewer
    obtain ⟨-, rfl⟩ := Reply.opened.inj h
    refine ⟨viewer, tags, hviewer, ?_⟩
    intro frame hframe
    obtain ⟨event, hevent, hpass⟩ := ViewerFilter.applyAll_passes hframe
    obtain ⟨info, hinfo, rfl⟩ := List.mem_map.mp hevent
    exact ⟨info, hinfo, hpass⟩

/-- A streamed announcement always passes the policy with the tags its viewer subscribed with; and
where heartbeats find only visible pairs and streams are polled under unchanged tags, every message
to a registered viewer is permitted. -/
theorem disclosure_by_policy (cfg : Config) :
    (∀ (s : Mesh) handle stream f info, s.streams.lookup handle = some stream →
      stream.filter = some f →
      ((s.step (.pollStream handle)).2 = .frame (some (.added info)) ∨
        (s.step (.pollStream handle)).2 = .frame (some (.updated info))) →
      s.coordinator.policy.current.canSee f.viewerTags info.tags = true) ∧
    ∀ tr s op viewer position frame p, (mesh cfg).Run DisclosesByPolicy tr s →
      DisclosesByPolicy s op → Delivers s op viewer position frame →
      (s.step op).1.coordinator.roster.lookup viewer = some p →
      Permitted cfg DisclosesByPolicy tr s op p position frame := by
  constructor
  · intro s handle stream f info hs hf hr
    have hreply : (s.step (.pollStream handle)).2 = .frame (stream.next s.coordinator).2 := by
      simp only [Mesh.step, Mesh.pollStream, hs]
    rw [hreply] at hr
    rcases hr with hr | hr
    · obtain ⟨event, -, hpass⟩ := Stream.next_passes hf (Reply.frame.inj hr)
      exact hpass.2
    · obtain ⟨event, -, hpass⟩ := Stream.next_passes hf (Reply.frame.inj hr)
      exact hpass.2
  · intro tr s op viewer position frame p h hc hdel hp
    have hi := inv_of_run h
    cases hdel with
    | registerPeers hr hinfo =>
      have hans := Reply.register.inj hr
      rw [(Coordinator.registerHandler_eq_ok hans).2, ← Coordinator.registerHandler_fst] at hinfo
      obtain ⟨q, hq, hid, htags, hsee⟩ := mem_visiblePeers hinfo
      have hstored := Coordinator.registerHandler_lookup _ _ _ _ hi hans
      obtain rfl := Option.some.inj (hp.symm.trans hstored)
      exact ⟨q, .inl hq, hid, htags, hsee⟩
    | heartbeatPeers hid hr hinfo =>
      obtain ⟨p', hp', hpeers⟩ := heartbeatHandler_peers hi hid (Reply.heartbeat.inj hr)
      obtain rfl := Option.some.inj (hp.symm.trans hp')
      rw [hpeers] at hinfo
      obtain ⟨q, hq, hqid, htags, hsee⟩ := mem_visiblePeers hinfo
      exact ⟨q, .inl hq, hqid, htags, hsee⟩
    | streamOpened hid hr hframe =>
      rename_i peerId handle frames
      obtain ⟨viewer', tags, hviewer, hframes⟩ := opened_frames hr
      obtain ⟨hid', p', hp', rfl⟩ := streamViewer_eq_some hviewer
      obtain rfl := Except.ok.inj (hid.symm.trans hid')
      have hsame : (s.step (.openStream (some peerId))).1.coordinator = s.coordinator := by
        simp only [Mesh.step, hviewer, Mesh.openStream]
      rw [hsame] at hp
      obtain rfl := Option.some.inj (hp.symm.trans hp')
      obtain ⟨info, hinfo, hpass⟩ := hframes frame hframe
      obtain ⟨q, hq, hqid, hqtags⟩ := Coordinator.mem_snapshot hinfo
      have shown : s.coordinator.viewerCanSee p.tags info.tags = true →
          ∃ q, Stored cfg DisclosesByPolicy tr s (.openStream (some peerId)) q ∧
            q.peerId.toString = info.peerId ∧ q.tags = info.tags ∧
            (s.step (.openStream (some peerId))).1.coordinator.policy.current.canSee p.tags
              q.tags = true := by
        intro hsee
        refine ⟨q, .inl (by rw [hsame]; exact hq), hqid, hqtags, ?_⟩
        rw [hsame, hqtags]
        exact hsee
      cases frame with
      | added info' =>
        obtain ⟨he, hsee⟩ := hpass
        obtain rfl : info = info' := by simpa using he
        exact shown hsee
      | updated info' =>
        obtain ⟨he, hsee⟩ := hpass
        obtain rfl : info = info' := by simpa using he
        exact shown hsee
      | removed => trivial
      | holePunch => simp [ViewerFilter.Passes] at hpass
      | relayWake => simp [ViewerFilter.Passes] at hpass
    | streamPolled hs hf hr =>
      rename_i handle stream f
      have hnext : (stream.next s.coordinator).2 = some frame := by
        simp only [Mesh.step, Mesh.pollStream, hs] at hr
        exact Reply.frame.inj hr
      have hp' : s.coordinator.roster.lookup f.viewerId = some p := by
        simp only [Mesh.step, Mesh.pollStream, hs] at hp
        exact hp
      exact permitted_of_poll h hs hf hnext hp' (hc stream f p hs hf hp')

end

def Reply.framed : Reply → Option PeerEvent
  | .frame event => event
  | _ => none

theorem Reply.framed_eq_some {reply : Reply} {event : PeerEvent}
    (h : reply.framed = some event) : reply = .frame (some event) := by
  unfold Reply.framed at h
  split at h
  · rw [h]
  · simp at h

def PeerEvent.shown : PeerEvent → Option PeerInfo
  | .updated info => some info
  | _ => none

theorem PeerEvent.shown_eq_some {event : PeerEvent} {info : PeerInfo}
    (h : event.shown = some info) : event = .updated info := by
  unfold PeerEvent.shown at h
  split at h
  · rw [Option.some.inj h]
  · simp at h

def eagerConfig : Config := { openConfig with proactive := true }

attribute [local instance] referenceCrates

def appOp (nowV7 : Uuid) (key ula endpoint : String) (tags : List String) : Op :=
  .register (ambientAt 0 nowV7)
    { plainRequest key "" (some ula) with listenEndpoint := some endpoint, tags := tags } none
    (SocketAddr.parse endpoint)

def pairOps (tags : List String) : List Op :=
  [appOp 1 keyOne "fd5a:1f02:1::1" "1.1.1.1:1" tags,
    appOp 2 keyTwo "fd5a:1f02:2::1" "1.1.1.2:1" tags, .openStream (some (Uuid.toString 1))]

def beatOp : Op :=
  .heartbeat (ambientAt 0 0) ⟨Uuid.toString 1, none, [], none, none, false, [], true, []⟩
    (SocketAddr.parse "1.1.1.1:1")

def punchRun (tags : List String) : List (Op × Reply) × Mesh :=
  (mesh eagerConfig).exec (traceAfter eagerConfig (pairOps tags))
    (stateAfter eagerConfig (pairOps tags)) [beatOp, .pollStream 0]

def punchDirective : HolePunchInitiate := ⟨Uuid.toString 1, Uuid.toString 2, "1.1.1.2:1", 0⟩

def untagOps : List Op :=
  [appOp 3 keyOne "fd5a:1f02:1::1" "1.1.1.1:1" [],
    appOp 4 keyTwo "fd5a:1f02:2::1" "1.1.1.2:1" [tagSystem], .pollStream 0]

def untagRun : List (Op × Reply) × Mesh :=
  (mesh eagerConfig).exec (traceAfter eagerConfig (pairOps [tagSystem]))
    (stateAfter eagerConfig (pairOps [tagSystem])) untagOps

def pairState (tags : List String) : Mesh := stateAfter eagerConfig (pairOps tags)

def pairTrace (tags : List String) : List (Op × Reply) := traceAfter eagerConfig (pairOps tags)

theorem producedAt_beatOp {C : Mesh → Op → Prop} {tags : List String}
    (h : (mesh eagerConfig).Run C (pairTrace tags)
      (pairState tags))
    (hc : C (pairState tags) beatOp)
    (hle : (pairState tags).coordinator.broadcaster.length ≤ 3)
    (hat : ((pairState tags).step beatOp).1.coordinator.broadcaster[3]? =
      some (.holePunch punchDirective)) :
    ProducedAt eagerConfig C (punchRun tags).1 (some 3) (.holePunch punchDirective)
      (pairState tags) beatOp := by
  refine ⟨?_, 3, rfl, hle, hat⟩
  have hpolls : ∀ j ∈ [Op.pollStream 0], j.Live := by
    intro j hj
    rw [List.mem_singleton.mp hj]
    trivial
  exact (Machine.Since.now h hc).exec hpolls

theorem hidden_peers_are_disclosed :
    (∃ tr s hp s₀ i p q, (mesh eagerConfig).Reach tr s ∧
      Delivers s (.pollStream 0) 1 (some 3) (.holePunch hp) ∧
      hp.targetPeerId = Uuid.toString 2 ∧ s.coordinator.roster.lookup 1 ≠ none ∧
      ProducedAt eagerConfig (fun _ _ => True) tr (some 3) (.holePunch hp) s₀ i ∧
      s₀.coordinator.roster.lookup 1 = some p ∧ s₀.coordinator.roster.lookup 2 = some q ∧
      s₀.coordinator.policy.current.canSee p.tags q.tags = false) ∧
    ∃ tr s info p, (mesh eagerConfig).Reach tr s ∧
      Delivers s (.pollStream 0) 1 (some 3) (.updated info) ∧ info.peerId = Uuid.toString 2 ∧
      s.coordinator.roster.lookup 1 = some p ∧
      s.coordinator.policy.current.canSee p.tags info.tags = false := by
  constructor
  · have hall : (mesh eagerConfig).Admissible (fun _ _ => True) [] (Mesh.init eagerConfig)
          (pairOps []) ∧
        (mesh eagerConfig).Admissible (fun _ _ => True) (pairTrace [])
          (pairState []) [beatOp, .pollStream 0] ∧
        ((pairState []).coordinator.roster.lookup 1).map PeerEntry.tags =
          some [] ∧
        ((pairState []).coordinator.roster.lookup 2).map PeerEntry.tags =
          some [] ∧
        (pairState []).coordinator.policy.current.canSee [] [] = false ∧
        (pairState []).coordinator.broadcaster.length ≤ 3 ∧
        ((pairState []).step beatOp).1.coordinator.broadcaster[3]? =
          some (.holePunch punchDirective) ∧
        (punchRun []).2.streams.lookup 0 = some ⟨some ⟨1, [], []⟩, 3⟩ ∧
        ((punchRun []).2.step (.pollStream 0)).2.framed = some (.holePunch punchDirective) ∧
        ((punchRun []).2.coordinator.roster.lookup 1).isSome = true := by decide +kernel
    obtain ⟨hadm, hadm', hp, hq, hsee, hle, hat, hstream, hframe, hviewer⟩ := hall
    have hreach := reach_of_admissible hadm
    obtain ⟨p, hp, hptags⟩ := Option.map_eq_some_iff.mp hp
    obtain ⟨q, hq, hqtags⟩ := Option.map_eq_some_iff.mp hq
    have hdel : Delivers (punchRun []).2 (.pollStream 0) 1 (some 3) (.holePunch punchDirective) :=
      .streamPolled (f := ⟨1, [], []⟩) hstream rfl (Reply.framed_eq_some hframe)
    have hprod := producedAt_beatOp hreach trivial hle hat
    refine ⟨(punchRun []).1, (punchRun []).2, punchDirective, pairState [],
      beatOp, p, q, hreach.exec hadm', hdel, rfl, Option.isSome_iff_ne_none.mp hviewer, hprod, hp,
      hq, ?_⟩
    rw [hptags, hqtags]
    exact hsee
  · have hall : (mesh eagerConfig).Admissible (fun _ _ => True) [] (Mesh.init eagerConfig)
          (pairOps [tagSystem]) ∧
        (mesh eagerConfig).Admissible (fun _ _ => True)
          (pairTrace [tagSystem])
          (pairState [tagSystem]) untagOps ∧
        (untagRun.2.coordinator.roster.lookup 1).map PeerEntry.tags = some [] ∧
        untagRun.2.coordinator.policy.current.canSee [] [tagSystem] = false ∧
        untagRun.2.streams.lookup 0 =
          some ⟨some ⟨1, [tagSystem], [Uuid.toString 2]⟩, 3⟩ ∧
        ((untagRun.2.step (.pollStream 0)).2.framed.bind PeerEvent.shown).map
          (fun info => (info.peerId, info.tags)) = some (Uuid.toString 2, [tagSystem]) := by
      decide +kernel
    obtain ⟨hadm, hadm', hp, hsee, hstream, hframe⟩ := hall
    obtain ⟨p, hp, hptags⟩ := Option.map_eq_some_iff.mp hp
    obtain ⟨info, hinfo, hpair⟩ := Option.map_eq_some_iff.mp hframe
    obtain ⟨event, hevent, hshown⟩ := Option.bind_eq_some_iff.mp hinfo
    obtain ⟨hid, htags⟩ := Prod.mk.inj hpair
    obtain rfl := PeerEvent.shown_eq_some hshown
    have hdel : Delivers untagRun.2 (.pollStream 0) 1 (some 3) (.updated info) :=
      .streamPolled (f := ⟨1, [tagSystem], [Uuid.toString 2]⟩) hstream rfl
        (Reply.framed_eq_some hevent)
    refine ⟨untagRun.1, untagRun.2, info, p, (reach_of_admissible hadm).exec hadm', hdel, hid, hp, ?_⟩
    rw [hptags, htags]
    exact hsee

theorem disclosesByPolicy_poll {s : Mesh} {handle k : Nat} {f : ViewerFilter}
    (hs : s.streams.lookup handle = some ⟨some f, k⟩)
    (hp : (s.coordinator.roster.lookup f.viewerId).map PeerEntry.tags = some f.viewerTags) :
    DisclosesByPolicy s (.pollStream handle) := by
  intro stream f' p hs' hf' hp'
  obtain rfl := Option.some.inj (hs.symm.trans hs')
  obtain rfl := Option.some.inj hf'
  rw [hp'] at hp
  exact (Option.some.inj hp).symm

theorem disclosure_by_policy_pair :
    untagRun.2.coordinator.policy.current.canSee [tagSystem] [tagSystem] = true ∧
    ∃ p, (punchRun [tagSystem]).2.coordinator.roster.lookup 1 = some p ∧
      Permitted eagerConfig DisclosesByPolicy (punchRun [tagSystem]).1 (punchRun [tagSystem]).2
        (.pollStream 0) p (some 3) (.holePunch punchDirective) := by
  constructor
  · have hall : untagRun.2.streams.lookup 0 =
          some ⟨some ⟨1, [tagSystem], [Uuid.toString 2]⟩, 3⟩ ∧
        ((untagRun.2.step (.pollStream 0)).2.framed.bind PeerEvent.shown).map PeerInfo.tags =
          some [tagSystem] := by decide +kernel
    obtain ⟨info, hinfo, htags⟩ := Option.map_eq_some_iff.mp hall.2
    obtain ⟨event, hevent, hshown⟩ := Option.bind_eq_some_iff.mp hinfo
    obtain rfl := PeerEvent.shown_eq_some hshown
    have hsee := (disclosure_by_policy eagerConfig).1 untagRun.2 0 _
      ⟨1, [tagSystem], [Uuid.toString 2]⟩ info hall.1 rfl (.inr (Reply.framed_eq_some hevent))
    rw [htags] at hsee
    exact hsee
  · have hall : (mesh eagerConfig).Admissible (fun _ _ => True) [] (Mesh.init eagerConfig)
          (pairOps [tagSystem]) ∧
        (∀ a ∈ (pairState [tagSystem]).coordinator.roster.values,
          ∀ b ∈ (pairState [tagSystem]).coordinator.roster.values,
          (pairState [tagSystem]).coordinator.policy.current.canSee
            a.tags b.tags = true) ∧
        ((pairState [tagSystem]).step beatOp).1.streams.lookup 0 =
          some ⟨some ⟨1, [tagSystem], [Uuid.toString 2]⟩, 2⟩ ∧
        (((pairState [tagSystem]).step beatOp).1.coordinator.roster.lookup
          1).map PeerEntry.tags = some [tagSystem] ∧
        (punchRun [tagSystem]).2.streams.lookup 0 =
          some ⟨some ⟨1, [tagSystem], [Uuid.toString 2]⟩, 3⟩ ∧
        ((punchRun [tagSystem]).2.coordinator.roster.lookup 1).map PeerEntry.tags =
          some [tagSystem] ∧
        ((punchRun [tagSystem]).2.step (.pollStream 0)).2.framed =
          some (.holePunch punchDirective) := by decide +kernel
    obtain ⟨hadm, hsee, hstream', hp', hstream, hp, hframe⟩ := hall
    have hpoll' := disclosesByPolicy_poll hstream' hp'
    have hpoll := disclosesByPolicy_poll hstream hp
    obtain ⟨p, hp, -⟩ := Option.map_eq_some_iff.mp hp
    have hjoined : (mesh eagerConfig).Run DisclosesByPolicy
        (pairTrace [tagSystem])
        (pairState [tagSystem]) := by
      obtain ⟨h1, -, h2, -, h3, -, -⟩ := hadm
      exact Machine.Run.start.exec ⟨h1, trivial, h2, trivial, h3, trivial, trivial⟩
    have hbeat : DisclosesByPolicy (pairState [tagSystem]) beatOp := by
      intro a b hfind
      obtain ⟨id, -, ha⟩ := hfind.beats
      exact hsee a (AList.lookup_mem_values ha) b hfind.other
    have hdel : Delivers (punchRun [tagSystem]).2 (.pollStream 0) 1 (some 3)
        (.holePunch punchDirective) :=
      .streamPolled (f := ⟨1, [tagSystem], [Uuid.toString 2]⟩) hstream rfl
        (Reply.framed_eq_some hframe)
    have hrun : (mesh eagerConfig).Run DisclosesByPolicy (punchRun [tagSystem]).1
        (punchRun [tagSystem]).2 := hjoined.exec ⟨trivial, hbeat, trivial, hpoll', trivial⟩
    have hviewer : ((punchRun [tagSystem]).2.step (.pollStream 0)).1.coordinator.roster.lookup 1 =
        some p := by
      simp only [Mesh.step, Mesh.pollStream, hstream]
      exact hp
    exact ⟨p, hp, (disclosure_by_policy eagerConfig).2 _ _ _ _ _ _ p hrun hpoll hdel hviewer⟩

end ServiceMesh
