import ServiceMesh.Disclosure
import ServiceMesh.Restamp

/-! Open streams and the identity of their viewers. A stream judges peers by the tags its viewer
had when it subscribed; the roster has the tags of the viewer's latest register. -/

namespace ServiceMesh

open StdNet (Ipv6Addr SocketAddr)

section

variable [Crates] {G : Uuid → Ipv6Addr → Prop}

inductive StreamStep (s : Mesh) (handle : Nat) : Op → Stream → Prop
  | kept {op : Op} {stream : Stream} (hs : s.streams.lookup handle = some stream)
      (hop : op ≠ .pollStream handle) : StreamStep s handle op stream
  | polled {stream : Stream} (hs : s.streams.lookup handle = some stream) :
      StreamStep s handle (.pollStream handle) (stream.next s.coordinator).1
  | opened (peerId : Option String) (viewer : Option (Uuid × List String))
      (hviewer : ∀ x, viewer = some x → ∃ id, s.coordinator.streamViewer id = some x)
      (hstep : s.step (.openStream peerId) = s.openStream viewer) (hh : handle = s.nextHandle) :
      StreamStep s handle (.openStream peerId) (Stream.opened s.coordinator viewer).1

variable {handle : Nat} {tr : List (Op × Reply)} {f : ViewerFilter}

theorem Mesh.step_stream {s : Mesh} {op : Op} {stream : Stream}
    (h : (s.step op).1.streams.lookup handle = some stream) : StreamStep s handle op stream := by
  have opening : ∀ (peerId : Option String) (viewer : Option (Uuid × List String)),
      (∀ x, viewer = some x → ∃ id, s.coordinator.streamViewer id = some x) →
      s.step (.openStream peerId) = s.openStream viewer →
      (s.openStream viewer).1.streams.lookup handle = some stream →
      StreamStep s handle (.openStream peerId) stream := by
    intro peerId viewer hviewer hstep h
    change (s.streams.insert s.nextHandle (Stream.opened s.coordinator viewer).1).lookup handle =
      some stream at h
    rw [AList.lookup_insert_eq_ite] at h
    by_cases hh : handle = s.nextHandle
    · rw [if_pos hh] at h
      obtain rfl := Option.some.inj h
      exact .opened peerId viewer hviewer hstep hh
    · rw [if_neg hh] at h
      exact .kept h (by simp)
  cases op with
  | openStream peerId =>
    cases peerId with
    | none => exact opening none none (by simp) rfl h
    | some peerId =>
      cases hviewer : s.coordinator.streamViewer peerId with
      | none =>
        have hstep : s.step (.openStream (some peerId)) = (s, .refused) := by
          simp only [step, hviewer]
        rw [hstep] at h
        exact .kept h (by simp)
      | some viewer =>
        have hstep : s.step (.openStream (some peerId)) = s.openStream (some viewer) := by
          simp only [step, hviewer]
        rw [hstep] at h
        refine opening (some peerId) (some viewer) ?_ hstep h
        intro x hx
        exact ⟨peerId, hviewer.trans hx⟩
  | pollStream handle' =>
    simp only [step, pollStream] at h
    cases hs : s.streams.lookup handle' with
    | none =>
      simp only [hs] at h
      refine .kept h ?_
      intro hop
      rw [Op.pollStream.inj hop, h] at hs
      cases hs
    | some stream' =>
      simp only [hs] at h
      rw [AList.lookup_insert_eq_ite] at h
      by_cases hh : handle = handle'
      · subst hh
        rw [if_pos rfl] at h
        obtain rfl := Option.some.inj h
        exact .polled hs
      · rw [if_neg hh] at h
        exact .kept h (fun hop => hh (Op.pollStream.inj hop).symm)
  | closeStream handle' =>
    change (s.streams.erase handle').lookup handle = some stream at h
    rw [AList.lookup_erase_eq_ite] at h
    by_cases hh : handle = handle'
    · rw [if_pos hh] at h
      cases h
    · rw [if_neg hh] at h
      exact .kept h (by simp)
  | relayConnect now pubkey lane =>
    simp only [step, relayConnect] at h
    split at h <;> exact .kept h (by simp)
  | relayUplink | relayDeliver | relaySendEnd | relayDisconnect =>
    simp only [step, withSocket] at h
    split at h <;> exact .kept h (by simp)
  | reorderRoster entries =>
    simp only [step, reorderRoster] at h
    split at h <;> exact .kept h (by simp)
  | restart cfg now file => cases h
  | _ => exact .kept h (by simp)

theorem Mesh.nextHandle_le_step (s : Mesh) (op : Op) : s.nextHandle ≤ (s.step op).1.nextHandle := by
  cases op with
  | openStream peerId =>
    cases peerId with
    | none => exact Nat.le_succ _
    | some peerId =>
      simp only [step]
      split
      · exact Nat.le_refl _
      · exact Nat.le_succ _
  | pollStream handle =>
    simp only [step, pollStream]
    split <;> exact Nat.le_refl _
  | relayConnect now pubkey lane =>
    simp only [step, relayConnect]
    split
    · exact Nat.le_succ _
    · exact Nat.le_refl _
  | relayUplink | relayDeliver | relaySendEnd | relayDisconnect =>
    simp only [step, withSocket]
    split <;> exact Nat.le_refl _
  | reorderRoster entries =>
    simp only [step, reorderRoster]
    split <;> exact Nat.le_refl _
  | _ => exact Nat.le_refl _

def yields (handle : Nat) : Op × Reply → List PeerEvent
  | (.openStream _, .opened handle' frames) => if handle' = handle then frames else []
  | (.pollStream handle', .frame frame) => if handle' = handle then frame.toList else []
  | _ => []

theorem yields_eq_nil {s : Mesh} {op : Op} (hop : op ≠ .pollStream handle)
    (hlt : handle < s.nextHandle) : yields handle (op, (s.step op).2) = [] := by
  cases op with
  | openStream peerId =>
    have hne : ¬ s.nextHandle = handle := by omega
    cases peerId with
    | none => exact if_neg hne
    | some peerId =>
      simp only [Mesh.step]
      split
      · rfl
      · exact if_neg hne
  | pollStream handle' =>
    have hne : ¬ handle' = handle := fun hc => hop (congrArg Op.pollStream hc)
    simp only [Mesh.step, Mesh.pollStream]
    split <;> exact if_neg hne
  | _ => rfl

def LatestFrame (cfg : Config) (tr : List (Op × Reply)) (handle : Nat) (id : String) (s₀ : Mesh)
    (op : Op) (info : PeerInfo) : Prop :=
  ∃ later tr₀, tr = later ++ (op, (s₀.step op).2) :: tr₀ ∧ (mesh cfg).Reach tr₀ s₀ ∧
    (.added info ∈ yields handle (op, (s₀.step op).2) ∨
      .updated info ∈ yields handle (op, (s₀.step op).2)) ∧
    info.peerId = id ∧ ∀ x ∈ later, ∀ frame ∈ yields handle x, frame.kindFor id = none

theorem LatestFrame.cons {cfg : Config} {id : String} {s₀ : Mesh} {op : Op} {info : PeerInfo}
    (h : LatestFrame cfg tr handle id s₀ op info) {x : Op × Reply}
    (hx : ∀ frame ∈ yields handle x, frame.kindFor id = none) :
    LatestFrame cfg (x :: tr) handle id s₀ op info := by
  obtain ⟨later, tr₀, rfl, hreach, hframe, hid, hlater⟩ := h
  refine ⟨x :: later, tr₀, rfl, hreach, hframe, hid, ?_⟩
  intro y hy
  rcases List.mem_cons.mp hy with rfl | hy
  · exact hx
  · exact hlater y hy

/-- A register of a peer with an open stream stamps the tags the stream was opened with. -/
def KeepsStreamTags (s : Mesh) : Op → Prop
  | .register amb req bearer _ =>
    match s.coordinator.admission amb req bearer with
    | .error _ => True
    | .ok (claims, pubkey) =>
      ∀ stream ∈ s.streams.values, ∀ f ∈ stream.filter,
        s.coordinator.byPubkey.lookup pubkey = some f.viewerId →
        (stampIdentity req claims).tags = f.viewerTags
  | _ => True

structure StreamInv (cfg : Config) (tr : List (Op × Reply)) (s : Mesh) (handle : Nat)
    (f : ViewerFilter) : Prop where
  allocated : handle < s.nextHandle
  viewer : ∃ ula, Granted tr f.viewerId ula
  tags : ∀ p, s.coordinator.roster.lookup f.viewerId = some p → p.tags = f.viewerTags
  revealed : ∀ id ∈ f.revealed, ∃ s₀ op info, LatestFrame cfg tr handle id s₀ op info ∧
    s₀.coordinator.policy.current.canSee f.viewerTags info.tags = true

theorem tags_step {s : Mesh} (hi : s.coordinator.toRosterState.Inv (Granted tr)) {op : Op}
    (hfresh : op.Fresh tr) (hlive : op.Live) (hc : KeepsStreamTags s op) {stream : Stream}
    (hs : s.streams.lookup handle = some stream) (hf : stream.filter = some f)
    (hviewer : ∃ ula, Granted tr f.viewerId ula)
    (htags : ∀ p, s.coordinator.roster.lookup f.viewerId = some p → p.tags = f.viewerTags) :
    ∀ p, (s.step op).1.coordinator.roster.lookup f.viewerId = some p → p.tags = f.viewerTags := by
  intro p hp
  by_cases hg : (s.step op).2.grantedId = some f.viewerId
  · obtain ⟨amb, req, bearer, observed, r, rfl, hr, hid⟩ := Mesh.step_grantedId hg
    have hans := Reply.register.inj hr
    have hstored := Coordinator.registerHandler_lookup amb req observed bearer hi hans
    have hentry : r.entry = p := by
      rw [hid] at hstored
      exact Option.some.inj (hstored.symm.trans hp)
    have hregisters := Coordinator.registers amb req bearer observed hi
    rcases hregisters.answers hi (Coordinator.registerHandler_eq_ok hans).1 with
      hnew | ⟨claims, pubkey, hadm, hk, hstamp⟩
    · -- the viewer's id was drawn before, so it is not drawn again
      obtain ⟨ula, hgranted⟩ := hviewer
      rw [← hid, hnew] at hgranted
      exact absurd hgranted (hfresh ula)
    · simp only [KeepsStreamTags, hadm] at hc
      have hsame := hc stream (AList.lookup_mem_values hs) f hf (hid ▸ hk)
      rw [← hentry, hstamp, hsame]
  · rcases (s.step_entry hi hlive f.viewerId).identity hg with hnone | hsame
    · cases hnone.symm.trans hp
    · rw [hp] at hsame
      obtain ⟨p₀, hp₀, hident⟩ := Option.map_eq_some_iff.mp hsame.symm
      have hsameTags : p₀.tags = p.tags := congrArg NodeIdentity.tags hident
      rw [← hsameTags]
      exact htags p₀ hp₀

theorem ViewerFilter.mem_applyAll_revealed {c : Coordinator} {events : List PeerEvent}
    {id : String} (h : id ∈ (f.applyAll c events).1.revealed) :
    id ∈ f.revealed ∨ ∃ info, info.peerId = id ∧
      (.added info ∈ (f.applyAll c events).2 ∨ .updated info ∈ (f.applyAll c events).2) := by
  induction events generalizing f with
  | nil => exact .inl h
  | cons event events ih =>
    simp only [applyAll] at h ⊢
    rcases ih h with hmem | ⟨info, hid, hframe⟩
    · have htells := f.apply_tells c event id
      cases hkind : (f.apply c event).2.bind (PeerEvent.kindFor id) with
      | none =>
        rw [hkind] at htells
        exact .inl (htells.mp hmem)
      | some kind =>
        rw [hkind] at htells
        obtain ⟨frame, hframe, hfor⟩ := Option.bind_eq_some_iff.mp hkind
        obtain ⟨info, hid, hshown⟩ := PeerEvent.shows_of_kindFor hfor (htells.2.mp hmem)
        refine .inr ⟨info, hid, ?_⟩
        rw [hframe, Option.toList_some]
        rcases hshown with rfl | rfl
        · exact .inl List.mem_cons_self
        · exact .inr List.mem_cons_self
    · refine .inr ⟨info, hid, ?_⟩
      rcases hframe with hframe | hframe
      · exact .inl (List.mem_append_right _ hframe)
      · exact .inr (List.mem_append_right _ hframe)

theorem streamInv_opened {cfg : Config} {s : Mesh} (hr : (mesh cfg).Reach tr s)
    {peerId : Option String} {viewer : Option (Uuid × List String)}
    (hviewer : ∀ x, viewer = some x → ∃ id, s.coordinator.streamViewer id = some x)
    (hstep : s.step (.openStream peerId) = s.openStream viewer)
    (hf : (Stream.opened s.coordinator viewer).1.filter = some f) :
    StreamInv cfg ((.openStream peerId, (s.step (.openStream peerId)).2) :: tr)
      (s.step (.openStream peerId)).1 s.nextHandle f := by
  cases viewer with
  | none => cases hf
  | some viewer =>
    obtain ⟨viewerId, viewerTags⟩ := viewer
    obtain ⟨id, hid⟩ := hviewer _ rfl
    obtain ⟨-, p, hp, hptags⟩ := streamViewer_eq_some hid
    have hi := inv_of_reach hr
    have hgranted := (hi.seated hp).granted
    rw [hi.keyed hp] at hgranted
    have hyields : yields s.nextHandle (.openStream peerId, (s.step (.openStream peerId)).2) =
        ((ViewerFilter.mk viewerId viewerTags []).applyAll s.coordinator
          (s.coordinator.snapshot.map PeerEvent.added)).2 := by
      rw [hstep]
      exact if_pos rfl
    obtain rfl := Option.some.inj hf
    obtain ⟨hid', htags'⟩ := ViewerFilter.applyAll_viewer (ViewerFilter.mk viewerId viewerTags [])
      s.coordinator (s.coordinator.snapshot.map PeerEvent.added)
    constructor
    case allocated =>
      rw [hstep]
      exact Nat.lt_succ_self _
    case viewer =>
      rw [hid']
      exact ⟨p.ula, _, List.mem_cons_of_mem _ hgranted.choose_spec.1, hgranted.choose_spec.2⟩
    case tags =>
      intro p' hp'
      rw [hstep, hid'] at hp'
      rw [htags', ← hptags, Option.some.inj (hp'.symm.trans hp)]
    case revealed =>
      intro shown hshown
      rw [htags']
      rcases ViewerFilter.mem_applyAll_revealed hshown with hnone | ⟨info, hinfo, hframe⟩
      · cases hnone
      · rw [← hyields] at hframe
        have hpass : s.coordinator.policy.current.canSee viewerTags info.tags = true := by
          rw [hyields] at hframe
          rcases hframe with hframe | hframe
          · obtain ⟨event, -, hpass⟩ := ViewerFilter.applyAll_passes hframe
            exact hpass.2
          · obtain ⟨event, -, hpass⟩ := ViewerFilter.applyAll_passes hframe
            exact hpass.2
        exact ⟨s, _, info, ⟨[], tr, rfl, hr, hframe, hinfo, by simp⟩, hpass⟩

theorem streamInv_polled {cfg : Config} {s : Mesh} (hr : (mesh cfg).Reach tr s) {stream : Stream}
    {f₀ : ViewerFilter} (hs : s.streams.lookup handle = some stream)
    (hf₀ : stream.filter = some f₀) (hf : (stream.next s.coordinator).1.filter = some f)
    (h : StreamInv cfg tr s handle f₀)
    (htags : ∀ p, (s.step (.pollStream handle)).1.coordinator.roster.lookup f₀.viewerId = some p →
      p.tags = f₀.viewerTags) :
    StreamInv cfg ((.pollStream handle, (s.step (.pollStream handle)).2) :: tr)
      (s.step (.pollStream handle)).1 handle f := by
  have hstep : (s.step (.pollStream handle)).2 = .frame (stream.next s.coordinator).2 := by
    simp only [Mesh.step, Mesh.pollStream, hs]
  have hyields : yields handle (.pollStream handle, (s.step (.pollStream handle)).2) =
      (stream.next s.coordinator).2.toList := by
    rw [hstep]
    exact if_pos rfl
  have hnext := s.nextHandle_le_step (.pollStream handle)
  obtain ⟨ula, x, hx, hgrants⟩ := h.viewer
  rcases Stream.next_cases s.coordinator hf₀ with ⟨hsame, hnone⟩ | ⟨event, happly, hframe⟩
  · obtain rfl : f₀ = f := Option.some.inj (hsame.symm.trans hf)
    refine ⟨lt_of_lt_of_le h.allocated hnext, ⟨ula, x, List.mem_cons_of_mem _ hx, hgrants⟩, htags, ?_⟩
    intro id hid
    obtain ⟨s₀, op, info, hlatest, hsee⟩ := h.revealed id hid
    have hquiet : ∀ frame ∈ yields handle (.pollStream handle, (s.step (.pollStream handle)).2),
        frame.kindFor id = none := by
      rw [hyields, hnone]
      simp
    exact ⟨s₀, op, info, hlatest.cons hquiet, hsee⟩
  · obtain rfl : (f₀.apply s.coordinator event).1 = f := Option.some.inj (happly.symm.trans hf)
    obtain ⟨hviewer, hviewerTags⟩ := f₀.apply_viewer s.coordinator event
    refine ⟨lt_of_lt_of_le h.allocated hnext, ?_, ?_, ?_⟩
    · rw [hviewer]
      exact ⟨ula, x, List.mem_cons_of_mem _ hx, hgrants⟩
    · rw [hviewer, hviewerTags]
      exact htags
    · intro id hid
      rw [hviewerTags]
      have htells := f₀.apply_tells s.coordinator event id
      cases hkind : (f₀.apply s.coordinator event).2.bind (PeerEvent.kindFor id) with
      | none =>
        rw [hkind] at htells
        obtain ⟨s₀, op, info, hlatest, hsee⟩ := h.revealed id (htells.mp hid)
        have hquiet : ∀ frame ∈ yields handle (.pollStream handle, (s.step (.pollStream handle)).2),
            frame.kindFor id = none := by
          intro frame hmem
          rw [hyields, hframe, Option.mem_toList] at hmem
          rw [Option.mem_def.mp hmem] at hkind
          exact hkind
        exact ⟨s₀, op, info, hlatest.cons hquiet, hsee⟩
      | some kind =>
        -- the event consumed was about this peer, and left it shown
        rw [hkind] at htells
        obtain ⟨frame, hsome, hfor⟩ := Option.bind_eq_some_iff.mp hkind
        obtain ⟨info, hinfo, hshown⟩ := PeerEvent.shows_of_kindFor hfor (htells.2.mp hid)
        have hpass := ViewerFilter.apply_passes hsome
        have hmem : frame ∈ yields handle (.pollStream handle, (s.step (.pollStream handle)).2) := by
          rw [hyields, hframe, hsome]
          exact List.mem_cons_self
        rcases hshown with rfl | rfl
        · exact ⟨s, _, info, ⟨[], tr, rfl, hr, .inl hmem, hinfo, by simp⟩, hpass.2⟩
        · exact ⟨s, _, info, ⟨[], tr, rfl, hr, .inr hmem, hinfo, by simp⟩, hpass.2⟩

theorem streamInv_kept {cfg : Config} {s : Mesh} {op : Op} (hop : op ≠ .pollStream handle)
    (h : StreamInv cfg tr s handle f)
    (htags : ∀ p, (s.step op).1.coordinator.roster.lookup f.viewerId = some p →
      p.tags = f.viewerTags) :
    StreamInv cfg ((op, (s.step op).2) :: tr) (s.step op).1 handle f := by
  obtain ⟨ula, x, hx, hgrants⟩ := h.viewer
  refine ⟨lt_of_lt_of_le h.allocated (s.nextHandle_le_step op),
    ⟨ula, x, List.mem_cons_of_mem _ hx, hgrants⟩, htags, ?_⟩
  intro id hid
  obtain ⟨s₀, op₀, info, hlatest, hsee⟩ := h.revealed id hid
  refine ⟨s₀, op₀, info, hlatest.cons ?_, hsee⟩
  rw [yields_eq_nil hop h.allocated]
  simp

theorem streamInv_of_run {cfg : Config} {s : Mesh} (h : (mesh cfg).Run KeepsStreamTags tr s) :
    ∀ handle stream f, s.streams.lookup handle = some stream → stream.filter = some f →
      StreamInv cfg tr s handle f := by
  refine Machine.Run.invariant (I := fun tr s => ∀ handle stream f,
    s.streams.lookup handle = some stream → stream.filter = some f →
      StreamInv cfg tr s handle f) ?_ ?_ h
  · intro handle stream f hs
    cases hs
  · intro tr s op hr ih hadmits hc handle stream f hs hf
    have hi := inv_of_run hr
    have hfresh : op.Fresh tr := hadmits
    by_cases hlive : op.Live
    · cases Mesh.step_stream hs with
      | kept hs₀ hop =>
        have hinv := ih handle stream f hs₀ hf
        exact streamInv_kept hop hinv (tags_step hi hfresh hlive hc hs₀ hf hinv.viewer hinv.tags)
      | @polled stream₀ hs₀ =>
        cases hf₀ : stream₀.filter with
        | none =>
          rw [Stream.next_unfiltered s.coordinator hf₀] at hf
          cases hf
        | some f₀ =>
          have hinv := ih handle stream₀ f₀ hs₀ hf₀
          have htags := tags_step hi hfresh hlive hc hs₀ hf₀ hinv.viewer hinv.tags
          exact streamInv_polled hr.reach hs₀ hf₀ hf hinv htags
      | opened peerId viewer hviewer hstep hh =>
        subst hh
        exact streamInv_opened hr.reach hviewer hstep hf
    · cases op with
      | restart => cases hs
      | _ => exact absurd trivial hlive

end

def taggedOp (nowV7 : Uuid) (key ula : String) (tags : List String) : Op :=
  tokenOp 0 nowV7 { claimsFor "" [] with tags := tags } (plainRequest key "" (some ula))

instance [Crates] (s : Mesh) : (op : Op) → Decidable (KeepsStreamTags s op)
  | .register amb req bearer _ =>
    match h : s.coordinator.admission amb req bearer with
    | .error _ => .isTrue (by simp only [KeepsStreamTags, h])
    | .ok (claims, pubkey) =>
      decidable_of_iff
        (∀ stream ∈ s.streams.values, ∀ f ∈ stream.filter,
          s.coordinator.byPubkey.lookup pubkey = some f.viewerId →
          (stampIdentity req claims).tags = f.viewerTags)
        (by simp only [KeepsStreamTags, h])
  | .heartbeat .. | .deregister .. | .sweep .. | .putPolicy .. | .postDirect ..
  | .setProactive .. | .postCommand .. | .openStream .. | .pollStream .. | .closeStream ..
  | .relayConnect .. | .relayUplink .. | .relayDeliver .. | .relaySendEnd ..
  | .relayDisconnect .. | .reorderRoster .. | .restart .. => .isTrue trivial

attribute [local instance] referenceCrates

def narrowOps (tags : List String) : List Op :=
  [taggedOp 1 keyOne "fd5a:1f02:1::1" [tagSystem], taggedOp 2 keyTwo "fd5a:1f02:2::1" [tagSystem],
    .openStream (some (Uuid.toString 1)), taggedOp 3 keyOne "fd5a:1f02:1::1" tags,
    taggedOp 4 keyTwo "fd5a:1f02:2::1" [tagSystem], .pollStream 0]

end ServiceMesh
