import Mathlib.Data.List.Chain
import ServiceMesh.BroadcastLog
import ServiceMesh.RosterIntegrity

/-! The frames one viewer gets. Whatever is broadcast and however often the policy is replaced,
each peer is introduced, kept up to date and withdrawn in that order, and a resync leaves the
viewer with exactly the peers the policy lets it see. -/

namespace ServiceMesh

open StdNet (Ipv6Addr SocketAddr)

inductive FrameKind
  | added
  | updated
  | removed
deriving DecidableEq, Repr

namespace FrameKind

def shows : FrameKind → Bool
  | .added | .updated => true
  | .removed => false

def Follows : FrameKind → FrameKind → Prop
  | .removed, next => next = .added
  | .added, next | .updated, next => next ≠ .added

end FrameKind

structure WellFormed (kinds : List FrameKind) : Prop where
  starts : ∀ k ∈ kinds.head?, k = .added
  follows : kinds.IsChain FrameKind.Follows

def lastShows (kinds : List FrameKind) : Bool := kinds.getLast?.any FrameKind.shows

theorem lastShows_concat (kinds : List FrameKind) (k : FrameKind) :
    lastShows (kinds ++ [k]) = k.shows := by
  simp [lastShows]

theorem WellFormed.nil : WellFormed [] := ⟨by simp, .nil⟩

theorem WellFormed.concat {kinds : List FrameKind} (h : WellFormed kinds) {k : FrameKind}
    (hk : k = .added ↔ lastShows kinds = false) : WellFormed (kinds ++ [k]) := by
  constructor
  · intro first hfirst
    cases kinds with
    | nil =>
      have hk' : k = first := by simpa using hfirst
      exact hk' ▸ hk.mpr rfl
    | cons head rest => exact h.starts first hfirst
  · refine h.follows.append (.singleton k) ?_
    intro last hlast next hnext
    have hnext' : k = next := by simpa using hnext
    have hshows : lastShows kinds = last.shows := by
      rw [lastShows, Option.mem_def.mp hlast]
      rfl
    rw [hshows] at hk
    rw [← hnext']
    cases last with
    | removed => exact hk.mpr rfl
    | added | updated =>
      intro hadded
      cases hk.mp hadded

def PeerEvent.kindFor (id : String) : PeerEvent → Option FrameKind
  | .added info => if info.peerId = id then some .added else none
  | .updated info => if info.peerId = id then some .updated else none
  | .removed peerId _ => if peerId = id then some .removed else none
  | .holePunch _ | .relayWake _ => none

def PeerEvent.info : PeerEvent → Option PeerInfo
  | .added info | .updated info => some info
  | _ => none

theorem PeerEvent.shows_of_kindFor {frame : PeerEvent} {id : String} {kind : FrameKind}
    (h : frame.kindFor id = some kind) (hshows : kind.shows = true) :
    ∃ info, info.peerId = id ∧ (frame = .added info ∨ frame = .updated info) := by
  cases frame with
  | added info =>
    simp only [kindFor] at h
    split at h
    · rename_i hid
      exact ⟨info, hid, .inl rfl⟩
    · cases h
  | updated info =>
    simp only [kindFor] at h
    split at h
    · rename_i hid
      exact ⟨info, hid, .inr rfl⟩
    · cases h
  | removed peerId tags =>
    simp only [kindFor] at h
    split at h
    · rw [← Option.some.inj h] at hshows
      cases hshows
    · cases h
  | holePunch | relayWake => cases h

section

variable [Crates]

namespace ViewerFilter

def Passes (f : ViewerFilter) (c : Coordinator) (event : PeerEvent) : PeerEvent → Prop
  | .added info | .updated info =>
    (event = .added info ∨ event = .updated info) ∧ c.viewerCanSee f.viewerTags info.tags = true
  | .removed _ _ => True
  | .holePunch hp => event = .holePunch hp ∧ hp.initiatorPeerId = f.viewerId.toString
  | .relayWake rw => event = .relayWake rw ∧ rw.recipientPeerId = f.viewerId.toString

variable {f : ViewerFilter} {frame : PeerEvent}

theorem applyInfo_passes {c : Coordinator} {info : PeerInfo} {event : PeerEvent}
    (he : event = .added info ∨ event = .updated info) (h : (f.applyInfo c info).2 = some frame) :
    f.Passes c event frame := by
  unfold applyInfo at h
  split at h
  · simp at h
  · split at h
    · rename_i hsee
      have hframe := Option.some.inj h
      split at hframe <;> subst hframe <;> exact ⟨he, hsee⟩
    · split at h
      · have hframe := Option.some.inj h
        subst hframe
        trivial
      · simp at h

theorem apply_passes {c : Coordinator} {event : PeerEvent} (h : (f.apply c event).2 = some frame) :
    f.Passes c event frame := by
  cases event with
  | added info => exact applyInfo_passes (.inl rfl) h
  | updated info => exact applyInfo_passes (.inr rfl) h
  | removed peerId tags =>
    simp only [apply] at h
    split at h
    · have hframe := Option.some.inj h
      subst hframe
      trivial
    · simp at h
  | holePunch hp =>
    simp only [apply] at h
    split at h
    · rename_i hid
      have hframe := Option.some.inj h
      subst hframe
      exact ⟨rfl, hid⟩
    · simp at h
  | relayWake rw =>
    simp only [apply] at h
    split at h
    · rename_i hid
      have hframe := Option.some.inj h
      subst hframe
      exact ⟨rfl, hid⟩
    · simp at h

theorem applyInfo_viewer (f : ViewerFilter) (c : Coordinator) (info : PeerInfo) :
    (f.applyInfo c info).1.viewerId = f.viewerId ∧
      (f.applyInfo c info).1.viewerTags = f.viewerTags := by
  unfold applyInfo
  split
  · exact ⟨rfl, rfl⟩
  · split
    · exact ⟨rfl, rfl⟩
    · split <;> exact ⟨rfl, rfl⟩

theorem apply_viewer (f : ViewerFilter) (c : Coordinator) (event : PeerEvent) :
    (f.apply c event).1.viewerId = f.viewerId ∧ (f.apply c event).1.viewerTags = f.viewerTags := by
  cases event with
  | added info => exact f.applyInfo_viewer c info
  | updated info => exact f.applyInfo_viewer c info
  | removed peerId tags =>
    simp only [apply]
    split <;> exact ⟨rfl, rfl⟩
  | holePunch hp => exact ⟨rfl, rfl⟩
  | relayWake rw => exact ⟨rfl, rfl⟩

theorem applyAll_viewer (f : ViewerFilter) (c : Coordinator) (events : List PeerEvent) :
    (f.applyAll c events).1.viewerId = f.viewerId ∧
      (f.applyAll c events).1.viewerTags = f.viewerTags := by
  induction events generalizing f with
  | nil => exact ⟨rfl, rfl⟩
  | cons event events ih =>
    obtain ⟨hid, htags⟩ := f.apply_viewer c event
    obtain ⟨hid', htags'⟩ := ih (f.apply c event).1
    exact ⟨hid'.trans hid, htags'.trans htags⟩

theorem Passes.congr {f' : ViewerFilter} {c : Coordinator} {event : PeerEvent}
    (h : f'.Passes c event frame) (hv : f'.viewerId = f.viewerId ∧ f'.viewerTags = f.viewerTags) :
    f.Passes c event frame := by
  cases frame with
  | removed => trivial
  | _ => simpa only [Passes, hv.1, hv.2] using h

theorem Passes.info {c : Coordinator} {event : PeerEvent} (h : f.Passes c event frame)
    {info : PeerInfo} (hinfo : frame.info = some info) : event.info = some info := by
  cases frame with
  | added shown | updated shown =>
    obtain rfl := Option.some.inj hinfo
    rcases h.1 with rfl | rfl
    · rfl
    · rfl
  | removed | holePunch | relayWake => cases hinfo

theorem applyAll_passes {c : Coordinator} {events : List PeerEvent}
    (h : frame ∈ (f.applyAll c events).2) : ∃ event ∈ events, f.Passes c event frame := by
  induction events generalizing f with
  | nil => simp [applyAll] at h
  | cons event events ih =>
    simp only [applyAll, List.mem_append, Option.mem_toList] at h
    rcases h with h | h
    · exact ⟨event, List.mem_cons_self, apply_passes h⟩
    · obtain ⟨event', he', hpass⟩ := ih h
      exact ⟨event', List.mem_cons_of_mem event he', hpass.congr (f.apply_viewer c event)⟩

end ViewerFilter

theorem Stream.next_passes {stream : Stream} {c : Coordinator} {f : ViewerFilter}
    {frame : PeerEvent} (hf : stream.filter = some f) (h : (stream.next c).2 = some frame) :
    ∃ event, c.broadcaster[stream.cursor]? = some event ∧ f.Passes c event frame := by
  unfold Stream.next at h
  split at h
  · simp at h
  · split at h
    · simp at h
    · rename_i event hevent
      simp only [hf] at h
      exact ⟨event, hevent, ViewerFilter.apply_passes h⟩

theorem Stream.next_cases {stream : Stream} (c : Coordinator) {f : ViewerFilter}
    (hf : stream.filter = some f) :
    ((stream.next c).1.filter = some f ∧ (stream.next c).2 = none) ∨
      ∃ event, (stream.next c).1.filter = some (f.apply c event).1 ∧
        (stream.next c).2 = (f.apply c event).2 := by
  unfold Stream.next
  split
  · exact .inl ⟨hf, rfl⟩
  · split
    · exact .inl ⟨hf, rfl⟩
    · rename_i event _
      right
      refine ⟨event, ?_⟩
      simp only [hf, and_self]

theorem Stream.next_unfiltered {stream : Stream} (c : Coordinator) (hf : stream.filter = none) :
    (stream.next c).1.filter = none := by
  unfold Stream.next
  split
  · exact hf
  · split
    · exact hf
    · simp only [hf]

namespace ViewerFilter

def Tells (f f' : ViewerFilter) (id : String) : Option FrameKind → Prop
  | none => id ∈ f'.revealed ↔ id ∈ f.revealed
  | some kind => (kind = .added ↔ id ∉ f.revealed) ∧ (id ∈ f'.revealed ↔ kind.shows = true)

theorem applyInfo_tells (f : ViewerFilter) (c : Coordinator) (info : PeerInfo) (id : String) :
    Tells f (f.applyInfo c info).1 id ((f.applyInfo c info).2.bind (PeerEvent.kindFor id)) := by
  unfold applyInfo
  by_cases hself : info.peerId = f.viewerId.toString
  · simp [hself, Tells]
  · by_cases hsee : c.viewerCanSee f.viewerTags info.tags = true
    · by_cases hid : info.peerId = id
      · subst hid
        by_cases hmem : info.peerId ∈ f.revealed
        · simp [hself, hsee, hmem, Tells, PeerEvent.kindFor, reveal, FrameKind.shows]
        · simp [hself, hsee, hmem, Tells, PeerEvent.kindFor, reveal, FrameKind.shows]
      · have hother : id ≠ info.peerId := fun hc => hid hc.symm
        by_cases hmem : info.peerId ∈ f.revealed
        · simp [hself, hsee, hmem, Tells, PeerEvent.kindFor, reveal, hid]
        · simp [hself, hsee, hmem, Tells, PeerEvent.kindFor, reveal, hid, hother]
    · by_cases hmem : info.peerId ∈ f.revealed
      · by_cases hid : info.peerId = id
        · subst hid
          simp [hself, hsee, hmem, Tells, PeerEvent.kindFor, conceal, FrameKind.shows]
        · have hother : id ≠ info.peerId := fun hc => hid hc.symm
          simp [hself, hsee, hmem, Tells, PeerEvent.kindFor, conceal, hid, hother]
      · simp [hself, hsee, hmem, Tells]

theorem apply_tells (f : ViewerFilter) (c : Coordinator) (event : PeerEvent) (id : String) :
    Tells f (f.apply c event).1 id ((f.apply c event).2.bind (PeerEvent.kindFor id)) := by
  cases event with
  | added info => exact f.applyInfo_tells c info id
  | updated info => exact f.applyInfo_tells c info id
  | removed peerId tags =>
    simp only [apply]
    by_cases hmem : peerId ∈ f.revealed
    · by_cases hid : peerId = id
      · subst hid
        simp [hmem, Tells, PeerEvent.kindFor, conceal, FrameKind.shows]
      · have hother : id ≠ peerId := fun hc => hid hc.symm
        simp [hmem, Tells, PeerEvent.kindFor, conceal, hid, hother]
    · simp [hmem, Tells]
  | holePunch hp =>
    simp only [apply]
    split <;> simp [Tells, PeerEvent.kindFor]
  | relayWake rw =>
    simp only [apply]
    split <;> simp [Tells, PeerEvent.kindFor]

theorem applyInfo_not_self (f : ViewerFilter) (c : Coordinator) (info : PeerInfo) :
    (f.applyInfo c info).2.bind (PeerEvent.kindFor f.viewerId.toString) = none := by
  unfold applyInfo
  by_cases hself : info.peerId = f.viewerId.toString
  · simp [hself]
  · by_cases hsee : c.viewerCanSee f.viewerTags info.tags = true
    · by_cases hmem : info.peerId ∈ f.revealed
      · simp [hself, hsee, hmem, PeerEvent.kindFor]
      · simp [hself, hsee, hmem, PeerEvent.kindFor]
    · by_cases hmem : info.peerId ∈ f.revealed
      · simp [hself, hsee, hmem, PeerEvent.kindFor]
      · simp [hself, hsee, hmem]

theorem apply_not_self {f : ViewerFilter} (hself : f.viewerId.toString ∉ f.revealed)
    (c : Coordinator) (event : PeerEvent) :
    (f.apply c event).2.bind (PeerEvent.kindFor f.viewerId.toString) = none := by
  cases event with
  | added info => exact f.applyInfo_not_self c info
  | updated info => exact f.applyInfo_not_self c info
  | removed peerId tags =>
    simp only [apply]
    by_cases hmem : peerId ∈ f.revealed
    · have hne : peerId ≠ f.viewerId.toString := fun hc => hself (hc ▸ hmem)
      simp [hmem, PeerEvent.kindFor, hne]
    · simp [hmem]
  | holePunch hp =>
    simp only [apply]
    split <;> simp [PeerEvent.kindFor]
  | relayWake rw =>
    simp only [apply]
    split <;> simp [PeerEvent.kindFor]

end ViewerFilter

/-- What reaches an open stream that never lags: the next broadcast event, or a replacement of
the policy it is filtered by. -/
inductive Feed
  | event (event : PeerEvent)
  | putPolicy (ifMatch : String) (newPolicy : Policy)

structure Viewing where
  filter : ViewerFilter
  coordinator : Coordinator
  frames : List (Policy × PeerEvent)

namespace Viewing

def take (v : Viewing) (event : PeerEvent) : Viewing :=
  let (filter, frame) := v.filter.apply v.coordinator event
  { v with
    filter := filter
    frames := v.frames ++ frame.toList.map (fun frame => (v.coordinator.policy.current, frame)) }

def feed (v : Viewing) : Feed → Viewing
  | .event event => v.take event
  | .putPolicy ifMatch newPolicy =>
    { v with coordinator := (v.coordinator.putPolicyHandler ifMatch newPolicy).1 }

def opened (c : Coordinator) (viewerId : Uuid) (viewerTags : List String) : Viewing :=
  (c.snapshot.map PeerEvent.added).foldl take ⟨⟨viewerId, viewerTags, []⟩, c, []⟩

def kindsFor (v : Viewing) (id : String) : List FrameKind :=
  v.frames.filterMap (fun x => x.2.kindFor id)

theorem foldl_take (v : Viewing) (events : List PeerEvent) :
    events.foldl take v =
      { v with
        filter := (v.filter.applyAll v.coordinator events).1
        frames := v.frames ++ (v.filter.applyAll v.coordinator events).2.map
          (fun frame => (v.coordinator.policy.current, frame)) } := by
  induction events generalizing v with
  | nil => simp [ViewerFilter.applyAll]
  | cons event events ih =>
    rw [List.foldl_cons, ih]
    simp [take, ViewerFilter.applyAll]

theorem opened_eq (c : Coordinator) (viewerId : Uuid) (viewerTags : List String) :
    Stream.opened c (some (viewerId, viewerTags)) =
      (⟨some (opened c viewerId viewerTags).filter, c.broadcaster.length⟩,
        (opened c viewerId viewerTags).frames.map Prod.snd) := by
  rw [opened, foldl_take]
  simp [Stream.opened, Function.comp_def]

structure Inv (v : Viewing) : Prop where
  viewer : v.filter.viewerId.toString ∉ v.filter.revealed
  wellFormed : ∀ id, WellFormed (v.kindsFor id)
  revealed : ∀ id, id ∈ v.filter.revealed ↔ lastShows (v.kindsFor id) = true
  others : ∀ x ∈ v.frames, x.2.kindFor v.filter.viewerId.toString = none
  permitted : ∀ x ∈ v.frames, ∀ info, x.2 = .added info ∨ x.2 = .updated info →
    x.1.canSee v.filter.viewerTags info.tags = true

theorem kindsFor_take (v : Viewing) (event : PeerEvent) (id : String) :
    (v.take event).kindsFor id = v.kindsFor id ++
      ((v.filter.apply v.coordinator event).2.bind (PeerEvent.kindFor id)).toList := by
  simp only [kindsFor, take, List.filterMap_append]
  congr 1
  cases (v.filter.apply v.coordinator event).2 with
  | none => rfl
  | some frame =>
    simp only [Option.toList_some, List.map_cons, List.map_nil, Option.bind_some]
    cases hkind : frame.kindFor id with
    | none => simp [hkind]
    | some kind => simp [hkind]

theorem Inv.take {v : Viewing} (h : v.Inv) (event : PeerEvent) : (v.take event).Inv := by
  obtain ⟨hid, htags⟩ := v.filter.apply_viewer v.coordinator event
  have hself := ViewerFilter.apply_not_self h.viewer v.coordinator event
  have htells := v.filter.apply_tells v.coordinator event
  have hviewer : (v.take event).filter.viewerId = v.filter.viewerId := hid
  have hviewerTags : (v.take event).filter.viewerTags = v.filter.viewerTags := htags
  have hnew : ∀ x ∈ (v.take event).frames, x ∈ v.frames ∨
      x.1 = v.coordinator.policy.current ∧
        (v.filter.apply v.coordinator event).2 = some x.2 := by
    intro x hx
    rcases List.mem_append.mp hx with hx | hx
    · exact .inl hx
    · obtain ⟨frame, hframe, rfl⟩ := List.mem_map.mp hx
      exact .inr ⟨rfl, Option.mem_toList.mp hframe⟩
  constructor
  case viewer =>
    have hsame := htells v.filter.viewerId.toString
    rw [hself] at hsame
    rw [hviewer]
    exact fun hmem => h.viewer (hsame.mp hmem)
  case wellFormed =>
    intro id
    have htell := htells id
    rw [kindsFor_take]
    cases hkind : (v.filter.apply v.coordinator event).2.bind (PeerEvent.kindFor id) with
    | none => simpa using h.wellFormed id
    | some kind =>
      rw [hkind] at htell
      refine (h.wellFormed id).concat (htell.1.trans ?_)
      rw [h.revealed id, Bool.not_eq_true]
  case revealed =>
    intro id
    have htell := htells id
    rw [kindsFor_take]
    cases hkind : (v.filter.apply v.coordinator event).2.bind (PeerEvent.kindFor id) with
    | none =>
      rw [hkind] at htell
      rw [Option.toList_none, List.append_nil]
      exact htell.trans (h.revealed id)
    | some kind =>
      rw [hkind] at htell
      rw [Option.toList_some, lastShows_concat]
      exact htell.2
  case others =>
    intro x hx
    rw [hviewer]
    rcases hnew x hx with hx | ⟨-, hframe⟩
    · exact h.others x hx
    · rw [hframe] at hself
      exact hself
  case permitted =>
    intro x hx info hinfo
    rw [hviewerTags]
    rcases hnew x hx with hx | ⟨hpolicy, hframe⟩
    · exact h.permitted x hx info hinfo
    · have hpass := ViewerFilter.apply_passes hframe
      rw [hpolicy]
      rcases hinfo with hinfo | hinfo
      · rw [hinfo] at hpass
        exact hpass.2
      · rw [hinfo] at hpass
        exact hpass.2

theorem Inv.feed {v : Viewing} (h : v.Inv) (i : Feed) : (v.feed i).Inv := by
  cases i with
  | event event => exact h.take event
  | putPolicy ifMatch newPolicy => exact ⟨h.viewer, h.wellFormed, h.revealed, h.others, h.permitted⟩

theorem inv_opened (c : Coordinator) (viewerId : Uuid) (viewerTags : List String) :
    (opened c viewerId viewerTags).Inv := by
  have hloop : ∀ (events : List PeerEvent) (v : Viewing), v.Inv → (events.foldl take v).Inv := by
    intro events
    induction events with
    | nil => exact fun v h => h
    | cons event events ih => exact fun v h => ih _ (h.take event)
  refine hloop _ _ ⟨by simp, fun _ => .nil, fun _ => by simp [kindsFor, lastShows], ?_, ?_⟩
  · simp
  · simp

theorem inv_foldl_feed {v : Viewing} (h : v.Inv) (feeds : List Feed) : (feeds.foldl feed v).Inv := by
  induction feeds generalizing v with
  | nil => exact h
  | cons i feeds ih => exact ih (h.feed i)

theorem viewer_feed (v : Viewing) (i : Feed) :
    (v.feed i).filter.viewerId = v.filter.viewerId ∧
      (v.feed i).filter.viewerTags = v.filter.viewerTags := by
  cases i with
  | event event => exact v.filter.apply_viewer v.coordinator event
  | putPolicy ifMatch newPolicy => exact ⟨rfl, rfl⟩

theorem viewer_foldl_feed (c : Coordinator) (viewerId : Uuid) (viewerTags : List String)
    (feeds : List Feed) :
    (feeds.foldl feed (opened c viewerId viewerTags)).filter.viewerId = viewerId ∧
      (feeds.foldl feed (opened c viewerId viewerTags)).filter.viewerTags = viewerTags := by
  have hloop : ∀ (feeds : List Feed) (v : Viewing),
      (feeds.foldl feed v).filter.viewerId = v.filter.viewerId ∧
        (feeds.foldl feed v).filter.viewerTags = v.filter.viewerTags := by
    intro feeds
    induction feeds with
    | nil => exact fun v => ⟨rfl, rfl⟩
    | cons i feeds ih =>
      intro v
      obtain ⟨hid, htags⟩ := v.viewer_feed i
      obtain ⟨hid', htags'⟩ := ih (v.feed i)
      exact ⟨hid'.trans hid, htags'.trans htags⟩
  have hopened : opened c viewerId viewerTags =
      ((c.snapshot.map PeerEvent.added).map Feed.event).foldl feed
        ⟨⟨viewerId, viewerTags, []⟩, c, []⟩ := by
    simp only [opened, List.foldl_map]
    rfl
  rw [hopened, ← List.foldl_append]
  exact hloop _ _

end Viewing

namespace ViewerFilter

theorem mem_applyInfo {f : ViewerFilter} (hself : f.viewerId.toString ∉ f.revealed)
    (c : Coordinator) (info : PeerInfo) (id : String) :
    id ∈ (f.applyInfo c info).1.revealed ↔
      if info.peerId = id then
        id ≠ f.viewerId.toString ∧ c.viewerCanSee f.viewerTags info.tags = true
      else id ∈ f.revealed := by
  unfold applyInfo
  by_cases hid : info.peerId = id
  · subst hid
    rw [if_pos rfl]
    by_cases hme : info.peerId = f.viewerId.toString
    · rw [if_pos hme, hme]
      exact ⟨fun hmem => absurd hmem hself, fun hne => absurd rfl hne.1⟩
    · by_cases hsee : c.viewerCanSee f.viewerTags info.tags = true
      · simp [hme, hsee, reveal]
      · by_cases hmem : info.peerId ∈ f.revealed
        · simp [hme, hsee, hmem, conceal]
        · simp [hme, hsee, hmem]
  · have hother : id ≠ info.peerId := fun hc => hid hc.symm
    rw [if_neg hid]
    by_cases hme : info.peerId = f.viewerId.toString
    · rw [if_pos hme]
    · by_cases hsee : c.viewerCanSee f.viewerTags info.tags = true
      · simp [hme, hsee, reveal, hother]
      · by_cases hmem : info.peerId ∈ f.revealed
        · simp [hme, hsee, hmem, conceal, hother]
        · simp [hme, hsee, hmem]

theorem mem_applyAll_updated (c : Coordinator) {infos : List PeerInfo}
    (hnodup : (infos.map PeerInfo.peerId).Nodup) {f : ViewerFilter}
    (hself : f.viewerId.toString ∉ f.revealed) (id : String) :
    id ∈ (f.applyAll c (infos.map PeerEvent.updated)).1.revealed ↔
      (∃ info ∈ infos, info.peerId = id ∧ id ≠ f.viewerId.toString ∧
        c.viewerCanSee f.viewerTags info.tags = true) ∨
      id ∈ f.revealed ∧ ∀ info ∈ infos, info.peerId ≠ id := by
  induction infos generalizing f with
  | nil => simp [applyAll]
  | cons info infos ih =>
    obtain ⟨hfirst, hrest⟩ := List.nodup_cons.mp hnodup
    obtain ⟨hviewer, htags⟩ := f.applyInfo_viewer c info
    have hself' : (f.applyInfo c info).1.viewerId.toString ∉ (f.applyInfo c info).1.revealed := by
      rw [hviewer, mem_applyInfo hself]
      split
      · exact fun h => h.1 rfl
      · exact hself
    have hnext := ih hrest hself'
    rw [hviewer, htags, mem_applyInfo hself] at hnext
    change id ∈ ((f.applyInfo c info).1.applyAll c (infos.map PeerEvent.updated)).1.revealed ↔ _
    rw [hnext]
    by_cases hid : info.peerId = id
    · have hno : ∀ info' ∈ infos, info'.peerId ≠ id := by
        intro info' hmem hc
        exact hfirst (List.mem_map.mpr ⟨info', hmem, hc.trans hid.symm⟩)
      rw [if_pos hid]
      constructor
      · intro h
        rcases h with ⟨info', hmem, heq, -⟩ | ⟨hshown, -⟩
        · exact absurd heq (hno info' hmem)
        · exact .inl ⟨info, List.mem_cons_self, hid, hshown⟩
      · intro h
        rcases h with ⟨info', hmem, heq, hshown⟩ | ⟨-, hnone⟩
        · rcases List.mem_cons.mp hmem with rfl | hmem
          · exact .inr ⟨hshown, hno⟩
          · exact absurd heq (hno info' hmem)
        · exact absurd hid (hnone info List.mem_cons_self)
    · rw [if_neg hid]
      simp [hid]

end ViewerFilter

theorem Coordinator.nodup_snapshot {c : Coordinator}
    (hkeyed : ∀ id e, c.roster.lookup id = some e → e.peerId = id) :
    (c.snapshot.map PeerInfo.peerId).Nodup := by
  have hids : c.snapshot.map PeerInfo.peerId =
      (sortByPeerIndex c.roster.values).map (fun e => e.peerId.toString) := by
    rw [snapshot, List.map_map]
    rfl
  have hperm : ((sortByPeerIndex c.roster.values).map (fun e => e.peerId.toString)).Perm
      (c.roster.values.map (fun e => e.peerId.toString)) :=
    (List.perm_insertionSort _ _).map _
  rw [hids, hperm.nodup_iff]
  apply AList.nodup_map_values
  intro id id' e e' he he' heq
  rw [← hkeyed id e he, ← hkeyed id' e' he', Uuid.toString_inj.mp heq]

theorem Coordinator.snapshot_of_mem {c : Coordinator} {e : PeerEntry} (he : e ∈ c.roster.values) :
    ∃ info ∈ c.snapshot, info.peerId = e.peerId.toString ∧ info.tags = e.tags := by
  have hmem : e ∈ sortByPeerIndex c.roster.values :=
    (List.perm_insertionSort _ c.roster.values).mem_iff.mpr he
  exact ⟨_, List.mem_map_of_mem hmem, rfl, rfl⟩

theorem Coordinator.putPolicyHandler_resync {c : Coordinator} {ifMatch : String}
    {newPolicy : Policy} (h : (c.putPolicyHandler ifMatch newPolicy).2 = .ok ()) :
    let c' := (c.putPolicyHandler ifMatch newPolicy).1
    c'.policy.current = newPolicy ∧ c'.roster = c.roster ∧
      c'.broadcaster.drop c.broadcaster.length = c'.snapshot.map PeerEvent.updated := by
  unfold putPolicyHandler at h ⊢
  cases hr : c.policy.replace ifMatch newPolicy with
  | error err => simp [hr] at h
  | ok policy =>
    have hcurrent : policy.current = newPolicy := by
      unfold PolicyStore.replace at hr
      split at hr
      · cases hr
      · split at hr
        · cases hr
        · cases hr
          rfl
    exact ⟨hcurrent, rfl, List.drop_left⟩

/-- Each peer is introduced, updated and withdrawn in order, the revealed set is what the frames
say, and nothing is shown that the policy of the moment hides. Once the policy is replaced and the
resync consumed, the viewer has exactly the peers it may see, if those it had were all in the
roster. -/
theorem viewer_frames_converge (c₀ : Coordinator) (viewerId : Uuid) (viewerTags : List String)
    (feeds : List Feed) :
    let v := feeds.foldl Viewing.feed (Viewing.opened c₀ viewerId viewerTags)
    (∀ id, WellFormed (v.kindsFor id)) ∧
    (∀ id, id ∈ v.filter.revealed ↔ lastShows (v.kindsFor id) = true) ∧
    (∀ x ∈ v.frames, x.2.kindFor viewerId.toString = none) ∧
    (∀ x ∈ v.frames, ∀ info, x.2 = .added info ∨ x.2 = .updated info →
      x.1.canSee viewerTags info.tags = true) ∧
    ∀ (c : Coordinator) (ifMatch : String) (newPolicy : Policy),
      (∀ id e, c.roster.lookup id = some e → e.peerId = id) →
      (c.putPolicyHandler ifMatch newPolicy).2 = .ok () →
      (∀ id ∈ v.filter.revealed, ∃ e ∈ c.roster.values, e.peerId.toString = id) →
      let c' := (c.putPolicyHandler ifMatch newPolicy).1
      let resync := c'.broadcaster.drop c.broadcaster.length
      ∀ id, id ∈ (v.filter.applyAll c' resync).1.revealed ↔
        ∃ e ∈ c.roster.values, e.peerId.toString = id ∧ e.peerId ≠ viewerId ∧
          newPolicy.canSee viewerTags e.tags = true := by
  intro v
  have hinv : v.Inv := Viewing.inv_foldl_feed (Viewing.inv_opened c₀ viewerId viewerTags) feeds
  obtain ⟨hid, htags⟩ := Viewing.viewer_foldl_feed c₀ viewerId viewerTags feeds
  have hself : v.filter.viewerId.toString ∉ v.filter.revealed := hinv.viewer
  refine ⟨hinv.wellFormed, hinv.revealed, ?_, ?_, ?_⟩
  · intro x hx
    rw [← hid]
    exact hinv.others x hx
  · intro x hx info hinfo
    rw [← htags]
    exact hinv.permitted x hx info hinfo
  · intro c ifMatch newPolicy hkeyed hok hsub c' resync id
    obtain ⟨hpolicy, hroster, hresync⟩ := Coordinator.putPolicyHandler_resync hok
    have hkeyed' : ∀ id e, c'.roster.lookup id = some e → e.peerId = id := by
      intro id e he
      exact hkeyed id e (hroster ▸ he)
    have hmem := ViewerFilter.mem_applyAll_updated c' (Coordinator.nodup_snapshot hkeyed') hself id
    rw [← hresync] at hmem
    refine hmem.trans ?_
    constructor
    · intro h
      rcases h with ⟨info, hinfo, rfl, hne, hsee⟩ | ⟨hshown, hnone⟩
      · obtain ⟨e, he, hpid, hetags⟩ := Coordinator.mem_snapshot hinfo
        refine ⟨e, hroster ▸ he, hpid, ?_, ?_⟩
        · intro hself
          exact hne (by rw [← hpid, hself, hid])
        · rw [← hpolicy, ← htags, hetags]
          exact hsee
      · obtain ⟨e, he, hpid⟩ := hsub id hshown
        have he' : e ∈ c'.roster.values := hroster ▸ he
        obtain ⟨info, hinfo, hinfoId, -⟩ := Coordinator.snapshot_of_mem he'
        exact absurd (hinfoId.trans hpid) (hnone info hinfo)
    · intro ⟨e, he, hpid, hne, hsee⟩
      have he' : e ∈ c'.roster.values := hroster ▸ he
      obtain ⟨info, hinfo, hinfoId, hinfoTags⟩ := Coordinator.snapshot_of_mem he'
      refine .inl ⟨info, hinfo, hinfoId.trans hpid, ?_, ?_⟩
      · rw [← hpid, hid]
        exact fun hc => hne (Uuid.toString_inj.mp hc)
      · rw [htags, hinfoTags]
        change c'.policy.current.canSee viewerTags e.tags = true
        rw [hpolicy]
        exact hsee

end

def opsPolicy : Policy := ⟨[AclRule.accept ["tag:ops"] ["tag:ops"]]⟩

def opsRequest (key ula : String) : RegisterRequest :=
  { plainRequest key "" (some ula) with tags := ["tag:ops"] }

def opsNodes : List Op :=
  [registerOp 0 1 (opsRequest keyOne "fd5a:1f02:1::1"),
    registerOp 0 2 (opsRequest keyTwo "fd5a:1f02:2::1")]

attribute [local instance] referenceCrates

theorem viewer_frames_converge_ops :
    let c := (stateAfter openConfig opsNodes).coordinator
    let v := Viewing.opened c 1 ["tag:ops"]
    let c' := (c.putPolicyHandler c.policy.etag opsPolicy).1
    let f := (v.filter.applyAll c' (c'.broadcaster.drop c.broadcaster.length)).1
    v.filter.revealed = [] ∧ Uuid.toString 2 ∈ f.revealed ∧ Uuid.toString 1 ∉ f.revealed := by
  have hall : (mesh openConfig).Admissible (fun _ _ => True) [] (Mesh.init openConfig) opsNodes ∧
      (Viewing.opened (stateAfter openConfig opsNodes).coordinator 1
        ["tag:ops"]).filter.revealed = [] ∧
      ((stateAfter openConfig opsNodes).coordinator.putPolicyHandler
        (stateAfter openConfig opsNodes).coordinator.policy.etag opsPolicy).2.isOk = true ∧
      ((stateAfter openConfig opsNodes).coordinator.roster.lookup 2).map PeerEntry.tags =
        some ["tag:ops"] ∧
      opsPolicy.canSee ["tag:ops"] ["tag:ops"] = true := by decide +kernel
  obtain ⟨hadm, hnone, hok, htags, hsee⟩ := hall
  have hi := inv_of_reach (reach_of_admissible hadm)
  generalize (stateAfter openConfig opsNodes).coordinator = c at hnone hok htags hi ⊢
  intro c v c' f
  have hok' : (c.putPolicyHandler c.policy.etag opsPolicy).2 = .ok () := by
    cases hans : (c.putPolicyHandler c.policy.etag opsPolicy).2 with
    | error err => simp [c, hans, Except.isOk, Except.toBool] at hok
    | ok u => rfl
  obtain ⟨e, he, hetags⟩ := Option.map_eq_some_iff.mp htags
  have hid : e.peerId = 2 := hi.keyed he
  have hmain := (viewer_frames_converge c 1 ["tag:ops"] []).2.2.2.2 c c.policy.etag opsPolicy
    (fun _ _ => hi.keyed) hok' (fun id hmem => absurd (hnone ▸ hmem) List.not_mem_nil)
  refine ⟨hnone, ?_, ?_⟩
  · refine (hmain (Uuid.toString 2)).mpr ⟨e, AList.lookup_mem_values he, by rw [hid], ?_, ?_⟩
    · rw [hid]
      decide
    · rw [hetags]
      exact hsee
  · intro hmem
    obtain ⟨e', -, hid', hne, -⟩ := (hmain (Uuid.toString 1)).mp hmem
    exact hne (Uuid.toString_inj.mp hid')

end ServiceMesh
